import AdequateApi.AccountRuns
import AdequateApi.ApplicationRoutes
import AdequateApi.JsonText
import AdequateApi.UsersListingExact

/-! Registration and the creation of a user, from the same table and with the same body: which
rows the two leave, and which answers they give. -/
namespace AdequateApi.AccountCreation
open StdString DbConnection HttpMessages UsersRepository UsersListing AdequateApi.UsersController
  AccountSerializers AccountStore AccountServices LoggedAction RouterModel ApplicationRoutes
  JsonText

/-! ### What the table takes -/

section insert
variable {db : AccountServer}

/-- The constraints of the table and the limits of the server leave room for the row. -/
structure Takes (s : Accounts db) (n : NewUser) : Prop where
  encoded : n.Encoded db
  sequence : s.next_id ≤ 9223372036854775807
  id_free : ¬ s.IdTaken
  indexed : ∀ e ∈ n.email, db.index_holds e = true
  email_free : ∀ e ∈ n.email, ¬ s.EmailTaken e

theorem violation_of_takes {s : Accounts db} {n : NewUser} (h : Takes s n)
    (hname : n.username.isSome) : s.violation n = none := by
  have hindex : n.email.any (fun e => !db.index_holds e) = false := by
    cases he : n.email with
    | none => rfl
    | some e => simpa using h.indexed e he
  unfold Accounts.violation
  rw [if_neg (Option.isSome_iff_ne_none.mp hname), if_neg h.id_free, hindex,
    if_neg (by decide), if_neg]
  rintro ⟨e, he, htaken⟩
  exact h.email_free e he htaken

theorem insert_takes {s : Accounts db} {n : NewUser} (h : Takes s n) (hname : n.username.isSome)
    (now : ℤ) : ∃ t : Accounts db, s.insert n now = (t, .ok s.nextId) ∧
      t.users = s.users ++ [⟨s.nextId, Accounts.newRow n now⟩] := by
  have hviolation := violation_of_takes h hname
  unfold Accounts.insert
  rw [dif_pos h.encoded, if_neg (Nat.not_lt.mpr h.sequence)]
  split
  · rename_i state hstate
    rw [hviolation] at hstate
    cases hstate
  · exact ⟨_, rfl, rfl⟩

/-- A row with a name is refused for a reason that is not a missing value, and the rows stay. -/
theorem insert_refuses {s : Accounts db} {n : NewUser} (h : ¬ Takes s n)
    (hname : n.username.isSome) (now : ℤ) :
    ∃ (t : Accounts db) (code : DbErrorCode), s.insert n now = (t, .error (.db code db.complaint)) ∧
      t.users = s.users ∧ code ≠ .NotNullViolation := by
  unfold Accounts.insert
  dsimp only
  split
  · rename_i henc
    split
    · exact ⟨_, _, rfl, rfl, by decide⟩
    · rename_i hseq
      split
      · rename_i state hstate
        refine ⟨_, _, rfl, rfl, ?_⟩
        unfold Accounts.violation at hstate
        rw [if_neg (Option.isSome_iff_ne_none.mp hname)] at hstate
        split at hstate
        · cases hstate
          decide
        split at hstate
        · cases hstate
          decide
        split at hstate
        · cases hstate
          decide
        · cases hstate
      · rename_i hnone
        obtain ⟨_, hid, hindex, hmail⟩ := Accounts.violation_none hnone
        exact absurd ⟨henc, Nat.le_of_not_lt hseq, hid, hindex, hmail⟩ h
  · exact ⟨_, _, rfl, rfl, by decide⟩

end insert

/-! ### What creating an account does -/

section account
variable {app : Application}

/-- The password is hashed, and the table takes the row. -/
def Accepted (app : Application) (s : Accounts app.db) (username email password : Str)
    (m : Moment) : Prop :=
  ∃ hash, app.hasher.hash m.salt password = .ok hash ∧
    Takes s (newUser (newEntity username email hash))

theorem addAccount_accepted {s : Accounts app.db} {username email password : Str} {m : Moment}
    (h : Accepted app s username email password m) :
    ∃ (t : Accounts app.db) (id : ℤ) (hash : Str), app.hasher.hash m.salt password = .ok hash ∧
      addAccount app s username email password m = (t, .ok id) ∧
      t.users = s.users ++ [⟨s.nextId, ⟨c_str username, none, some (c_str email),
        some (c_str hash), m.now, m.now⟩⟩] := by
  obtain ⟨hash, hh, htakes⟩ := h
  obtain ⟨t, hi, hrows⟩ := insert_takes htakes rfl m.now
  refine ⟨t, s.nextId.toInt, hash, hh, ?_, hrows⟩
  unfold addAccount
  rw [hh]
  simp only [hi]

/-- Failing to create an account leaves the rows, and the failure is one that a registration
does not translate. -/
theorem addAccount_refused {s : Accounts app.db} {username email password : Str} {m : Moment}
    (h : ¬ Accepted app s username email password m) :
    ∃ (t : Accounts app.db) (e : Exn),
      addAccount app s username email password m = (t, .error e) ∧ t.users = s.users ∧
        registerFailure e = e ∧ ∀ what, e ≠ .validation what := by
  unfold addAccount
  cases hh : app.hasher.hash m.salt password with
  | error what => exact ⟨s, .std what, rfl, rfl, rfl, by simp⟩
  | ok hash =>
    have hnot : ¬ Takes s (newUser (newEntity username email hash)) := fun ht => h ⟨hash, hh, ht⟩
    obtain ⟨t, code, hi, hrows, hcode⟩ := insert_refuses hnot rfl m.now
    refine ⟨t, .db code app.db.complaint, ?_, hrows, ?_, by simp⟩
    · simp only [hi]
      rfl
    · cases code with
      | NotNullViolation => exact absurd rfl hcode
      | _ => rfl

end account

/-! ### The two routes -/

section serve
variable (app : Application)

/-- `AuthenticationMiddleware`, at one moment over one store, which it only reads. -/
def authentication (s : Accounts app.db) (m : Moment) : Middleware where
  id := 0
  handle := fun request =>
    match (authenticate app request m s).result with
    | .error e => .done request (.error e)
    | .ok (.error outcome) => .done request (.ok outcome)
    | .ok (.ok id) => .next { request with user_id := some id } .done
  after := fun _ response => .ok response

/-- The routes' handlers with those that create accounts. -/
def accountHandlers (base : Handlers) (s : Accounts app.db) (m : Moment) : Handlers :=
  { base with
    registration := fun request =>
      (request, (AuthenticationController.registration app request m s).result)
    store := fun request => (request, (UsersController.store app request m s).result)
    authentication := authentication app s m }

/-- The store as the handler leaves it that ran, if one of the two did. -/
def storeAfter (s : Accounts app.db) (m : Moment) (request : Request) :
    Option Event → Accounts app.db
  | some (.handler template .post) =>
      if template = "/register".toList then
        (AuthenticationController.registration app request m s).state
      else if template = "/users".toList then (UsersController.store app request m s).state
      else s
  | _ => s

/-- A request from a store: the store afterwards and the response. -/
def serve (base : Handlers) (s : Accounts app.db) (m : Moment) (request : Request) :
    Accounts app.db × Except Exn Response :=
  let d := dispatch app.lib app.env (router (accountHandlers app base s m)) request
  (storeAfter app s m request (d.trace.find? Event.isHandler), d.result)

end serve

section routes
variable {app : Application} {base : Handlers} {s : Accounts app.db} {m : Moment} {j : Json}
  {request : Request}

theorem find_runHandler (lib : Library) (run : Run) (middlewares : List Middleware) :
    (runHandler lib run middlewares).trace.find? Event.isHandler =
      run.trace.find? Event.isHandler := by
  have hsilent : ∀ outcome,
      (finish lib run.request middlewares outcome).trace.find? Event.isHandler = none := by
    intro outcome
    rw [List.find?_eq_none]
    intro e he
    rw [finish_silent lib run.request middlewares outcome e he]
    decide
  rcases runHandler_cases lib middlewares run with ⟨_, hr⟩ | ⟨e, _, _, hr⟩
  · rw [hr, List.find?_append, hsilent, Option.or_none]
  · rw [hr, List.find?_append, List.find?_append, hsilent, hsilent, Option.or_none, Option.or_none]

theorem serve_register (hp : PostsJson app.lib app.env "/register".toList j request)
    {data : RegisterSerializer} (hd : RegisterSerializer.from_json j = .ok data) :
    serve app base s m request =
      ((addAccount app s data.username data.email data.password m).1,
        answer app.lib ⟨[.handler "/register".toList .post], { request with path_params := [] },
          controllerResult request 422 registerFailure (fun _ => .null)
            (addAccount app s data.username data.email data.password m).2⟩) := by
  have hjson : Request.json app.lib { request with path_params := [] } = .ok j := hp.json
  unfold serve
  rw [hp.dispatch (matchRoute_register _) rfl rfl, middlewares_public _ (by decide)]
  dsimp only
  rw [find_runHandler, Quiet.runHandler (by simp [Quiet])]
  have hrun : runChain (runLeaf (registerEntry (accountHandlers app base s m)).original .post
      (accountHandlers app base s m).registration) [] { request with path_params := [] } =
      ⟨[.handler "/register".toList .post], { request with path_params := [] },
        (AuthenticationController.registration app { request with path_params := [] } m s).result⟩
      := rfl
  rw [hrun, registration_run hjson hd s m]
  simp only [storeAfter, List.find?_cons, Event.isHandler, if_true]
  rw [registration_run hp.json hd s m]
  rfl

/-- An accepted token hands the request on. -/
theorem authentication_run {id : ℤ} (hauth : (authenticate app request m s).result = .ok (.ok id))
    (next : Request → Run) :
    (authentication app s m).run next request =
      { next { request with user_id := some id } with
        trace := .entered 0 :: .called 0 :: (next { request with user_id := some id }).trace } := by
  have hhandle : (authentication app s m).handle request =
      .next { request with user_id := some id } .done := by
    simp only [authentication, hauth]
  rw [Middleware.run, hhandle]
  simp [Handling.run, authentication]

theorem serve_users (hp : PostsJson app.lib app.env "/users".toList j request)
    {data : UserCreateSerializer} (hd : UserCreateSerializer.from_json j = .ok data) {id : ℤ}
    (hauth : (authenticate app request m s).result = .ok (.ok id)) :
    serve app base s m request =
      ((addAccount app s data.username data.email data.password m).1,
        answer app.lib ⟨[.entered 0, .called 0, .handler "/users".toList .post],
          { request with path_params := [], user_id := some id },
          controllerResult request 409 createFailure (createdBodyOf data)
            (addAccount app s data.username data.email data.password m).2⟩) := by
  have hjson : Request.json app.lib { request with path_params := [], user_id := some id } =
      .ok j := hp.json
  unfold serve
  rw [hp.dispatch (matchRoute_users _) rfl rfl, middlewares_users _ (by decide)]
  dsimp only
  rw [find_runHandler, Quiet.runHandler (by
    intro middleware hmem request response
    rw [List.mem_singleton.mp hmem]
    rfl)]
  have hrun : runChain (runLeaf (usersEntry (accountHandlers app base s m)).original .post
      (accountHandlers app base s m).store) [(accountHandlers app base s m).authentication]
      { request with path_params := [] } =
      ⟨[.entered 0, .called 0, .handler "/users".toList .post],
        { request with path_params := [], user_id := some id },
        (UsersController.store app
          { request with path_params := [], user_id := some id } m s).result⟩ := by
    have hchain : runChain (runLeaf (usersEntry (accountHandlers app base s m)).original .post
        (accountHandlers app base s m).store) [(accountHandlers app base s m).authentication]
        { request with path_params := [] } =
          (authentication app s m).run (runLeaf "/users".toList .post
            (accountHandlers app base s m).store) { request with path_params := [] } := rfl
    -- the middleware reads the headers only
    have hauth' : (authenticate app { request with path_params := [] } m s).result = .ok (.ok id) :=
      hauth
    rw [hchain, authentication_run hauth']
    rfl
  rw [hrun, store_run hjson hd s m]
  simp only [storeAfter, List.find?_cons, Event.isHandler]
  rw [store_run hp.json hd s m]
  rfl

end routes
/-! ### Agreement -/

section agreement
variable (app : Application)

def ClientError (r : Except Exn Response) : Prop :=
  ∃ response, r = .ok response ∧ 400 ≤ response.status ∧ response.status < 500

/-- Status 5xx, or no response because nothing caught the exception. -/
def ServerError (r : Except Exn Response) : Prop :=
  ∀ response, r = .ok response → 500 ≤ response.status

/-- The column has a hash of this password, with some salt. -/
def HoldsHash (stored : Option Str) (password : Str) : Prop :=
  ∃ salt hash, app.hasher.hash salt password = .ok hash ∧ stored = some (c_str hash)

/-- One row more in each table, with the same name and address and hashes of one password. -/
def BothInsert (s t₁ t₂ : Accounts app.db) : Prop :=
  ∃ u₁ u₂ : StoredUser, t₁.users = s.users ++ [u₁] ∧ t₂.users = s.users ++ [u₂] ∧
    u₁.row.username = u₂.row.username ∧ u₁.row.email = u₂.row.email ∧
    ∃ password, HoldsHash app u₁.row.password password ∧ HoldsHash app u₂.row.password password

def BothRefuse (s : Accounts app.db) (a₁ a₂ : Accounts app.db × Except Exn Response) : Prop :=
  ClientError a₁.2 ∧ ClientError a₂.2 ∧ a₁.1.users = s.users ∧ a₂.1.users = s.users

/-- The database reports that the row violates a constraint. -/
def Violates (s : Accounts app.db) (username email password : Str) (m : Moment) : Prop :=
  ∃ code what, (addAccount app s username email password m).2 = .error (.db code what) ∧
    code ≠ .Unknown

/-- What registering and creating the same account from one store should have in common. -/
structure Agree (s : Accounts app.db) (username email password : Str) (m₁ m₂ : Moment)
    (a₁ a₂ : Accounts app.db × Except Exn Response) : Prop where
  ends : BothInsert app s a₁.1 a₂.1 ∨ BothRefuse app s a₁ a₂
  violations : Violates app s username email password m₁ →
    Violates app s username email password m₂ →
      ¬ (ServerError a₁.2 ∧ ClientError a₂.2) ∧ ¬ (ClientError a₁.2 ∧ ServerError a₂.2)

variable {app}

theorem not_bothInsert {s t₁ t₂ : Accounts app.db} (h : t₁.users = s.users ∨ t₂.users = s.users) :
    ¬ BothInsert app s t₁ t₂ := by
  rintro ⟨u₁, u₂, h₁, h₂, _⟩
  rcases h with h | h
  · rw [h] at h₁
    exact absurd h₁ (by simp)
  · rw [h] at h₂
    exact absurd h₂ (by simp)

theorem not_clientError {run : Run} {e : Exn} (hr : run.result = .error e) :
    ¬ ClientError (answer app.lib run) := by
  rintro ⟨response, hresponse, _, hlt⟩
  rw [answer_failed hr hresponse] at hlt
  exact absurd hlt (by decide)

/-- Both routes end with the row when, and only when, the hasher and the table take the account
at both moments; a row that is refused makes registration fail where the other route may give a
client error. -/
theorem registration_agrees_iff {base : Handlers} {s : Accounts app.db} {m₁ m₂ : Moment}
    {r₁ r₂ : Request} {j : Json} {data₁ : RegisterSerializer} {data₂ : UserCreateSerializer}
    {id : ℤ}
    (h₁ : PostsJson app.lib app.env "/register".toList j r₁)
    (h₂ : PostsJson app.lib app.env "/users".toList j r₂)
    (hd₁ : RegisterSerializer.from_json j = .ok data₁)
    (hd₂ : UserCreateSerializer.from_json j = .ok data₂)
    (hauth : (authenticate app r₂ m₂ s).result = .ok (.ok id)) :
    Agree app s data₁.username data₁.email data₁.password m₁ m₂
        (serve app base s m₁ r₁) (serve app base s m₂ r₂) ↔
      Accepted app s data₁.username data₁.email data₁.password m₁ ∧
        Accepted app s data₁.username data₁.email data₁.password m₂ := by
  have hsame : data₂.username = data₁.username ∧ data₂.email = data₁.email ∧
      data₂.password = data₁.password := by
    obtain ⟨hu₁, he₁, hp₁⟩ := register_ok.mp hd₁
    obtain ⟨hu₂, he₂, _, hp₂⟩ := create_ok.mp hd₂
    exact ⟨Json.str.inj (Option.some.inj (hu₂.1.symm.trans hu₁.1)),
      Json.str.inj (Option.some.inj (he₂.1.symm.trans he₁.1)),
      Json.str.inj (Option.some.inj (hp₂.1.symm.trans hp₁.1))⟩
  rw [serve_register h₁ hd₁, serve_users h₂ hd₂ hauth, hsame.1, hsame.2.1, hsame.2.2]
  constructor
  · rintro ⟨hends, _⟩
    by_contra hnot
    by_cases ha₁ : Accepted app s data₁.username data₁.email data₁.password m₁
    · -- then the other row is refused, and the tables differ in length
      have ha₂ : ¬ Accepted app s data₁.username data₁.email data₁.password m₂ :=
        fun h => hnot ⟨ha₁, h⟩
      obtain ⟨t₁, id₁, hash, _, hadd₁, hrows₁⟩ := addAccount_accepted ha₁
      obtain ⟨t₂, e, hadd₂, hrows₂, _⟩ := addAccount_refused ha₂
      rw [hadd₁, hadd₂] at hends
      rcases hends with hboth | ⟨_, _, hrows, _⟩
      · exact not_bothInsert (.inr hrows₂) hboth
      · rw [show t₁.users = s.users from hrows] at hrows₁
        exact absurd hrows₁ (by simp)
    · obtain ⟨t₁, e, hadd₁, hrows₁, hsame', hnv⟩ := addAccount_refused ha₁
      rw [hadd₁] at hends
      rcases hends with hboth | ⟨hclient, _⟩
      · exact not_bothInsert (.inl hrows₁) hboth
      · have hfailed : controllerResult r₁ 422 registerFailure (fun _ => .null) (.error e) =
            .error e := controllerResult_failed hsame' hnv
        exact not_clientError hfailed hclient
  · rintro ⟨ha₁, ha₂⟩
    obtain ⟨t₁, id₁, hash₁, hh₁, hadd₁, hrows₁⟩ := addAccount_accepted ha₁
    obtain ⟨t₂, id₂, hash₂, hh₂, hadd₂, hrows₂⟩ := addAccount_accepted ha₂
    refine ⟨.inl ?_, ?_⟩
    · rw [hadd₁, hadd₂]
      refine ⟨_, _, hrows₁, hrows₂, rfl, rfl, data₁.password, ?_, ?_⟩
      · exact ⟨m₁.salt, hash₁, hh₁, rfl⟩
      · exact ⟨m₂.salt, hash₂, hh₂, rfl⟩
    · rintro ⟨code, what, hviolation, _⟩
      rw [hadd₁] at hviolation
      cases hviolation

end agreement

/-! ### An address that is taken -/

def annBody : Json :=
  .obj [("username".toList, .str "ann".toList), ("email".toList, .str "ann@x.org".toList),
    ("password".toList, .str "secret".toList)]

def annText : Str :=
  "\x7b\"username\":\"ann\",\"email\":\"ann@x.org\",\"password\":\"secret\"\x7d".toList

/-- Only the body above is read. -/
def annLibrary : Library := readingOnly [(annText, annBody)]

/-- The token of the user 1, signed at the epoch. -/
def firstToken : Str :=
  ("eyJhbGciOiJIUzI1NiIsInR5cCI6IkpXUyJ9.eyJleHAiOjM2MDAsImlhdCI6MCwiaXNzIjoiYWRlcXVhdGUtYXBp" ++
    "Iiwic3ViIjoiMSJ9.WSbKcGEL3ylDHx2xcE_rcVrz0uplew3UzNgJA67EsCg").toList

/-- Hashes that show the salt and the password, and one token. -/
def annApp : Application where
  lib := annLibrary
  os := ⟨fun _ => none, fun _ => .ok []⟩
  rootPath := "/srv/media".toList
  media_path := "media".toList
  file_upload_limit_size := 1000
  multipart_adapter := []
  db := { plainServer with index_holds := fun e => e.length ≤ 2000 }
  hasher :=
    ⟨fun salt password => .ok (to_string salt ++ '$' :: password),
      fun password hash => (decide (hash.dropWhile (· ≠ '$') = '$' :: password), false)⟩
  jwt := JwtService.oneToken (JwtService.payload ⟨1, none, none, none, none⟩ 0 0) "k".toList
    firstToken
  secret_key := "k".toList

def stored (id : Int64) (name : String) : StoredUser :=
  ⟨id, ⟨name.toList, none, some (name.toList ++ "@x.org".toList), none, 0, 0⟩⟩

/-- Only the administrator has an account. -/
def oneAccount : Accounts annApp.db where
  users := [stored 1 "root"]
  primary := by decide
  texts := by
    intro u hu
    rw [List.mem_singleton.mp hu]
    refine ⟨⟨by decide, by decide⟩, ?_⟩
    rintro e ⟨⟩
    exact ⟨by decide, by decide⟩
  next_id := 2
  unique_email := List.pairwise_singleton _ _

/-- The address of the body is taken. -/
def twoAccounts : Accounts annApp.db where
  users := [stored 1 "root", stored 2 "ann"]
  primary := by decide
  texts := by
    intro u hu
    rcases List.mem_cons.mp hu with rfl | hu
    · refine ⟨⟨by decide, by decide⟩, ?_⟩
      rintro e ⟨⟩
      exact ⟨by decide, by decide⟩
    · rw [List.mem_singleton.mp hu]
      refine ⟨⟨by decide, by decide⟩, ?_⟩
      rintro e ⟨⟩
      exact ⟨by decide, by decide⟩
  next_id := 3
  unique_email := by
    refine List.pairwise_pair.mpr ?_
    rintro e ⟨⟩ f ⟨⟩
    decide

def annRequest (target : String) : Request where
  method := .post
  target := target.toList
  version := 11
  keep_alive := true
  headers := [("Content-Type".toList, "application/json".toList),
    ("Authorization".toList, "Bearer ".toList ++ firstToken)]
  body := annText
  user_id := none
  path_params := []
  multipart := none

theorem annRequest_posts {target : String}
    (h : normalizeTarget (annRequest target) = target.toList) :
    PostsJson annApp.lib annApp.env target.toList annBody (annRequest target) where
  method := rfl
  target := h
  content_type := rfl
  size := Nat.le_of_ble_eq_true rfl
  body := rfl

def noHandlers : Handlers :=
  ⟨fun r => (r, .error .other), fun r => (r, .error .other), fun r => (r, .error .other),
    fun r => (r, .error .other), fun r => (r, .error .other), fun r => (r, .error .other),
    fun r => (r, .error .other), fun r => (r, .error .other), passThrough 0⟩

def firstMoment : Moment := ⟨1, 100, 0, 0, 0⟩

def secondMoment : Moment := ⟨2, 200, 0, 0, 0⟩

theorem annBody_registers :
    RegisterSerializer.from_json annBody =
      .ok ⟨"ann".toList, "ann@x.org".toList, "secret".toList⟩ := rfl

theorem annBody_creates :
    UserCreateSerializer.from_json annBody =
      .ok ⟨"ann".toList, "ann@x.org".toList, "secret".toList⟩ := by
  have hvalid : validEmail "ann@x.org".toList = true := by decide +kernel
  exact create_ok.mpr ⟨⟨rfl, by decide⟩, ⟨rfl, by decide⟩, hvalid, rfl, by decide⟩

theorem bearer_token (token : Str) :
    startsWith ("Bearer ".toList ++ token) "Bearer ".toList = true ∧
      ("Bearer ".toList ++ token).drop 7 = token := by
  exact ⟨(startsWith_iff _ _).mpr (List.prefix_append _ _), rfl⟩

/-- Within its hour the token is read. -/
theorem firstToken_decoded {now : ℕ} (h : now < 3600 * JwtService.second) :
    JwtService.decode annApp.jwt annApp.secret_key (("Bearer ".toList ++ firstToken).drop 7) now =
      .ok ⟨1, none, none, none, none⟩ := by
  rw [(bearer_token firstToken).2]
  exact JwtService.oneToken_decode _ _ (Nat.zero_le now) h

theorem annToken {s : Accounts annApp.db} (h : ∃ u ∈ s.users, u.id = 1) {m : Moment}
    (hm : m.received < 3600 * JwtService.second) :
    (authenticate annApp (annRequest "/users") m s).result = .ok (.ok 1) := by
  have hheader : (annRequest "/users").headers.find?
      (fun e => toLower e.1 = "authorization".toList) =
        some ("Authorization".toList, "Bearer ".toList ++ firstToken) := rfl
  rw [authenticate_ok hheader (by decide) (firstToken_decoded hm) rfl h]

theorem oneAccount_accepts {m : Moment} (h : m.salt = 1 ∨ m.salt = 2) :
    Accepted annApp oneAccount "ann".toList "ann@x.org".toList "secret".toList m := by
  refine ⟨_, rfl, ?_⟩
  have hroot : ∀ u ∈ oneAccount.users, u = stored 1 "root" := fun u hu => List.mem_singleton.mp hu
  constructor
  · rcases h with h | h
    · rw [h]
      decide
    · rw [h]
      decide
  · decide
  · rintro ⟨u, hu, hid⟩
    rw [hroot u hu] at hid
    exact absurd hid (by decide)
  · rintro e ⟨⟩
    decide
  · rintro e ⟨⟩ ⟨u, hu, f, hf, heq⟩
    rw [hroot u hu] at hf
    cases hf
    exact absurd heq (by decide)

theorem registration_agrees_iff_ann :
    Agree annApp oneAccount "ann".toList "ann@x.org".toList "secret".toList firstMoment
      secondMoment (serve annApp noHandlers oneAccount firstMoment (annRequest "/register"))
      (serve annApp noHandlers oneAccount secondMoment (annRequest "/users")) :=
  (registration_agrees_iff (annRequest_posts (by decide)) (annRequest_posts (by decide))
    annBody_registers annBody_creates
    (annToken ⟨stored 1 "root", List.mem_singleton.mpr rfl, rfl⟩ (by decide))).mpr
      ⟨oneAccount_accepts (.inl rfl), oneAccount_accepts (.inr rfl)⟩

/-- Registering an address again is answered with 500, creating the user again with 409, and no
row is added. -/
theorem duplicate_registration_fails :
    PostsJson annApp.lib annApp.env "/register".toList annBody (annRequest "/register") ∧
    PostsJson annApp.lib annApp.env "/users".toList annBody (annRequest "/users") ∧
    ((serve annApp noHandlers twoAccounts firstMoment (annRequest "/register")).2.map
      Response.status = .ok 500) ∧
    ((serve annApp noHandlers twoAccounts secondMoment (annRequest "/users")).2.map
      Response.status = .ok 409) ∧
    ¬ Agree annApp twoAccounts "ann".toList "ann@x.org".toList "secret".toList firstMoment
      secondMoment (serve annApp noHandlers twoAccounts firstMoment (annRequest "/register"))
      (serve annApp noHandlers twoAccounts secondMoment (annRequest "/users")) := by
  have hregister : PostsJson annApp.lib annApp.env "/register".toList annBody
      (annRequest "/register") := annRequest_posts (by decide)
  have hcreate : PostsJson annApp.lib annApp.env "/users".toList annBody (annRequest "/users") :=
    annRequest_posts (by decide)
  have hroot : stored 1 "root" ∈ twoAccounts.users := List.mem_cons_self
  have hmoment : secondMoment.received < 3600 * JwtService.second := by decide
  have htoken := annToken ⟨_, hroot, rfl⟩ hmoment
  have hfails : (serve annApp noHandlers twoAccounts firstMoment (annRequest "/register")).2.map
      Response.status = .ok 500 := by
    rw [serve_register hregister annBody_registers]
    rfl
  have hconflict : (serve annApp noHandlers twoAccounts secondMoment (annRequest "/users")).2.map
      Response.status = .ok 409 := by
    rw [serve_users hcreate annBody_creates htoken]
    rfl
  refine ⟨hregister, hcreate, hfails, hconflict, fun h => ?_⟩
  refine (h.violations ⟨.UniqueViolation, [], rfl, by decide⟩
    ⟨.UniqueViolation, [], rfl, by decide⟩).1 ⟨?_, ?_⟩
  · intro response hresponse
    rw [hresponse] at hfails
    rw [Except.ok.inj hfails]
  · cases hresponse :
        (serve annApp noHandlers twoAccounts secondMoment (annRequest "/users")).2 with
    | error e =>
      rw [hresponse] at hconflict
      cases hconflict
    | ok response =>
      rw [hresponse] at hconflict
      exact ⟨response, rfl, by rw [Except.ok.inj hconflict]; decide⟩

end AdequateApi.AccountCreation
