import AdequateApi.RequestLogRoutes

/-! One password in place of another: what the serializers make of both bodies, and the records
that a login and an update leave from one state. -/
namespace AdequateApi.PasswordTwins
open StdString MultipartForm DbConnection HttpMessages UsersRepository AdequateApi.UsersService
  AdequateApi.UsersController AccountSerializers AccountStore AccountServices LoggedAction Action
  RouterModel ApplicationRoutes AccountCreation RequestLog RequestLogRoutes

/-! ### Bodies with another password -/

/-- The object with this text as its password. -/
def withPassword (j : Json) (p : Str) : Json :=
  match j with
  | .obj members =>
      .obj (members.map fun e => if e.1 = "password".toList then (e.1, .str p) else e)
  | j => j

theorem find_map_fst {β : Type} (xs : List (Str × β)) (f : Str × β → Str × β)
    (hf : ∀ e ∈ xs, (f e).1 = e.1) (key : Str) :
    (xs.map f).find? (fun e => e.1 = key) = (xs.find? fun e => e.1 = key).map f := by
  induction xs with
  | nil => rfl
  | cons e xs ih =>
    have he : (f e).1 = e.1 := hf e List.mem_cons_self
    rw [List.map_cons, List.find?_cons, List.find?_cons, he]
    cases decide (e.1 = key) with
    | true => rfl
    | false => exact ih fun e he => hf e (List.mem_cons_of_mem _ he)

theorem key_of_find {β : Type} {xs : List (Str × β)} {key : Str} {e : Str × β}
    (h : xs.find? (fun e => e.1 = key) = some e) : e.1 = key := by
  have hkey := List.find?_some h
  simpa using hkey

theorem member_withPassword_ne (j : Json) (p : Str) {key : Str} (h : key ≠ "password".toList) :
    member (withPassword j p) key = member j key := by
  cases j with
  | obj members =>
    unfold withPassword member
    dsimp only
    rw [find_map_fst _ _ (by intro e _; split <;> rfl)]
    cases hf : members.find? fun e => e.1 = key with
    | none => rfl
    | some e =>
      rw [Option.map_some, if_neg (key_of_find hf ▸ h)]
  | _ => rfl

/-- The same password is read from both, or none. -/
theorem member_withPassword (j : Json) (p : Str) :
    member (withPassword j p) "password".toList =
      (member j "password".toList).map fun _ => .str p := by
  cases j with
  | obj members =>
    unfold withPassword member
    dsimp only
    rw [find_map_fst _ _ (by intro e _; split <;> rfl)]
    cases hf : members.find? fun e => e.1 = "password".toList with
    | none => rfl
    | some e =>
      rw [Option.map_some, if_pos (key_of_find hf)]
      rfl
  | _ => rfl

theorem hasText_withPassword {j : Json} {p s : Str} {key : Str} (h : key ≠ "password".toList) :
    HasText (withPassword j p) key s ↔ HasText j key s := by
  unfold HasText
  rw [member_withPassword_ne j p h]

theorem hasPassword_withPassword {j : Json} {p q : Str} :
    HasPassword (withPassword j p) q ↔
      (member j "password".toList).isSome ∧ q = p ∧ 6 ≤ q.length := by
  unfold HasPassword
  rw [member_withPassword]
  cases member j "password".toList with
  | none => simp
  | some v => simp [eq_comm]

/-- An accepted password of the same length is accepted in its place. -/
theorem hasPassword_twin {j : Json} {p p' q : Str} (hlen : p'.length = p.length)
    (h : HasPassword (withPassword j p) q) : q = p ∧ HasPassword (withPassword j p') p' := by
  obtain ⟨hsome, rfl, hlong⟩ := hasPassword_withPassword.mp h
  exact ⟨rfl, hasPassword_withPassword.mpr ⟨hsome, rfl, hlen ▸ hlong⟩⟩

section accepted
variable {j : Json} {p p' : Str} (hlen : p'.length = p.length)
include hlen

theorem register_twin {data : RegisterSerializer}
    (h : RegisterSerializer.from_json (withPassword j p) = .ok data) :
    data.password = p ∧
      RegisterSerializer.from_json (withPassword j p') = .ok { data with password := p' } := by
  obtain ⟨hu, he, hp⟩ := register_ok.mp h
  obtain ⟨hpass, hp'⟩ := hasPassword_twin hlen hp
  refine ⟨hpass, register_ok.mpr ⟨?_, ?_, hp'⟩⟩
  · exact (hasText_withPassword (by decide)).mpr ((hasText_withPassword (by decide)).mp hu)
  · exact (hasText_withPassword (by decide)).mpr ((hasText_withPassword (by decide)).mp he)

theorem login_twin {data : LoginSerializer}
    (h : LoginSerializer.from_json (withPassword j p) = .ok data) :
    data.password = p ∧
      LoginSerializer.from_json (withPassword j p') = .ok { data with password := p' } := by
  obtain ⟨he, hv, hp⟩ := login_ok.mp h
  obtain ⟨hpass, hp'⟩ := hasPassword_twin hlen hp
  refine ⟨hpass, login_ok.mpr ⟨?_, hv, hp'⟩⟩
  exact (hasText_withPassword (by decide)).mpr ((hasText_withPassword (by decide)).mp he)

theorem create_twin {data : UserCreateSerializer}
    (h : UserCreateSerializer.from_json (withPassword j p) = .ok data) :
    data.password = p ∧
      UserCreateSerializer.from_json (withPassword j p') = .ok { data with password := p' } := by
  obtain ⟨hu, he, hv, hp⟩ := create_ok.mp h
  obtain ⟨hpass, hp'⟩ := hasPassword_twin hlen hp
  refine ⟨hpass, create_ok.mpr ⟨?_, ?_, hv, hp'⟩⟩
  · exact (hasText_withPassword (by decide)).mpr ((hasText_withPassword (by decide)).mp hu)
  · exact (hasText_withPassword (by decide)).mpr ((hasText_withPassword (by decide)).mp he)

end accepted

/-- The same checks on the second password. -/
theorem update_twin {lib : Library} {j : Json} {p p' : Str} {data data' : UserUpdateSerializer}
    (hmember : member j "password".toList = some (.str p))
    (h : from_json lib j = .ok data) (h' : from_json lib (withPassword j p') = .ok data') :
    data.password = some p ∧ data' = { data with password := some p' } := by
  have hmember' : member (withPassword j p') "password".toList = some (.str p') := by
    rw [member_withPassword, hmember]
    rfl
  have htext : ∀ key message, key ≠ "password".toList →
      presentText (withPassword j p') key message = presentText j key message := by
    intro key message hkey
    rw [presentText, member_withPassword_ne j p' hkey, presentText]
  have hpicture : from_json.picture (withPassword j p') = from_json.picture j := by
    rw [from_json.picture, member_withPassword_ne j p' (by decide), from_json.picture]
  have hpassword : ∀ {j : Json} {q : Str} {v : Option Str},
      member j "password".toList = some (.str q) → presentPassword j = .ok v → v = some q := by
    intro j q v hm hv
    unfold presentPassword at hv
    rw [hm] at hv
    dsimp only at hv
    split at hv
    · cases hv
    · exact (Except.ok.inj hv).symm
  rw [from_json_eq] at h h'
  simp only [AccountSerializers.bind_ok] at h h'
  obtain ⟨_, _, username, husername, email, hemail, h⟩ := h
  obtain ⟨_, _, username', husername', email', hemail', h'⟩ := h'
  rw [htext _ _ (by decide), husername] at husername'
  rw [htext _ _ (by decide), hemail] at hemail'
  cases husername'
  cases hemail'
  split at h
  · cases h
  rename_i hvalid
  rw [if_neg hvalid] at h'
  obtain ⟨q, hq, h⟩ := AccountSerializers.bind_ok.mp h
  obtain ⟨q', hq', h'⟩ := AccountSerializers.bind_ok.mp h'
  cases h
  cases h'
  rw [hpassword hmember hq, hpassword hmember' hq', hpicture]
  exact ⟨rfl, rfl⟩

/-! ### Forms with another password -/

/-- Another password in the same form. -/
structure OtherField (form form' : Form) (p p' : Str) : Prop where
  files : form'.files = form.files
  fields : ∀ key, key ≠ "password".toList → form'.fields.find key = form.fields.find key
  password : form.fields.find "password".toList = some p
  password' : form'.fields.find "password".toList = some p'

theorem OtherField.member {form form' : Form} {p p' : Str} (h : OtherField form form' p p') :
    member (formBody form) "password".toList = some (.str p) := by
  unfold formBody formMembers
  dsimp only
  rw [h.password]
  cases form.fields.find "email".toList <;> cases form.fields.find "username".toList <;>
    cases form.files.find "picture".toList <;> rfl

theorem OtherField.body {form form' : Form} {p p' : Str} (h : OtherField form form' p p') :
    formBody form' = withPassword (formBody form) p' := by
  have hemail := h.fields "email".toList (by decide)
  have husername := h.fields "username".toList (by decide)
  unfold formBody formMembers
  dsimp only
  rw [hemail, husername, h.files, h.password, h.password']
  cases form.fields.find "email".toList <;> cases form.fields.find "username".toList <;>
    cases form.files.find "picture".toList <;> rfl

/-- The field of the password among the parts of a form. -/
def passwordPart (contentType : Str) (headers : Dict Str) (p : Str) : Part :=
  ⟨"password".toList, [], contentType, p, headers⟩

/-- The parts of a form with a field for the password among them. -/
def partsWith (before after : List Part) (contentType : Str) (headers : Dict Str) (p : Str) :
    List Part :=
  before ++ passwordPart contentType headers p :: after

def formWith (before after : List Part) (contentType : Str) (headers : Dict Str) (p : Str) : Form :=
  formOf (partsWith before after contentType headers p)

theorem OtherField.add {form form' : Form} {p p' : Str} (h : OtherField form form' p p')
    {part : Part} (hpart : part.filename = [] → part.name ≠ "password".toList) :
    OtherField (form.add part) (form'.add part) p p' := by
  unfold Form.add
  by_cases hfile : part.filename ≠ []
  · rw [if_pos hfile, if_pos hfile, h.files]
    exact ⟨rfl, h.fields, h.password, h.password'⟩
  · have hname := hpart (not_not.mp hfile)
    rw [if_neg hfile, if_neg hfile]
    refine ⟨h.files, fun key hkey => ?_, ?_, ?_⟩
    · dsimp only
      by_cases hk : key = part.name
      · rw [hk, Dict.find_set_self, Dict.find_set_self]
      · rw [Dict.find_set_ne _ _ hk, Dict.find_set_ne _ _ hk, h.fields key hkey]
    · exact (Dict.find_set_ne _ _ hname.symm).trans h.password
    · exact (Dict.find_set_ne _ _ hname.symm).trans h.password'

theorem formWith_twin (before after : List Part) (contentType : Str) (headers : Dict Str)
    (p p' : Str)
    (hafter : ∀ part ∈ after, part.filename = [] → part.name ≠ "password".toList) :
    OtherField (formWith before after contentType headers p)
      (formWith before after contentType headers p') p p' := by
  unfold formWith partsWith formOf
  rw [List.foldl_append, List.foldl_append, List.foldl_cons, List.foldl_cons]
  have hstart : ∀ form : Form, OtherField (form.add (passwordPart contentType headers p))
      (form.add (passwordPart contentType headers p')) p p' := by
    intro form
    refine ⟨rfl, fun key hkey => ?_, Dict.find_set_self _ _ _, Dict.find_set_self _ _ _⟩
    exact (Dict.find_set_ne _ _ hkey).trans (Dict.find_set_ne _ _ hkey).symm
  have hrest := hstart (before.foldl Form.add ⟨[], []⟩)
  clear hstart
  revert hrest
  generalize Form.add _ (passwordPart contentType headers p) = form
  generalize Form.add _ (passwordPart contentType headers p') = form'
  intro hrest
  induction after generalizing form form' with
  | nil => exact hrest
  | cons part after ih =>
    exact ih (fun q hq => hafter q (List.mem_cons_of_mem _ hq)) _ _
      (hrest.add (hafter part List.mem_cons_self))

/-- A handler of `ValidationError` around two runs that go alike. -/
theorem tryValidatedAs_matches {σ α : Type} {x y : Act σ α} {s t : σ}
    (h : Matches Eq (x s) (y t)) (shown : Str → Str) (warning : String) :
    Matches Eq (tryValidatedAs shown x warning s) (tryValidatedAs shown y warning t) := by
  refine .rescue (.bind h ?_) fun e => ?_
  · rintro a _ rfl u v
    exact ⟨rfl, .ok rfl⟩
  · cases e with
    | validation what => exact .inr ⟨_, _, rfl, rfl, fun u v => ⟨rfl, .ok rfl⟩⟩
    | _ => exact .inl ⟨rfl, rfl⟩

/-! ### Logging in -/

section login
variable {app : Application} {s : Accounts app.db} {m : Moment} {r : Request} {j : Json}

/-- The database knows an account with this address. -/
def Known (s : Accounts app.db) (email : Str) : Prop :=
  bindable app.db [some email] = true ∧ ∃ u ∈ s.users, Selected app.db ⟨none, none, some email⟩ u

abbrev loginFilter (email : Str) : UserFilter := ⟨none, none, some email⟩

theorem exists_known {email : Str} (h : Known s email) :
    AccountServices.UsersService.exists_ app (loginFilter email) s =
      ⟨[existsRecord (some email)], s, .ok true⟩ := by
  have hbind : bindable app.db (existsStatement (loginFilter email)).params = true := h.1
  unfold AccountServices.UsersService.exists_ AccountStore.exists_
  rw [record_bind, run_change, if_pos hbind, loginFilter, decide_eq_true h.2]
  rfl

theorem exists_unknown {email : Str} (h : ¬ Known s email) :
    AccountServices.UsersService.exists_ app (loginFilter email) s =
        ⟨[existsRecord (some email)], s, .ok false⟩ ∨
      AccountServices.UsersService.exists_ app (loginFilter email) s =
        ⟨[existsRecord (some email)], s, .error (.db .Unknown app.db.complaint)⟩ := by
  unfold AccountServices.UsersService.exists_ AccountStore.exists_
  rw [record_bind, run_change]
  by_cases hbind : bindable app.db (existsStatement (loginFilter email)).params = true
  · have hno : ¬ ∃ u ∈ s.users, Selected app.db (loginFilter email) u := fun hu => h ⟨hbind, hu⟩
    left
    rw [if_pos hbind, decide_eq_false hno]
    rfl
  · right
    rw [if_neg hbind]
    rfl

/-- The record that a login makes of its data. -/
def obtainRecord (data : LoginSerializer) : LogRecord :=
  info "AuthenticationService::obtainTokens: called"
    (texts [("email", data.email), ("password", data.password)])

def storedPassword (user : UserEntity) : Except Exn Str :=
  match user.password with
  | some hash => .ok hash
  | none => .error (.std "bad optional access".toList)

/-- `obtainTokens` after its first record. -/
def grantTokens (app : Application) (data : LoginSerializer) (m : Moment) :
    Act (Accounts app.db) Json := do
  let user ← getOne (loginFilter data.email)
  record (debug "AuthenticationService::obtainTokens: checking password")
  let stored ← lift (storedPassword user)
  if !(app.hasher.verify data.password stored).1 then
    fail (.validation "Incorrect credentials".toList)
  else
    let token ← lift ((JwtService.encode app.jwt app.secret_key user m.issued m.expiry).mapError
      AuthenticationService.signing)
    return .obj [("accessToken".toList, .str token), ("refreshToken".toList, .str "None".toList)]

theorem obtainTokens_run (data : LoginSerializer) :
    AuthenticationService.obtainTokens app data m s =
      (grantTokens app data m s).after [obtainRecord data] := record_bind _ _ _

/-- What the hasher says of a password, for the account that the database finds. -/
def loginVerdict (app : Application) (s : Accounts app.db) (email password : Str) :
    Except Exn Bool :=
  (getOne (loginFilter email) s).result.bind fun user =>
    (storedPassword user).map fun stored => (app.hasher.verify password stored).1

theorem grantTokens_matches {email p p' : Str}
    (h : loginVerdict app s email p = loginVerdict app s email p') :
    Matches Eq (grantTokens app ⟨email, p⟩ m s) (grantTokens app ⟨email, p'⟩ m s) := by
  refine .bind (.self _) ?_
  rintro user _ ⟨rfl, hfound⟩ u v
  rw [record_bind, record_bind]
  refine .after ?_ _
  have hverify : (storedPassword user).map (fun stored => (app.hasher.verify p stored).1) =
      (storedPassword user).map fun stored => (app.hasher.verify p' stored).1 := by
    unfold loginVerdict at h
    rw [hfound] at h
    exact h
  cases hs : storedPassword user with
  | error e =>
    rw [lift_error_bind, lift_error_bind]
    exact ⟨rfl, .error e⟩
  | ok stored =>
    have hsame : (app.hasher.verify p stored).1 = (app.hasher.verify p' stored).1 := by
      rw [hs] at hverify
      exact Except.ok.inj hverify
    rw [lift_ok_bind, lift_ok_bind]
    dsimp only
    rw [hsame]
    split
    · exact ⟨rfl, .error _⟩
    · cases (JwtService.encode app.jwt app.secret_key user m.issued m.expiry).mapError
          AuthenticationService.signing with
      | error e => exact ⟨rfl, .error e⟩
      | ok token => exact ⟨rfl, .ok rfl⟩

def loginAccepted (request : Request) (email : Str) : List LogRecord :=
  acceptedLog (debug "AuthenticationController::login: called" (methodAndTarget request))
      (debug "AuthenticationController::login: Validating data by serializer")
      (debugText ("AuthenticationController::login: Checking up if any error occurred. " ++
        "Error msg: ") [])
      (readLoginLog email) ++
    [existsRecord (some email)]

/-- `login` after the database has found the account. -/
def loginTokens (app : Application) (request : Request) (tokens : Act (Accounts app.db) Json) :
    Act (Accounts app.db) Outcome := do
  let tokens ← tryValidatedAs AuthenticationController.credentialsText tokens
    "AuthenticationController::login: Validation failed, error: "
  match tokens with
  | .error text => return errorResult request 422 text
  | .ok tokens =>
      record (debug "Converting serializer to JSON")
      return created request tokens

theorem login_known (hj : r.json app.lib = .ok j) {data : LoginSerializer}
    (hd : LoginSerializer.from_json j = .ok data) (h : Known s data.email) :
    AuthenticationController.login app r m s =
      (loginTokens app r (grantTokens app data m) s).after
        (loginAccepted r data.email ++ [obtainRecord data]) := by
  have htokens : loginTokens app r (AuthenticationService.obtainTokens app data m) s =
      (loginTokens app r (grantTokens app data m) s).after [obtainRecord data] :=
    bind_after (rescue_after (bind_after (obtainTokens_run data) _) _) _
  unfold AuthenticationController.login
  rw [record_bind, hj, lift_ok_bind, record_bind, bind_ok (tryValidated_ok (readLogin_ok hd s) _),
    record_bind]
  dsimp only
  rw [bind_ok (tryValidated_ok (exists_known h) _)]
  change Ran.after (Ran.after (Ran.after (Ran.after (Ran.after (loginTokens app r
    (AuthenticationService.obtainTokens app data m) s) _) _) _) _) _ = _
  rw [htokens]
  simp [Ran.after_after, loginAccepted, acceptedLog, errorText]

theorem login_unknown (hj : r.json app.lib = .ok j) {data : LoginSerializer}
    (hd : LoginSerializer.from_json j = .ok data) (h : ¬ Known s data.email) :
    (AuthenticationController.login app r m s).log = loginAccepted r data.email := by
  unfold AuthenticationController.login
  rw [record_bind, hj, lift_ok_bind, record_bind, bind_ok (tryValidated_ok (readLogin_ok hd s) _),
    record_bind]
  dsimp only
  rcases exists_unknown h with hfalse | herror
  · rw [bind_ok (tryValidated_ok hfalse _)]
    simp [loginAccepted, acceptedLog, errorText]
  · rw [bind_error (tryValidated_error herror (by simp) _)]
    simp [loginAccepted, acceptedLog, errorText]

theorem loginTokens_matches {x y : Act (Accounts app.db) Json} (h : Matches Eq (x s) (y s)) :
    Matches Eq (loginTokens app r x s) (loginTokens app r y s) := by
  refine .bind (tryValidatedAs_matches h _ _) ?_
  rintro tokens _ rfl u v
  cases tokens with
  | error text => exact ⟨rfl, .ok rfl⟩
  | ok tokens => exact ⟨rfl, .ok rfl⟩

end login

/-! ### Updating -/

section update
variable {srv : Services} {t : State} {a a' : UpdateAnswers}

/-- The second entity has another hash; an empty hash would be left out of both statements. -/
structure OtherHash (user user' : UserEntity) : Prop where
  same : user' = { user with password := user'.password }
  given : (given user.password).isSome = (given user'.password).isSome

theorem sets_fields {user user' : UserEntity} (h : OtherHash user user') :
    (sets user').map Prod.fst = (sets user).map Prod.fst := by
  have hsame := h.same
  have hgiven := h.given
  obtain ⟨id, username, email, picture, password⟩ := user
  obtain ⟨id', username', email', picture', password'⟩ := user'
  cases hsame
  unfold sets
  dsimp only at hgiven ⊢
  simp only [List.filterMap_cons, List.filterMap_nil]
  cases hp : UsersRepository.given password with
  | none =>
    have hp' : UsersRepository.given password' = none := by simpa [hp] using hgiven.symm
    rw [hp']
  | some x =>
    obtain ⟨y, hy⟩ : ∃ y, UsersRepository.given password' = some y :=
      Option.isSome_iff_exists.mp (by simpa [hp] using hgiven.symm)
    rw [hy]
    cases UsersRepository.given email <;> cases UsersRepository.given username <;>
      cases UsersRepository.given picture <;> rfl

theorem updateRowLog_other {user user' : UserEntity} (h : OtherHash user user') :
    updateRowLog user' = updateRowLog user := by
  have hlength : (sets user').length = (sets user).length := by
    rw [← List.length_map Prod.fst, sets_fields h, List.length_map]
  unfold updateRowLog
  rw [hlength, h.same]

theorem update_result_other {user user' : UserEntity} (h : OtherHash user user')
    (users users' : Table) (query : QueryAnswer) :
    (UsersRepository.update users' user' query).2 =
      (UsersRepository.update users user query).2 := by
  unfold UsersRepository.update updateQuery
  rw [sets_fields h]
  cases (SqlBuilder.SQLBuilder.create "users".toList).update ((sets user).map Prod.fst) <;> rfl

/-- The same answers, but for the hash. -/
structure OtherHashAnswer (a a' : UpdateAnswers) : Prop where
  same : a' = { a with hash := a'.hash }
  hash : Results (fun h h' => (h = [] ↔ h' = [])) a.hash a'.hash

theorem replacePicture_other (srv : Services) {user user' : UserEntity} (h : OtherHash user user')
    (ha : OtherHashAnswer a a') (disk : FileTree.Disk) (picture : FileSystemService.IncomingFile) :
    replacePictureLog srv disk user' picture a' = replacePictureLog srv disk user picture a ∧
      Results OtherHash (replacePicture srv disk user picture a).2
        (replacePicture srv disk user' picture a').2 := by
  rw [h.same, ha.same]
  refine ⟨rfl, ?_⟩
  unfold replacePicture
  dsimp only
  split
  · generalize clearDirectory srv disk (pictureDir user.id) a.stat_fails a.removal = cleared
    obtain ⟨disk', result⟩ := cleared
    cases result with
    | error e => exact .error e
    | ok u =>
      dsimp only
      generalize storePicture srv disk' user.id picture a.store = written
      obtain ⟨disk'', result⟩ := written
      cases result with
      | error e => exact .error e
      | ok info => exact .ok ⟨rfl, h.given⟩
  · exact .ok ⟨rfl, h.given⟩

/-- The service beside itself with another password, whose hash is another one. -/
theorem updateService_matches (srv : Services) {data : UserUpdateSerializer} {p : Str} (p' : Str)
    (hdata : data.password = some p) (ha : OtherHashAnswer a a')
    (picture : FileSystemService.IncomingFile) :
    Matches Eq (updateService srv data picture a t)
      (updateService srv { data with password := some p' } picture a' t) := by
  have hhash : Results OtherHash (hashPassword data.toEntity a.hash)
      (hashPassword { data with password := some p' }.toEntity a'.hash) := by
    have hanswers := ha.hash
    unfold hashPassword UserUpdateSerializer.toEntity
    rw [hdata]
    dsimp only
    generalize a.hash = hash, a'.hash = hash' at hanswers
    cases hanswers with
    | error e => exact .error _
    | ok hempty =>
      refine .ok ⟨rfl, ?_⟩
      simp [given, Option.isSome_filter, hempty]
  have hwrite : ∀ user user', OtherHash user user' → ∀ u : State,
      Matches Eq (writeUpdate srv user picture a u) (writeUpdate srv user' picture a' u) := by
    intro user user' h u
    obtain ⟨hlog, hresult⟩ := replacePicture_other srv h ha u.disk picture
    refine .bind (R := OtherHash) ⟨?_, ?_⟩ ?_
    · exact hlog.symm
    · exact hresult.mapError _
    · intro user user' h v w
      refine ⟨(updateRowLog_other h).symm, ?_⟩
      rw [run_traced, run_traced]
      dsimp only
      rw [ha.same, update_result_other h v.users]
      cases (UsersRepository.update v.users user a.query).2 with
      | error e => exact .error e
      | ok x => exact .ok rfl
  unfold updateService
  rw [record_bind, record_bind, record_bind, record_bind, record_bind, record_bind]
  refine .after (.after (.after ?_ _) _) _
  generalize hashPassword data.toEntity a.hash = hashed,
    hashPassword { data with password := some p' }.toEntity a'.hash = hashed' at hhash ⊢
  cases hhash with
  | error e => exact ⟨rfl, .error e⟩
  | ok h =>
    rw [lift_ok_bind, lift_ok_bind]
    refine .rescue (hwrite _ _ h t) fun e => ?_
    cases e with
    | db code what => exact .inr ⟨_, _, rfl, rfl, fun u v => ⟨rfl, .error _⟩⟩
    | _ => exact .inl ⟨rfl, rfl⟩

/-- `update` after its serializer has accepted the body. -/
def finishUpdate (request : Request) (done : Act State Unit) : Act State Outcome := do
  let done ← tryValidated done "UsersController::update: User update failed: "
  match done with
  | .error text => return errorResult request 409 text
  | .ok () => return noContent request

def updateAccepted (request : Request) (text : Str) (data : UserUpdateSerializer) :
    List LogRecord :=
  acceptedLog (info "UsersController::update: called" (methodAndTarget request))
    (debug "UsersController::update: Validating data by serializer.")
    (debugText "UsersController::update: Checking up if any error occurred. Error msg: " [])
    (readUpdateLog text data)

theorem update_accepted {request : Request} {id : ℤ} {body : Json}
    {picture : FileSystemService.IncomingFile} {text : Str} {data : UserUpdateSerializer}
    (hid : pathId request = .ok id) (hread : readBody srv request = .ok (body, picture))
    (hdump : srv.lib.dump body (-1) = .ok text) (hd : from_json srv.lib body = .ok data) :
    RequestLog.update srv request a t =
      (finishUpdate request (updateService srv { data with id := id } picture a) t).after
        (updateAccepted request text data) := by
  unfold RequestLog.update
  rw [hid, lift_ok_bind, record_bind, hread, lift_ok_bind]
  dsimp only
  rw [record_bind, bind_ok (tryValidated_ok (readUpdate_ok hdump hd t) _), record_bind]
  simp only [Ran.after_after, updateAccepted, acceptedLog, errorText]
  rfl

theorem finishUpdate_matches (request : Request) {x y : Act State Unit}
    (h : Matches Eq (x t) (y t)) :
    Matches Eq (finishUpdate request x t) (finishUpdate request y t) := by
  refine .bind (tryValidatedAs_matches h id _) ?_
  rintro done _ rfl u v
  cases done with
  | error text => exact ⟨rfl, .ok rfl⟩
  | ok done => exact ⟨rfl, .ok rfl⟩

end update

end AdequateApi.PasswordTwins
