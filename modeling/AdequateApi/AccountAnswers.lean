import AdequateApi.AnswerStatus
import AdequateApi.PasswordTwins

/-! With which status registrations, logins and the creation of users are answered while the
parts that they rest on work. -/
namespace AdequateApi.AccountAnswers
open StdString DbConnection HttpMessages SqlBuilder PostgresSelect UsersRepository UsersListing
  AdequateApi.UsersService AdequateApi.UsersController FileSystemService FileTree AccountSerializers
  AccountStore AccountServices LoggedAction Action RouterModel ApplicationRoutes AccountCreation
  RequestLog PasswordTwins Utf8Text JsonText AnswerStatus

/-! ### Serializers -/

/-- A failure is a `ValidationError` with a text that can be written. -/
def Soft {α : Type} (r : Except Exn α) : Prop :=
  ∀ e, r = .error e → ∃ what, e = .validation what ∧ Utf8 (c_str what)

section soft
variable {α β : Type}

theorem soft_ok (a : α) : Soft (.ok a : Except Exn α) := by
  intro e h
  cases h

theorem soft_error {e : Exn} : Soft (.error e : Except Exn α) ↔
    ∃ what, e = .validation what ∧ Utf8 (c_str what) := by
  constructor
  · intro h
    exact h e rfl
  · intro h e' he
    cases he
    exact h

theorem soft_validation {what : Str} :
    Soft (.error (.validation what) : Except Exn α) ↔ Utf8 (c_str what) := by
  simp [soft_error]

theorem not_soft_std (what : Str) : ¬ Soft (.error (.std what) : Except Exn α) := by
  simp [soft_error]

theorem soft_bind {x : Except Exn α} {f : α → Except Exn β} :
    Soft (x >>= f) ↔ Soft x ∧ ∀ a, x = .ok a → Soft (f a) := by
  cases x with
  | error e =>
    have hbind : (Except.error e >>= f) = .error e := rfl
    rw [hbind, soft_error, soft_error]
    simp
  | ok a =>
    constructor
    · intro h
      refine ⟨soft_ok a, ?_⟩
      rintro _ ⟨⟩
      exact h
    · rintro ⟨_, h⟩
      exact h a rfl

end soft

/-- The member is a text, if it is there. -/
def TextOrAbsent (j : Json) (key : Str) : Prop := ∀ v, member j key = some v → ∃ s, v = .str s

theorem soft_getString {v : Json} : Soft (getString v) ↔ ∃ s, v = .str s := by
  constructor
  · intro h
    cases v with
    | str s => exact ⟨s, rfl⟩
    | _ => exact absurd h (not_soft_std _)
  · rintro ⟨s, rfl⟩
    exact soft_ok s

theorem soft_requiredText {j : Json} {key message : Str} (hm : Utf8 (c_str message)) :
    Soft (requiredText j key message) ↔ TextOrAbsent j key := by
  unfold requiredText TextOrAbsent
  cases member j key with
  | none => simp [soft_validation, hm]
  | some v =>
    dsimp only
    have hv := @soft_getString v
    cases hg : getString v with
    | error e =>
      rw [hg] at hv
      simp only [Option.some.injEq, forall_eq', ← hv, soft_error]
    | ok s =>
      obtain rfl := getString_ok.mp hg
      dsimp only
      refine ⟨?_, fun _ => ?_⟩
      · rintro _ _ ⟨⟩
        exact ⟨s, rfl⟩
      · split
        · exact soft_validation.mpr hm
        · exact soft_ok s

theorem soft_requiredPassword (j : Json) : Soft (requiredPassword j) := by
  have hm : Utf8 (c_str "Password must be at least 6 characters".toList) :=
    utf8_literal (by decide)
  unfold requiredPassword
  split
  · split
    · exact soft_validation.mpr hm
    · exact soft_ok _
  · exact soft_validation.mpr hm

/-- The members that a registration and a new user have to name. -/
def Named (j : Json) : Prop :=
  TextOrAbsent j "username".toList ∧
    ∀ username, HasText j "username".toList username → TextOrAbsent j "email".toList

theorem soft_register {j : Json} : Soft (RegisterSerializer.from_json j) ↔ Named j := by
  unfold RegisterSerializer.from_json Named
  rw [soft_bind, soft_requiredText (utf8_literal (by decide))]
  refine and_congr Iff.rfl (forall_congr' fun username => ?_)
  rw [requiredText_ok]
  refine imp_congr Iff.rfl ?_
  rw [soft_bind, soft_requiredText (utf8_literal (by decide))]
  refine and_iff_left fun email _ => soft_bind.mpr ⟨soft_requiredPassword j, fun _ _ => ?_⟩
  exact soft_ok _

/-- What follows the texts when the address has to have the form of one. -/
theorem soft_checked {α : Type} {j : Json} (email : Str) (f : Str → α) :
    Soft (if !validEmail email then .error (.validation "Email is invalid".toList)
      else do
        let password ← requiredPassword j
        return f password : Except Exn α) := by
  split
  · exact soft_validation.mpr (utf8_literal (by decide))
  · exact soft_bind.mpr ⟨soft_requiredPassword j, fun _ _ => soft_ok _⟩

theorem soft_create {j : Json} : Soft (UserCreateSerializer.from_json j) ↔ Named j := by
  unfold UserCreateSerializer.from_json Named
  rw [soft_bind, soft_requiredText (utf8_literal (by decide))]
  refine and_congr Iff.rfl (forall_congr' fun username => ?_)
  rw [requiredText_ok]
  refine imp_congr Iff.rfl ?_
  rw [soft_bind, soft_requiredText (utf8_literal (by decide))]
  exact and_iff_left fun email _ => soft_checked email (UserCreateSerializer.mk username email)

theorem soft_login {j : Json} :
    Soft (LoginSerializer.from_json j) ↔ TextOrAbsent j "email".toList := by
  unfold LoginSerializer.from_json
  rw [soft_bind, soft_requiredText (utf8_literal (by decide))]
  exact and_iff_left fun email _ => soft_checked email (LoginSerializer.mk email)

/-! ### The records of a serializer -/

section yields
variable {σ β : Type}

theorem yields_required {message key : String} {j : Json} {refusal : Str}
    {f : Str → Act σ β} {g : Str → Except Exn β} (hf : ∀ text, Yields (f text) (g text)) :
    Yields (showText message key j >>= fun _ => lift (requiredText j key.toList refusal) >>= f)
      (requiredText j key.toList refusal >>= g) := by
  have hcheck : Yields (lift (requiredText j key.toList refusal) >>= f)
      (requiredText j key.toList refusal >>= g) := (yields_lift _).bind hf
  unfold showText
  cases hm : member j key.toList with
  | none => exact hcheck.after_record _
  | some v =>
    dsimp only
    cases hv : getString v with
    | ok s => exact hcheck.after_record _
    | error e =>
      have hp : requiredText j key.toList refusal = .error e := by
        simp only [requiredText, hm, hv]
      rw [hp]
      exact fun _ => ⟨rfl, rfl⟩

theorem readRegister_yields (j : Json) :
    Yields (readRegister j : Act σ RegisterSerializer) (RegisterSerializer.from_json j) := by
  unfold readRegister RegisterSerializer.from_json
  exact .after_record _ (yields_required fun username => yields_required fun email =>
    .after_record _ ((yields_lift _).bind fun password => yields_pure _))

theorem yields_checked {j : Json} (email : Str) (w : LogRecord) (f : Str → β) :
    Yields (if !validEmail email then fail (.validation "Email is invalid".toList)
      else (do
        record w
        let password ← lift (requiredPassword j)
        return f password : Act σ β))
      (if !validEmail email then .error (.validation "Email is invalid".toList)
        else do
          let password ← requiredPassword j
          return f password) := by
  split
  · exact yields_fail _
  · exact .after_record _ ((yields_lift _).bind fun password => yields_pure _)

theorem readLogin_yields (j : Json) :
    Yields (readLogin j : Act σ LoginSerializer) (LoginSerializer.from_json j) := by
  unfold readLogin LoginSerializer.from_json
  exact .after_record _ (yields_required fun email =>
    yields_checked email _ (LoginSerializer.mk email))

theorem readCreate_yields (j : Json) :
    Yields (readCreate j : Act σ UserCreateSerializer) (UserCreateSerializer.from_json j) := by
  unfold readCreate UserCreateSerializer.from_json
  exact .after_record _ (yields_required fun username => yields_required fun email =>
    yields_checked email _ (UserCreateSerializer.mk username email))

end yields

/-! ### Calls that may throw a `ValidationError` -/

/-- The error is answered with `status`. -/
def answered {α : Type} (request : Request) (status : ℕ) (r : Except Exn α)
    (go : α → Except Exn Outcome) : Except Exn Outcome :=
  match r with
  | .ok a => go a
  | .error (.validation what) => .ok (errorResult request status what)
  | .error e => .error e

section answered
variable {α : Type} {request : Request} {status : ℕ} {r : Except Exn α}
  {go : α → Except Exn Outcome}

theorem sent_answered (hs : MayHaveBody status) (hlt : status < 500) {p : Prop} {q : α → Prop}
    (hp : Soft r ↔ p) (hgo : ∀ a, r = .ok a → Sent (go a) (q a)) :
    Sent (answered request status r go) (p ∧ ∀ a, r = .ok a → q a) := by
  rw [← hp]
  unfold answered
  cases r with
  | ok a =>
    refine (hgo a rfl).congr ⟨fun h => ⟨soft_ok a, ?_⟩, fun h => h.2 a rfl⟩
    rintro _ ⟨⟩
    exact h
  | error e =>
    have hnone : ∀ a, (Except.error e : Except Exn α) = .ok a → q a := by
      intro a h
      cases h
    rw [and_iff_left hnone]
    cases e with
    | validation what => exact .answered hlt hs (soft_validation.trans written_error.symm)
    | std what => exact .failed (not_soft_std what)
    | db code what => exact .failed (by simp [soft_error])
    | other => exact .failed (by simp [soft_error])

/-- A serializer's refusal ends the handler. -/
theorem refused_result {σ : Type} {x : Act σ α} {s : σ} {e : Exn} (hx : Yields x (.error e))
    (warning : String) {next : Except Str α → Act σ Outcome}
    (hnext : ∀ text t, (next (.error text) t).result = .ok (errorResult request status text)) :
    ((tryValidated x warning >>= next) s).result = answered request status (.error e) go := by
  have hrun := hx.run s
  cases e with
  | validation what =>
    rw [bind_ok (tryValidated_validation hrun warning), Ran.after_result, hnext, answered]
    simp only [errorResult, c_str_c_str]
  | db code what =>
    rw [bind_error (tryValidated_error hrun (by simp) warning)]
    rfl
  | std what =>
    rw [bind_error (tryValidated_error hrun (by simp) warning)]
    rfl
  | other =>
    rw [bind_error (tryValidated_error hrun (by simp) warning)]
    rfl

end answered

/-! ### When everything works -/

/-- The parts that the requests rest on do what they promise: nlohmann::json, the server, whose
encoding is UTF-8, the hasher, jwt-cpp, and the paths of the users' pictures. The sequence is
ahead of the ids of the rows, and the rows can be read back. -/
structure Works (app : Application) (s : Accounts app.db) (m : Moment) : Prop where
  json : JsonLibrary app.lib
  server : app.db.toPostgres.Documented
  int4_range : ∀ n : ℤ, 2147483647 < n → app.db.int4_input (to_string n) = none
  encoding : ∀ t : Str, '\x00' ∉ t → (app.db.encoded t = true ↔ Utf8 t)
  hash : ∀ password, ∃ hash, app.hasher.hash m.salt password = .ok hash ∧ Utf8 hash
  sign : ∀ header payload, ∃ token,
    app.jwt.sign header payload app.secret_key = .ok token ∧ Utf8 token
  sequence : s.next_id ≤ 9223372036854775807
  id_free : ¬ s.IdTaken
  readable : ∀ u ∈ s.users, Readable app.db.toPostgres u
  pictures : ∀ u ∈ s.users, ∀ p ∈ u.row.picture, Storable app.db.toPostgres p
  media_path : Utf8 app.media_path
  directories : ∀ id : ℤ, ensureWithinRoot app.os app.rootPath
    (append app.rootPath (pictureDir id)) = .ok ()
  files : ∀ (id : ℤ) (rng : ℕ → ℕ) (original : Str), ensureWithinRoot app.os app.rootPath
    (append (append app.rootPath (pictureDir id)) (storedName app.opts rng original)) = .ok ()

section works
variable {app : Application} {s : Accounts app.db} {m : Moment}

theorem Utf8.c_str {t : Str} (h : Utf8 t) : Utf8 (StdString.c_str t) :=
  h.takeWhile_ne (by decide)

theorem Works.storable (hw : Works app s m) {t : Str} (h : Utf8 t) :
    Storable app.db.toPostgres (c_str t) :=
  ⟨not_mem_c_str t, (hw.encoding _ (not_mem_c_str t)).mpr (Utf8.c_str h)⟩

theorem Works.utf8 (hw : Works app s m) {t : Str} (h : Storable app.db.toPostgres t) : Utf8 t :=
  (hw.encoding t h.1).mp h.2

theorem Works.written (hw : Works app s m) {request : Request} {j : Json}
    (hj : request.json app.lib = .ok j) : Written j := by
  unfold Request.json at hj
  cases hparse : app.lib.parse_json request.body with
  | error e =>
    rw [hparse] at hj
    cases hj
  | ok v =>
    rw [hparse] at hj
    cases hj
    exact hw.json.parse _ _ hparse

theorem utf8_of_hasText {j : Json} {key t : Str} (hj : Written j) (h : HasText j key t) : Utf8 t :=
  written_str.mp (written_member hj h.1)

theorem Works.new_encoded (hw : Works app s m) {username email hash : Str} (hu : Utf8 username)
    (he : Utf8 email) (hh : Utf8 hash) :
    (newUser (newEntity username email hash)).Encoded app.db := by
  intro value hvalue text htext
  simp only [newUser, newEntity, Option.map_some, List.mem_cons, List.not_mem_nil, or_false]
    at hvalue
  rcases hvalue with rfl | rfl | rfl
  · cases htext
    exact hw.storable hu
  · cases htext
    exact hw.storable he
  · cases htext
    exact hw.storable hh

/-- The address fits into an index. -/
def Indexed (db : AccountServer) (email : Str) : Prop := db.index_holds (c_str email) = true

instance (db : AccountServer) (email : Str) : Decidable (Indexed db email) :=
  inferInstanceAs (Decidable (_ = true))

/-- The answer to an `INSERT` that can be read. -/
theorem insert_result {db : AccountServer} {s : Accounts db} {n : NewUser}
    (henc : n.Encoded db) (hseq : s.next_id ≤ 9223372036854775807) (now : ℤ) :
    (s.insert n now).2 =
      match s.violation n with
      | some state => .error (.db (map_sqlstate state) db.complaint)
      | none => .ok s.nextId := by
  unfold Accounts.insert
  rw [dif_pos henc, if_neg (Nat.not_lt.mpr hseq)]
  split
  · rename_i state hstate
    rw [hstate]
  · rename_i hnone
    change Except.ok s.nextId = _
    rw [hnone]

/-- Only the two indexes may refuse a new row. -/
theorem Works.violation (hw : Works app s m) (username email hash : Str) :
    s.violation (newUser (newEntity username email hash)) =
      if ¬ Indexed app.db email then some "54000".toList
      else if s.EmailTaken (c_str email) then some "23505".toList else none := by
  have hany : (some (c_str email)).any (fun e => !app.db.index_holds e) = true ↔
      ¬ Indexed app.db email := by
    simp [Indexed]
  have htaken : (∃ e ∈ some (c_str email), s.EmailTaken e) ↔ s.EmailTaken (c_str email) := by
    simp
  unfold Accounts.violation
  simp only [newUser, newEntity, Option.map_some, reduceCtorEq, if_false, if_neg hw.id_free, hany,
    htaken]

/-- How a new account ends. -/
theorem Works.addAccount (hw : Works app s m) {username email : Str} (password : Str)
    (hu : Utf8 username) (he : Utf8 email) :
    (Indexed app.db email ∧ ¬ s.EmailTaken (c_str email) ∧
      ∃ id, (AccountServices.addAccount app s username email password m).2 = .ok id) ∨
    (Indexed app.db email ∧ s.EmailTaken (c_str email) ∧
      (AccountServices.addAccount app s username email password m).2 =
        .error (.db .UniqueViolation app.db.complaint)) ∨
    (¬ Indexed app.db email ∧ (AccountServices.addAccount app s username email password m).2 =
      .error (.db .Unknown app.db.complaint)) := by
  obtain ⟨hash, hhash, hutf8⟩ := hw.hash password
  have hresult := insert_result (hw.new_encoded hu he hutf8) hw.sequence m.now
  rw [hw.violation] at hresult
  unfold AccountServices.addAccount
  rw [hhash]
  dsimp only
  generalize s.insert (newUser (newEntity username email hash)) m.now = inserted at hresult ⊢
  obtain ⟨t, result⟩ := inserted
  by_cases hindexed : Indexed app.db email
  · rw [if_neg (not_not.mpr hindexed)] at hresult
    by_cases htaken : s.EmailTaken (c_str email)
    · rw [if_pos htaken] at hresult
      obtain rfl : result = _ := hresult
      exact .inr (.inl ⟨hindexed, htaken, rfl⟩)
    · rw [if_neg htaken] at hresult
      obtain rfl : result = _ := hresult
      exact .inl ⟨hindexed, htaken, _, rfl⟩
  · rw [if_pos hindexed] at hresult
    obtain rfl : result = _ := hresult
    exact .inr (.inr ⟨hindexed, rfl⟩)

end works

/-! ### What the handlers give -/

section handlers
variable {app : Application} {request : Request} {m : Moment} {s : Accounts app.db} {j : Json}

theorem registration_result (hj : request.json app.lib = .ok j) :
    (AuthenticationController.registration app request m s).result =
      answered request 422 (RegisterSerializer.from_json j) fun data =>
        controllerResult request 422 registerFailure (fun _ => .null)
          (addAccount app s data.username data.email data.password m).2 := by
  cases hd : RegisterSerializer.from_json j with
  | ok data =>
    rw [registration_run hj hd s m]
    rfl
  | error e =>
    unfold AuthenticationController.registration
    rw [record_bind, hj, lift_ok_bind, record_bind, Ran.after_result, Ran.after_result]
    exact refused_result (hd ▸ readRegister_yields j) _ fun _ _ => rfl

theorem store_result (hj : request.json app.lib = .ok j) :
    (AccountServices.UsersController.store app request m s).result =
      answered request 422 (UserCreateSerializer.from_json j) fun data =>
        controllerResult request 409 createFailure (createdBodyOf data)
          (addAccount app s data.username data.email data.password m).2 := by
  cases hd : UserCreateSerializer.from_json j with
  | ok data =>
    rw [store_run hj hd s m]
    rfl
  | error e =>
    unfold AccountServices.UsersController.store
    rw [record_bind, hj, lift_ok_bind, record_bind, Ran.after_result, Ran.after_result]
    exact refused_result (hd ▸ readCreate_yields j) _ fun _ _ => rfl

/-- The body is one that `POST /register` can answer. -/
def Registrable (s : Accounts app.db) (j : Json) : Prop :=
  Named j ∧ ∀ data, RegisterSerializer.from_json j = .ok data →
    Indexed app.db data.email ∧ ¬ s.EmailTaken (c_str data.email)

/-- The body is one that `POST /users` can answer. -/
def Creatable (db : AccountServer) (j : Json) : Prop :=
  Named j ∧ ∀ data, UserCreateSerializer.from_json j = .ok data → Indexed db data.email

/-- The body is one that `POST /login` can answer. -/
def LoginReadable (j : Json) : Prop := TextOrAbsent j "email".toList

theorem written_created {data : UserCreateSerializer} (hu : Utf8 data.username)
    (he : Utf8 data.email) (id : ℤ) : Written (createdBodyOf data id) := by
  have hkeys : Utf8 "email".toList ∧ Utf8 "id".toList ∧ Utf8 "username".toList :=
    ⟨utf8_literal (by decide), utf8_literal (by decide), utf8_literal (by decide)⟩
  unfold createdBodyOf
  rw [written_members, List.forall_mem_cons, List.forall_mem_cons, List.forall_mem_singleton,
    written_str, written_str]
  exact ⟨⟨hkeys.1, he⟩, ⟨hkeys.2.1, written_int id⟩, hkeys.2.2, hu⟩

theorem registration_sent (hw : Works app s m) (hj : request.json app.lib = .ok j) :
    Sent (AuthenticationController.registration app request m s).result (Registrable s j) := by
  have hwritten := hw.written hj
  rw [registration_result hj]
  refine sent_answered (by decide) (by decide) soft_register fun data hd => ?_
  obtain ⟨hu, he, _⟩ := register_ok.mp hd
  rcases hw.addAccount data.password (utf8_of_hasText hwritten hu) (utf8_of_hasText hwritten he)
    with ⟨hindexed, hfree, id, h⟩ | ⟨_, htaken, h⟩ | ⟨hindexed, h⟩
  · rw [h]
    exact .json (by decide) (by decide) ⟨fun _ => written_null, fun _ => ⟨hindexed, hfree⟩⟩
  · rw [h]
    exact .failed fun h => h.2 htaken
  · rw [h]
    exact .failed fun h => hindexed h.1

theorem store_sent (hw : Works app s m) (hj : request.json app.lib = .ok j) :
    Sent (AccountServices.UsersController.store app request m s).result
      (Creatable app.db j) := by
  have hwritten := hw.written hj
  rw [store_result hj]
  refine sent_answered (by decide) (by decide) soft_create fun data hd => ?_
  obtain ⟨hu, he, _⟩ := create_ok.mp hd
  have hu8 := utf8_of_hasText hwritten hu
  have he8 := utf8_of_hasText hwritten he
  rcases hw.addAccount data.password hu8 he8 with
    ⟨hindexed, _, id, h⟩ | ⟨hindexed, _, h⟩ | ⟨hindexed, h⟩
  · rw [h]
    exact .json (by decide) (by decide)
      ⟨fun _ => written_created hu8 he8 id, fun _ => hindexed⟩
  · rw [h]
    exact .json (by decide) (by decide)
      ⟨fun _ => written_error.mpr (utf8_literal (by decide)), fun _ => hindexed⟩
  · rw [h]
    exact .failed hindexed

/-! ### Logging in -/

/-- The texts of both statements of a login can be bound. -/
theorem Works.bindable (hw : Works app s m) {email : Str} (he : Utf8 email) :
    AccountStore.bindable app.db (existsStatement (loginFilter email)).params = true ∧
      AccountStore.bindable app.db (getOneStatement (loginFilter email)).params = true := by
  have hparams : (existsStatement (loginFilter email)).params = [some email] := rfl
  have hparams' : (getOneStatement (loginFilter email)).params =
      [some email, some (to_string 1)] := rfl
  have hemail := (hw.storable he).2
  have hone : app.db.encoded (c_str (to_string 1)) = true := by
    rw [c_str_to_string]
    exact hw.server.ascii _ (to_string_ascii 1)
  rw [hparams, hparams']
  simp [AccountStore.bindable, hemail, hone]

theorem Works.exists_login (hw : Works app s m) {email : Str} (he : Utf8 email) :
    AccountServices.UsersService.exists_ app (loginFilter email) s =
      ⟨[existsRecord (some email)], s,
        .ok (decide (∃ u ∈ s.users, Selected app.db (loginFilter email) u))⟩ := by
  unfold AccountServices.UsersService.exists_ AccountStore.exists_
  rw [record_bind, run_change, if_pos (hw.bindable he).1]
  rfl

/-- The account that was there a moment ago is read back. -/
theorem Works.getOne (hw : Works app s m) {email : Str} (he : Utf8 email)
    (h : ∃ u ∈ s.users, Selected app.db (loginFilter email) u) :
    ∃ user hash, user.password = some hash ∧
      AccountStore.getOne (loginFilter email) s = ⟨[], s, .ok user⟩ := by
  obtain ⟨v, hv, hselected⟩ := h
  have hfind : (s.users.find? fun u => Selected app.db (loginFilter email) u).isSome := by
    rw [List.find?_isSome]
    exact ⟨v, hv, decide_eq_true hselected⟩
  obtain ⟨u, hu⟩ := Option.isSome_iff_exists.mp hfind
  obtain ⟨t, t', hc, hd⟩ := hw.readable u (List.mem_of_find?_eq_some hu)
  have hentity := entityOf_readable hc hd
  refine ⟨{ u.entity with password := some (u.row.password.getD []) }, _, rfl, ?_⟩
  unfold AccountStore.getOne
  rw [run_change, if_pos (hw.bindable he).2]
  have hsame : ({ loginFilter email with id := none } : UserFilter) = loginFilter email := rfl
  simp only [hsame, hu, hentity]
  rfl

/-- The tokens, or the refusal of a wrong password. -/
theorem Works.tokens (hw : Works app s m) {data : LoginSerializer} (he : Utf8 data.email)
    (h : ∃ u ∈ s.users, Selected app.db (loginFilter data.email) u) :
    Sent (loginTokens app request (grantTokens app data m) s).result True := by
  obtain ⟨user, hash, hpassword, hone⟩ := hw.getOne he h
  have hstored : storedPassword user = .ok hash := by
    rw [storedPassword, hpassword]
  obtain ⟨token, hsign, htoken⟩ := hw.sign JwtService.header
    (JwtService.payload user m.issued m.expiry)
  have hencode : JwtService.encode app.jwt app.secret_key user m.issued m.expiry = .ok token :=
    hsign
  have hgrant : grantTokens app data m s =
      Ran.after (if !(app.hasher.verify data.password hash).1 then
        ⟨[], s, .error (.validation "Incorrect credentials".toList)⟩
      else ⟨[], s, .ok (.obj [("accessToken".toList, .str token),
        ("refreshToken".toList, .str "None".toList)])⟩)
        [debug "AuthenticationService::obtainTokens: checking password"] := by
    unfold grantTokens
    rw [bind_ok hone, record_bind, hstored, lift_ok_bind]
    split
    · rfl
    · rw [hencode]
      rfl
  unfold loginTokens
  split at hgrant
  · rw [Ran.after_mk] at hgrant
    rw [bind_ok (tryValidatedAs_validation _ hgrant _)]
    exact .json (by decide) (by decide) (iff_of_true trivial
      (written_error.mpr (utf8_literal (by decide))))
  · rw [Ran.after_mk] at hgrant
    rw [bind_ok (tryValidatedAs_ok _ hgrant _)]
    refine .json (by decide) (by decide) (iff_of_true trivial ?_)
    have hkeys : Utf8 "accessToken".toList ∧ Utf8 "refreshToken".toList ∧ Utf8 "None".toList :=
      ⟨utf8_literal (by decide), utf8_literal (by decide), utf8_literal (by decide)⟩
    rw [written_members, List.forall_mem_cons, List.forall_mem_singleton, written_str, written_str]
    exact ⟨⟨hkeys.1, htoken⟩, hkeys.2⟩

theorem login_result (hw : Works app s m) (hj : request.json app.lib = .ok j) :
    (AuthenticationController.login app request m s).result =
      answered request 422 (LoginSerializer.from_json j) fun data =>
        if ∃ u ∈ s.users, Selected app.db (loginFilter data.email) u then
          (loginTokens app request (grantTokens app data m) s).result
        else .ok (errorResult request 422 "Incorrect login or password".toList) := by
  cases hd : LoginSerializer.from_json j with
  | error e =>
    unfold AuthenticationController.login
    rw [record_bind, hj, lift_ok_bind, record_bind, Ran.after_result, Ran.after_result]
    exact refused_result (hd ▸ readLogin_yields j) _ fun _ _ => rfl
  | ok data =>
    have he := utf8_of_hasText (hw.written hj) (login_ok.mp hd).1
    rw [answered]
    by_cases h : ∃ u ∈ s.users, Selected app.db (loginFilter data.email) u
    · rw [login_known hj hd ⟨(hw.bindable he).1, h⟩, if_pos h]
      rfl
    · have hmissing := hw.exists_login he
      rw [decide_eq_false h] at hmissing
      unfold AuthenticationController.login
      rw [record_bind, hj, lift_ok_bind, record_bind,
        bind_ok (tryValidated_ok (readLogin_ok hd s) _), record_bind, if_neg h]
      dsimp only
      rw [bind_ok (tryValidated_ok hmissing _)]
      rfl

theorem login_sent (hw : Works app s m) (hj : request.json app.lib = .ok j) :
    Sent (AuthenticationController.login app request m s).result (LoginReadable j) := by
  have hgo : ∀ data, LoginSerializer.from_json j = .ok data →
      Sent (if ∃ u ∈ s.users, Selected app.db (loginFilter data.email) u then
          (loginTokens app request (grantTokens app data m) s).result
        else .ok (errorResult request 422 "Incorrect login or password".toList)) True := by
    intro data hd
    have he := utf8_of_hasText (hw.written hj) (login_ok.mp hd).1
    split
    · rename_i h
      exact hw.tokens he h
    · exact .json (by decide) (by decide)
        (iff_of_true trivial (written_error.mpr (utf8_literal (by decide))))
  rw [login_result hw hj]
  exact (sent_answered (by decide) (by decide) soft_login hgo).congr
    (and_iff_left fun _ _ => trivial)

end handlers

end AdequateApi.AccountAnswers
