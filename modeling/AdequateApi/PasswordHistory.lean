import AdequateApi.LoginTokens

/-! Which password opens an account: the one that was set last. -/
namespace AdequateApi.PasswordHistory
open StdString FileTree DbConnection HttpMessages UsersRepository UsersListing FileSystemService
  AdequateApi.UsersService AdequateApi.UsersController AccountSerializers AccountStore
  AccountServices AccountCreation LoggedAction Action UserUpdateAnswers AccountStatements
  AccountCalls PasswordTwins LoginTokens

variable {app : Application}

/-! ### What a call says of a password -/

/-- The password in the body of the request. -/
def passwordOf (app : Application) : Call → Option Str
  | .registration request _ => do
      let j ← (request.json app.lib).toOption
      let data ← (RegisterSerializer.from_json j).toOption
      some data.password
  | .store request _ => do
      let j ← (request.json app.lib).toOption
      let data ← (UserCreateSerializer.from_json j).toOption
      some data.password
  | .update request _ _ _ => requestPassword app.toServices request
  | _ => none

/-- The account whose password the statement sets, if the table takes it. -/
def accountOf {db : AccountServer} (s : Accounts db) (w : Write) : Option ℤ :=
  match w with
  | .insert _ _ => (w.returned s).map Int64.toInt
  | .update user now =>
      if (AccountStatements.update s user now).2.executed.isSome ∧ (given user.password).isSome then
        some user.id
      else none
  | .delete _ => none

/-- The account that the call gives a password, and the password. -/
def setBy (app : Application) (s : Accounts app.db) (call : Call) : Option (ℤ × Str) := do
  let w ← call.write app
  let id ← accountOf s w
  let password ← passwordOf app call
  some (id, password)

def note (known : ℤ → Option Str) (set : Option (ℤ × Str)) : ℤ → Option Str :=
  set.elim known fun e => Function.update known e.1 (some e.2)

/-- What is known of the passwords after the calls, from the requests alone. -/
def remembered (app : Application) :
    Accounts app.db → (ℤ → Option Str) → List Call → ℤ → Option Str
  | _, known, [] => known
  | s, known, call :: calls =>
      remembered app (call.exec app s) (note known (setBy app s call)) calls

/-- The password of each account that was set last. -/
def lastPassword (app : Application) (calls : List Call) : ℤ → Option Str :=
  remembered app (migrated app.db) (fun _ => none) calls

/-! ### What a call sends -/

theorem toOption_some {ε α : Type} {r : Except ε α} {a : α} :
    r.toOption = some a ↔ r = .ok a := by
  cases r <;> simp [Except.toOption]

/-- What is sent of a PATCH went through all its checks. -/
theorem sentEntity_some {srv : Services} {disk : Disk} {request : Request} {a : UpdateAnswers}
    {user : UserEntity} (h : sentEntity srv disk request a = some user) :
    ∃ id body picture data hashed, pathId request = .ok id ∧
      readBody srv request = .ok (body, picture) ∧ from_json srv.lib body = .ok data ∧
      hashPassword { data with id := id }.toEntity a.hash = .ok hashed ∧
      (replacePicture srv disk hashed picture a).2 = .ok user := by
  unfold sentEntity at h
  simp only [Option.bind_eq_bind, Option.bind_eq_some_iff, toOption_some] at h
  obtain ⟨id, hid, ⟨body, picture⟩, hbody, data, hdata, hashed, hhashed, hreplaced⟩ := h
  exact ⟨id, body, picture, data, hashed, hid, hbody, hdata, hhashed, hreplaced⟩

theorem replacePicture_password {srv : Services} {disk : Disk} {user user' : UserEntity}
    {picture : IncomingFile} {a : UpdateAnswers}
    (h : (replacePicture srv disk user picture a).2 = .ok user') :
    user'.password = user.password := by
  unfold replacePicture at h
  split at h
  · split at h
    · cases h
    · split at h
      · cases h
      · cases h
        rfl
  · cases h
    rfl

/-- An entity has a password after hashing only if it had one, and then it is the hash. -/
theorem hashPassword_some {user user' : UserEntity} {hash : Except Str Str} {password : Str}
    (h : hashPassword user hash = .ok user') (hp : user'.password = some password) :
    user.password.isSome ∧ hash = .ok password := by
  unfold hashPassword at h
  split at h
  · rename_i hnone
    cases h
    rw [hnone] at hp
    cases hp
  · cases h
  · rename_i hsome
    cases h
    cases hp
    exact ⟨Option.isSome_of_eq_some hsome, rfl⟩

/-- The hasher made the value of the column from this password. -/
def HashOf (app : Application) (password hash : Str) : Prop :=
  ∃ salt, app.hasher.hash salt password = .ok hash

/-- The statement puts hashes of the password into the column, or leaves it. -/
def Hashes (app : Application) (password : Option Str) : Write → Prop
  | .insert n _ => ∃ p hash, password = some p ∧ HashOf app p hash ∧ n.password = some (c_str hash)
  | .update user _ => ∀ stored ∈ given user.password, ∃ p, password = some p ∧ HashOf app p stored
  | .delete _ => True

theorem accountWrite_hashes {username email password : Str} {m : Moment} {w : Write}
    (h : accountWrite app username email password m = some w) :
    Hashes app (some password) w := by
  obtain ⟨hash, hh, rfl⟩ := Option.map_eq_some_iff.mp h
  exact ⟨password, hash, rfl, ⟨m.salt, toOption_some.mp hh⟩, rfl⟩

theorem write_hashes {call : Call} {w : Write} (h : call.write app = some w) :
    Hashes app (passwordOf app call) w := by
  cases call with
  | registration request m =>
    simp only [Call.write, registrationWrite, Option.bind_eq_bind, Option.bind_eq_some_iff] at h
    obtain ⟨j, hj, data, hd, h⟩ := h
    simp only [passwordOf, hj, hd, Option.bind_eq_bind, Option.bind_some]
    exact accountWrite_hashes h
  | login request m => cases h
  | authenticate request m => cases h
  | store request m =>
    simp only [Call.write, storeWrite, Option.bind_eq_bind, Option.bind_eq_some_iff] at h
    obtain ⟨j, hj, data, hd, h⟩ := h
    simp only [passwordOf, hj, hd, Option.bind_eq_bind, Option.bind_some]
    exact accountWrite_hashes h
  | update request m disk a =>
    simp only [Call.write, updateWrite, Option.bind_eq_bind, Option.bind_eq_some_iff,
      Option.ite_none_left_eq_some] at h
    obtain ⟨user, hsent, now, _, _, h⟩ := h
    cases h
    obtain ⟨_, body, picture, data, hashed, _, hbody, hdata, hhash, hreplaced⟩ :=
      sentEntity_some hsent
    intro stored hstored
    have hpassword := (Option.mem_filter_iff.mp hstored).1
    rw [replacePicture_password hreplaced] at hpassword
    obtain ⟨hsome, hmade⟩ := hashPassword_some hhash hpassword
    obtain ⟨p, hp⟩ := Option.isSome_iff_exists.mp hsome
    have hrequest : requestPassword app.toServices request = some p := by
      simp only [requestPassword, hbody, Option.bind_eq_bind, Except.toOption, Option.bind_some,
        show from_json app.toServices.lib body = _ from hdata]
      exact hp
    refine ⟨p, hrequest, m.salt, ?_⟩
    rw [← hmade, hashing, hrequest]
    rfl
  | remove request disk b =>
    simp only [Call.write, removeWrite, Option.bind_eq_bind, Option.bind_eq_some_iff] at h
    obtain ⟨_, _, _, _, _, _, h⟩ := h
    cases h
    trivial

/-! ### The column of the password -/

/-- Each row has a hash of the password that is known of its account. -/
def Remembers (app : Application) (s : Accounts app.db) (known : ℤ → Option Str) : Prop :=
  ∀ id row, rows s id = some row →
    ∃ p hash, known id = some p ∧ HashOf app p hash ∧ row.password = some (c_str hash)

section step
variable {s : Accounts app.db} {known : ℤ → Option Str}

theorem update_password (row : Row) (user : UserEntity) (now : ℤ) :
    (row.update (assigned user) now).password =
      ((given user.password).map c_str).or row.password := by
  rw [assigned, Row.update_sets]

theorem Remembers.insert (h : Remembers app s known) {n : NewUser} {now : ℤ} {p hash : Str}
    (hmade : HashOf app p hash) (hn : n.password = some (c_str hash)) :
    Remembers app (Write.apply s (.insert n now))
      (note known ((accountOf s (.insert n now)).bind fun id => some (id, p))) := by
  simp only [Write.apply, accountOf, Write.returned]
  rcases insert_cases s n now with ⟨_, e, he⟩ | ⟨_, _, _, e, he⟩ | ⟨_, _, _, he⟩
  · rw [he]
    exact h
  · rw [he]
    exact h
  · rw [he]
    intro id row hrow
    rw [rows_append] at hrow
    change ∃ p' hash', Function.update known s.nextId.toInt (some p) id = some p' ∧ _
    by_cases hid : id = s.nextId.toInt
    · subst hid
      rw [Function.update_self] at hrow ⊢
      cases hrow
      exact ⟨p, hash, rfl, hmade, hn⟩
    · rw [Function.update_of_ne hid] at hrow ⊢
      exact h id row hrow

theorem Remembers.update (h : Remembers app s known) {user : UserEntity} {now : ℤ}
    {password : Option Str} (hmade : Hashes app password (.update user now)) :
    Remembers app (Write.apply s (.update user now))
      (note known ((accountOf s (.update user now)).bind fun id =>
        password.bind fun p => some (id, p))) := by
  have hrows := update_rows s user now
  simp only [Write.apply, accountOf]
  intro id row hrow
  cases hx : (AccountStatements.update s user now).2.executed with
  | none =>
    rw [hx] at hrows
    rw [hrows] at hrow
    exact h id row hrow
  | some now' =>
    rw [hx] at hrows
    dsimp only at hrows
    rw [hrows, Change.apply] at hrow
    by_cases hid : id = user.id
    · subst hid
      rw [Function.update_self] at hrow
      obtain ⟨old, hold, rfl⟩ := Option.map_eq_some_iff.mp hrow
      rw [update_password]
      cases hg : given user.password with
      | none => exact h _ old hold
      | some stored =>
        obtain ⟨p, rfl, hp⟩ := hmade stored hg
        exact ⟨p, stored, Function.update_self _ _ _, hp, rfl⟩
    · rw [Function.update_of_ne hid] at hrow
      obtain ⟨p, hash, hknown, hrest⟩ := h id row hrow
      refine ⟨p, hash, ?_, hrest⟩
      split
      · cases password with
        | none => exact hknown
        | some p' => exact (Function.update_of_ne hid _ _).trans hknown
      · exact hknown

theorem Remembers.delete (h : Remembers app s known) (id : ℤ) :
    Remembers app (Write.apply s (.delete id)) known := by
  intro k row hrow
  rw [Write.apply, rows_delete s id 0, Change.apply] at hrow
  by_cases hk : k = id
  · subst hk
    rw [Function.update_self] at hrow
    cases hrow
  · rw [Function.update_of_ne hk] at hrow
    exact h k row hrow

/-- One call. -/
theorem Remembers.exec (h : Remembers app s known) (call : Call) :
    Remembers app (call.exec app s) (note known (setBy app s call)) := by
  rw [exec_written]
  unfold setBy
  cases hw : call.write app with
  | none => exact h
  | some w =>
    have hmade := write_hashes hw
    simp only [Option.bind_eq_bind, Option.bind_some, written, Option.elim_some]
    cases w with
    | insert n now =>
      obtain ⟨p, hash, hp, hhash, hn⟩ := hmade
      rw [hp]
      exact h.insert hhash hn
    | update user now => exact h.update hmade
    | delete id => exact h.delete id

theorem Remembers.calls (h : Remembers app s known) (calls : List Call) :
    Remembers app (afterCalls app s calls) (remembered app s known calls) := by
  induction calls generalizing s known with
  | nil => exact h
  | cons call calls ih => exact ih (h.exec call)

end step

theorem Remembers.migrated (app : Application) :
    Remembers app (AccountStatements.migrated app.db) fun _ => none :=
  fun id row hrow => absurd (mem_of_rows hrow) (by simp [AccountStatements.migrated])

/-- In every run of calls each row has a hash of the password that was set last. -/
theorem passwords_are_the_last (app : Application) (calls : List Call) :
    Remembers app (afterCalls app (migrated app.db) calls) (lastPassword app calls) :=
  (Remembers.migrated app).calls calls

/-! ### Logging in -/

/-- What a login rests on besides the rows' passwords: the hasher tells its own passwords apart,
`citext` compares by an equivalence, jwt-cpp signs, and the rows can be read. -/
structure Rests (app : Application) (s : Accounts app.db) : Prop where
  verify : ∀ salt password hash candidate, app.hasher.hash salt password = .ok hash →
    ((app.hasher.verify candidate (c_str hash)).1 = true ↔ candidate = password)
  symmetric : Symmetric app.db
  transitive : ∀ e f g, app.db.citext_equal e f = true → app.db.citext_equal f g = true →
    app.db.citext_equal e g = true
  sign : ∀ header payload, ∃ token, app.jwt.sign header payload app.secret_key = .ok token
  readable : ∀ u ∈ s.users, Readable app.db.toPostgres u

section login
variable {s : Accounts app.db}

theorem selected_login {email : Str} {u : StoredUser} :
    Selected app.db (loginFilter email) u ↔
      ∃ e ∈ u.row.email, app.db.citext_equal e (c_str email) = true := by
  simp [Selected, Option.any_eq_true]

/-- No two accounts share an address. -/
theorem selected_unique (h : Rests app s) {email : Str} {u v : StoredUser} (hu : u ∈ s.users)
    (hv : v ∈ s.users) (hsu : Selected app.db (loginFilter email) u)
    (hsv : Selected app.db (loginFilter email) v) : u = v := by
  by_contra hne
  obtain ⟨e, he, hequal⟩ := selected_login.mp hsu
  obtain ⟨f, hf, hequal'⟩ := selected_login.mp hsv
  have hsymm : Std.Symm (Apart app.db) := ⟨fun _ _ ha => Apart.symm h.symmetric ha⟩
  have hpairs : s.users.Pairwise (Apart app.db) := s.unique_email
  have hapart := hpairs.forall hu hv hne e he f hf
  rw [h.transitive e (c_str email) f hequal (h.symmetric f _ ▸ hequal')] at hapart
  cases hapart

theorem found_iff (h : Rests app s) {email : Str} {u : StoredUser} :
    found s email = some u ↔ u ∈ s.users ∧ Selected app.db (loginFilter email) u := by
  constructor
  · intro hfound
    exact ⟨List.mem_of_find?_eq_some hfound, by simpa using List.find?_some hfound⟩
  · rintro ⟨hu, hsu⟩
    have hsome : (found s email).isSome := by
      rw [found, List.find?_isSome]
      exact ⟨u, hu, decide_eq_true hsu⟩
    obtain ⟨v, hfound⟩ := Option.isSome_iff_exists.mp hsome
    have hsv : Selected app.db (loginFilter email) v := by simpa using List.find?_some hfound
    rw [hfound, selected_unique h (List.mem_of_find?_eq_some hfound) hu hsv hsu]

end login

/-- In every run of calls a login gives out a token exactly when the body names the address of an
account and the password that was set for it last. -/
theorem login_takes_last_password (app : Application) (calls : List Call) {request : Request}
    {m : Moment} (h : Rests app (afterCalls app (migrated app.db) calls)) :
    (∃ token, (AuthenticationController.login app request m
        (afterCalls app (migrated app.db) calls)).result =
          .ok (created request (tokensBody token))) ↔
      ∃ j data, request.json app.lib = .ok j ∧ LoginSerializer.from_json j = .ok data ∧
        Sendable app.db data.email ∧ ∃ u ∈ (afterCalls app (migrated app.db) calls).users,
          Selected app.db (loginFilter data.email) u ∧
            lastPassword app calls u.id.toInt = some data.password := by
  have hverified : ∀ {u : StoredUser} {password : Str},
      u ∈ (afterCalls app (migrated app.db) calls).users →
      ((app.hasher.verify password (u.row.password.getD [])).1 = true ↔
        lastPassword app calls u.id.toInt = some password) := by
    intro u password hu
    obtain ⟨p, hash, hknown, ⟨salt, hmade⟩, hstored⟩ :=
      (Remembers.migrated app).calls calls u.id.toInt u.row (rows_of_mem hu)
    rw [← lastPassword] at hknown
    rw [hstored, Option.getD_some, h.verify salt p hash password hmade, hknown, Option.some.injEq,
      eq_comm]
  constructor
  · rintro ⟨token, hlogin⟩
    obtain ⟨j, data, u, hj, hd, hg⟩ := login_granted_iff.mp hlogin
    obtain ⟨hu, hselected⟩ := (found_iff h).mp hg.found
    exact ⟨j, data, hj, hd, hg.sendable, u, hu, hselected, (hverified hu).mp hg.verified⟩
  · rintro ⟨j, data, hj, hd, hsend, u, hu, hselected, hlast⟩
    obtain ⟨token, hsigned⟩ := h.sign JwtService.header
      (JwtService.payload { u.entity with password := some (u.row.password.getD []) } m.issued
        m.expiry)
    exact ⟨token, login_granted_iff.mpr ⟨j, data, u, hj, hd, hsend,
      (found_iff h).mpr ⟨hu, hselected⟩, h.readable u hu, (hverified hu).mpr hlast, hsigned⟩⟩

/-- libsodium as far as two passwords go. -/
def twoPasswords : Hasher where
  hash := fun _ password =>
    if password = "secret".toList then .ok "$1".toList
    else if password = "second".toList then .ok "$2".toList
    else .error "pwhash: out of memory / failed".toList
  verify := fun password hash =>
    (if hash = "$1".toList then decide (password = "secret".toList)
      else if hash = "$2".toList then decide (password = "second".toList) else false, false)

def lockApp : Application :=
  { annApp with
    hasher := twoPasswords
    db := { annApp.db with citext_equal := fun e f => toLower e = toLower f } }

theorem twoPasswords_verify (salt : ℕ) (password hash candidate : Str)
    (h : twoPasswords.hash salt password = .ok hash) :
    (twoPasswords.verify candidate (c_str hash)).1 = true ↔ candidate = password := by
  simp only [twoPasswords] at h
  split at h
  · rename_i hp
    cases h
    have hverify : (twoPasswords.verify candidate (c_str "$1".toList)).1 =
        decide (candidate = "secret".toList) := rfl
    rw [hverify, hp, decide_eq_true_iff]
  · split at h
    · rename_i hp
      cases h
      have hverify : (twoPasswords.verify candidate (c_str "$2".toList)).1 =
          decide (candidate = "second".toList) := rfl
      rw [hverify, hp, decide_eq_true_iff]
    · cases h

theorem lock_rests (s : Accounts lockApp.db) : Rests lockApp s where
  verify := twoPasswords_verify
  symmetric := fun e f => by
    change decide (toLower e = toLower f) = decide (toLower f = toLower e)
    exact decide_eq_decide.mpr eq_comm
  transitive := fun e f g he hf => by
    have he' : toLower e = toLower f := of_decide_eq_true he
    exact decide_eq_true (he'.trans (of_decide_eq_true hf))
  sign := fun _ _ => ⟨_, rfl⟩
  readable := fun _ _ => by
    have hparse : ∃ t, DatetimeConverter.parse_pg_timestamp "2000-01-01 00:00:00+00".toList =
        .ok t := ⟨_, rfl⟩
    obtain ⟨t, ht⟩ := hparse
    exact ⟨t, t, ht, ht⟩

/-- Ann registers, and logs in with the same body. -/
theorem login_takes_last_password_ann :
    ∃ token, (AuthenticationController.login lockApp (annRequest "/login") firstMoment
      (afterCalls lockApp (migrated lockApp.db)
        [.registration (annRequest "/register") firstMoment])).result =
          .ok (created (annRequest "/login") (tokensBody token)) := by
  refine (login_takes_last_password lockApp [.registration (annRequest "/register") firstMoment]
    (lock_rests _)).mpr ⟨annBody, _, rfl, annBody_logs_in, by decide +kernel, ?_⟩
  refine ⟨⟨1, "ann".toList, none, some "ann@x.org".toList, some "$1".toList, 100, 100⟩, ?_, ?_, ?_⟩
  · decide +kernel
  · decide +kernel
  · decide +kernel

end AdequateApi.PasswordHistory
