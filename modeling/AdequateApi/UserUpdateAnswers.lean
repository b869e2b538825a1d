import AdequateApi.FileStoreConfinement
import AdequateApi.UserPathId
import AdequateApi.UsersIndex

/-! With which status a user's update and removal are answered while the parts that they rest on
work. -/
namespace AdequateApi.UserUpdateAnswers
open StdString MultipartForm FileTree DbConnection HttpMessages SqlBuilder UsersRepository
  UsersListing FileSystemService AdequateApi.UsersService AdequateApi.UsersController
  AccountSerializers AccountStore AccountServices RequestLog Utf8Text JsonText AnswerStatus
  AccountAnswers UsersIndex

/-! ### The serializer -/

theorem soft_presentText {j : Json} {key message : Str} (hm : Utf8 (c_str message)) :
    Soft (presentText j key message) ↔ TextOrAbsent j key := by
  unfold presentText TextOrAbsent
  cases member j key with
  | none => simp [soft_ok]
  | some v =>
    dsimp only
    have hv := @soft_getString v
    cases hg : getString v with
    | error e =>
      rw [hg] at hv
      simp only [Option.some.injEq, forall_eq', ← hv, soft_error]
    | ok s =>
      obtain rfl := getString_ok.mp hg
      dsimp only
      refine ⟨?_, fun _ => ?_⟩
      · rintro _ _ ⟨⟩
        exact ⟨s, rfl⟩
      · split
        · exact soft_validation.mpr hm
        · exact soft_ok _

/-- Only the empty text is refused. -/
theorem presentText_exists {j : Json} {key message : Str} (h : TextOrAbsent j key) :
    (∃ v, presentText j key message = .ok v) ↔ member j key ≠ some (.str []) := by
  unfold presentText
  cases hm : member j key with
  | none => simp
  | some v =>
    obtain ⟨s, rfl⟩ := h v hm
    by_cases hs : s = [] <;> simp [getString, hs]

theorem soft_presentPassword (j : Json) : Soft (presentPassword j) := by
  have hm : Utf8 (c_str "Password must be at least 6 characters".toList) :=
    utf8_literal (by decide)
  unfold presentPassword
  split
  · exact soft_ok _
  · split
    · exact soft_validation.mpr hm
    · exact soft_ok _
  · exact soft_validation.mpr hm

/-- The members that an update shows before it checks them are texts that can be written. -/
def Patchable (j : Json) : Prop :=
  Written j ∧ TextOrAbsent j "username".toList ∧
    (member j "username".toList ≠ some (.str []) → TextOrAbsent j "email".toList)

theorem soft_dump {lib : Library} (hlib : JsonLibrary lib) (j : Json) :
    Soft ((lib.dump j (-1)).mapError Exn.std) ↔ Written j := by
  rw [← hlib.dump j (-1)]
  cases lib.dump j (-1) with
  | ok text => exact iff_of_true (soft_ok _) ⟨text, rfl⟩
  | error e =>
    refine iff_of_false (not_soft_std e) ?_
    rintro ⟨_, h⟩
    cases h

theorem soft_update {lib : Library} (hlib : JsonLibrary lib) {j : Json} :
    Soft (from_json lib j) ↔ Patchable j := by
  have hrest : ∀ username email, Soft (if Option.any (fun e => !validEmail e) email then
      .error (.validation "Email is invalid".toList)
    else do
      let password ← presentPassword j
      .ok (⟨0, username, from_json.picture j, email, password⟩ : UserUpdateSerializer)) := by
    intro username email
    split
    · exact soft_validation.mpr (utf8_literal (by decide))
    · exact soft_bind.mpr ⟨soft_presentPassword j, fun _ _ => soft_ok _⟩
  have hemail : ∀ username, Soft (do
      let email ← presentText j "email".toList "Email cannot be empty".toList
      if email.any fun e => !validEmail e then .error (.validation "Email is invalid".toList)
      else
        let password ← presentPassword j
        .ok (⟨0, username, from_json.picture j, email, password⟩ : UserUpdateSerializer)) ↔
      TextOrAbsent j "email".toList := by
    intro username
    rw [soft_bind, soft_presentText (utf8_literal (by decide))]
    exact and_iff_left fun email _ => hrest username email
  rw [from_json_eq, soft_bind, soft_dump hlib]
  unfold Patchable
  refine and_congr_right fun hwritten => ?_
  obtain ⟨text, htext⟩ := (hlib.dump j (-1)).mpr hwritten
  rw [htext]
  simp only [Except.mapError, Except.ok.injEq, forall_eq']
  rw [soft_bind, soft_presentText (utf8_literal (by decide))]
  refine and_congr_right fun hname => ?_
  rw [← presentText_exists hname, exists_imp]
  exact forall_congr' fun username => imp_congr Iff.rfl (hemail username)

/-- A value that was read is the text of its member, and not empty. -/
def Read (j : Json) (key : Str) (value : Option Str) : Prop :=
  ∀ t ∈ value, t ≠ [] ∧ member j key = some (.str t)

theorem presentText_read {j : Json} {key message : Str} {value : Option Str}
    (h : presentText j key message = .ok value) : Read j key value := by
  obtain ⟨hm, hne⟩ := presentText_accepts.mp h
  rintro t ⟨⟩
  exact ⟨hne t rfl, hm⟩

theorem picture_read (j : Json) : Read j "picture".toList (from_json.picture j) := by
  intro t ht
  unfold from_json.picture at ht
  split at ht
  · rename_i pic hm
    split at ht
    · cases ht
    · rename_i hne
      cases ht
      exact ⟨hne, hm⟩
  · cases ht

theorem from_json_read {lib : Library} {j : Json} {data : UserUpdateSerializer}
    (h : from_json lib j = .ok data) :
    Read j "username".toList data.username ∧ Read j "email".toList data.email ∧
      Read j "picture".toList data.picture := by
  rw [from_json_eq] at h
  simp only [AccountSerializers.bind_ok] at h
  obtain ⟨_, _, username, husername, email, hemail, h⟩ := h
  split at h
  · cases h
  · obtain ⟨password, _, h⟩ := AccountSerializers.bind_ok.mp h
    cases h
    exact ⟨presentText_read husername, presentText_read hemail, picture_read j⟩

/-! ### The entity of an update -/

/-- The values of the request, with a hash for the password and perhaps the name of a stored
file for the picture. -/
structure Submitted (data : UserUpdateSerializer) (id : ℤ) (user : UserEntity) : Prop where
  id_eq : user.id = id
  username_eq : user.username = data.username
  email_eq : user.email = data.email
  password_some : user.password.isSome = data.password.isSome
  picture_some : user.picture.isSome = data.picture.isSome
  texts : ∀ value ∈ [user.email, user.username, user.password, user.picture],
    ∀ t ∈ value, t ≠ [] ∧ Utf8 t

/-- Something of the user is to change. -/
def Changes (data : UserUpdateSerializer) : Prop :=
  data.email.isSome ∨ data.username.isSome ∨ data.password.isSome ∨ data.picture.isSome

theorem given_eq {value : Option Str} (h : ∀ t ∈ value, t ≠ []) : given value = value := by
  unfold given
  cases value with
  | none => rfl
  | some t => simp [Option.filter, h t rfl]

section submitted
variable {data : UserUpdateSerializer} {id : ℤ} {user : UserEntity}

theorem Submitted.given_eq (h : Submitted data id user) (value : Option Str)
    (hv : value ∈ [user.email, user.username, user.password, user.picture]) :
    given value = value :=
  UserUpdateAnswers.given_eq fun t ht => (h.texts value hv t ht).1

theorem Submitted.sets_ne_nil (h : Submitted data id user) : sets user ≠ [] ↔ Changes data := by
  unfold sets Changes
  rw [← h.email_eq, ← h.username_eq, ← h.password_some, ← h.picture_some]
  simp only [List.filterMap_cons, List.filterMap_nil, h.given_eq user.email (by simp),
    h.given_eq user.username (by simp), h.given_eq user.password (by simp),
    h.given_eq user.picture (by simp)]
  cases user.email <;> cases user.username <;> cases user.password <;> cases user.picture <;> simp

theorem Submitted.sets_utf8 (h : Submitted data id user) : ∀ e ∈ sets user, Utf8 e.2 := by
  intro e he
  unfold sets at he
  obtain ⟨entry, hentry, hsome⟩ := List.mem_filterMap.mp he
  obtain ⟨value, hvalue, rfl⟩ := Option.map_eq_some_iff.mp hsome
  have hmem : entry.2 ∈ [user.email, user.username, user.password, user.picture] :=
    List.mem_map_of_mem (f := Prod.snd) hentry
  exact (h.texts _ hmem value (Option.mem_filter_iff.mp hvalue).1).2

end submitted

/-! ### The statement -/

section statement
variable {db : AccountServer}

/-- The rows by their ids. -/
def rows (s : Accounts db) : Table := fun id =>
  (s.users.find? fun u => u.id.toInt = id).map StoredUser.row

/-- Another row has the address. -/
def EmailTakenBeside (s : Accounts db) (id : ℤ) (email : Str) : Prop :=
  ∃ u ∈ s.users, u.id.toInt ≠ id ∧ u.row.email.any (fun e => db.citext_equal e email) = true

instance (s : Accounts db) (id : ℤ) (email : Str) : Decidable (EmailTakenBeside s id email) :=
  inferInstanceAs (Decidable (∃ u ∈ _, _))

/-- The SQLSTATE with which the new values of a row are refused, as `Accounts.violation` gives
it for a new row. Without the row nothing is refused. -/
def updateViolation (s : Accounts db) (user : UserEntity) : Option Str :=
  if rows s user.id = none then none
  else if (given user.email).any fun email => !db.index_holds (c_str email) then
    some "54000".toList
  else if ∃ email ∈ given user.email, EmailTakenBeside s user.id (c_str email) then
    some "23505".toList
  else none

instance (s : Accounts db) (user : UserEntity) :
    Decidable (∃ email ∈ given user.email, EmailTakenBeside s user.id (c_str email)) :=
  Option.decidableExistsMem _

/-- What the pool hands back for the `UPDATE` of this entity. -/
def updateAnswer (s : Accounts db) (user : UserEntity) (now : ℤ) : QueryAnswer :=
  let refused := fun state => QueryAnswer.failed (.db (map_sqlstate state) db.complaint) none
  if (sets user).all fun e => db.encoded (c_str e.2) then
    match updateViolation s user with
    | some state => refused state
    | none => .done now
  else refused "22021".toList

theorem update_result (users : Table) (user : UserEntity) (a : QueryAnswer) :
    (sets user = [] ∧ ∃ what, (UsersRepository.update users user a).2 = .error (.std what)) ∨
      (sets user ≠ [] ∧ (UsersRepository.update users user a).2 = a.result) := by
  unfold UsersRepository.update updateQuery SQLBuilder.update
  by_cases h : sets user = []
  · left
    rw [if_pos (by simp [h])]
    exact ⟨h, _, rfl⟩
  · right
    rw [if_neg (by simpa using h)]
    exact ⟨h, rfl⟩

theorem rows_none {s : Accounts db} {id : ℤ} :
    rows s id = none ↔ ¬ ∃ u ∈ s.users, u.id.toInt = id := by
  unfold rows
  rw [Option.map_eq_none_iff, List.find?_eq_none]
  simp

end statement

/-! ### When everything works -/

section works
variable {app : Application} {s : Accounts app.db} {m : Moment} {disk : Disk} {request : Request}
  {a : UpdateAnswers}

/-- The row is not there, or the new address fits into its indexes. -/
def AddressFits (s : Accounts app.db) (id : ℤ) (data : UserUpdateSerializer) : Prop :=
  (∃ u ∈ s.users, u.id.toInt = id) → ∀ email ∈ data.email, Indexed app.db email

theorem soft_refused {what : Str} {code : DbErrorCode} :
    Soft ((QueryAnswer.failed (.db code what) none).result.mapError translate) ↔
      code = .UniqueViolation ∨ code = .NotNullViolation := by
  have hother : ∀ code, ¬ Soft (.error (.db code what) : Except Exn Unit) := fun code h =>
    absurd (soft_error.mp h) (by simp)
  have hexists : Utf8 (c_str "Email already exists".toList) := utf8_literal (by decide)
  have hmissing : Utf8 (c_str "Missing required fields".toList) := utf8_literal (by decide)
  cases code with
  | UniqueViolation => exact iff_of_true (soft_validation.mpr hexists) (.inl rfl)
  | NotNullViolation => exact iff_of_true (soft_validation.mpr hmissing) (.inr rfl)
  | ForeignKeyViolation => exact iff_of_false (hother _) (by simp)
  | Unknown => exact iff_of_false (hother _) (by simp)

/-- Only an address that does not fit into an index makes the statement fail for good. -/
theorem updateAnswer_soft (hw : Works app s m) {data : UserUpdateSerializer} {id : ℤ}
    {user : UserEntity} (h : Submitted data id user) (now : ℤ) :
    Soft ((updateAnswer s user now).result.mapError translate) ↔ AddressFits s id data := by
  have henc : ((sets user).all fun e => app.db.encoded (c_str e.2)) = true :=
    List.all_eq_true.mpr fun e he => (hw.storable (h.sets_utf8 e he)).2
  have hgiven : given user.email = data.email := by rw [h.given_eq _ (by simp), h.email_eq]
  have hfits : (data.email.any fun email => !app.db.index_holds (c_str email)) = true ↔
      ¬ ∀ email ∈ data.email, Indexed app.db email := by
    cases data.email <;> simp [Indexed]
  unfold updateAnswer updateViolation AddressFits
  rw [if_pos henc, h.id_eq, hgiven]
  by_cases hrow : rows s id = none
  · rw [if_pos hrow]
    exact iff_of_true (soft_ok ()) fun hu => absurd hu (rows_none.mp hrow)
  rw [if_neg hrow, forall_prop_of_true (not_not.mp (rows_none.not.mp hrow))]
  by_cases hindexed : ∀ email ∈ data.email, Indexed app.db email
  · rw [if_neg (hfits.not.mpr (not_not.mpr hindexed))]
    refine iff_of_true ?_ hindexed
    by_cases htaken : ∃ email ∈ data.email, EmailTakenBeside s id (c_str email)
    · rw [if_pos htaken]
      exact soft_refused.mpr (.inl rfl)
    · rw [if_neg htaken]
      exact soft_ok ()
  · rw [if_pos (hfits.mpr hindexed)]
    exact iff_of_false (soft_refused.not.mpr (by decide)) hindexed

/-- The file system takes a file. -/
structure Smooth (a : StoreAnswers) : Prop where
  created : a.create_error = none
  opened : a.opened = true
  written : a.write_stops = none
  flushed : a.flushed = true
  renamed : a.rename_error = none

theorem digits_to_string (n : ℤ) : (to_string n).all Char.isDigit = true ↔ 0 ≤ n := by
  unfold to_string
  split
  · rename_i hneg
    exact iff_of_false (by simp [List.all_cons, show Char.isDigit '-' = false by decide])
      (Int.not_le.mpr hneg)
  · rename_i hneg
    refine iff_of_true (List.all_eq_true.mpr fun c hc => ?_) (Int.not_lt.mp hneg)
    exact Nat.isDigit_of_mem_toDigits (by omega) (by omega) hc

theorem isOk_iff {ε : Type} {r : Except ε Unit} : r.isOk = true ↔ r = .ok () := by
  cases r <;> simp [Except.isOk, Except.toBool]

/-- The checks of a picture before it is written. -/
theorem accepts_works (hw : Works app s m) {b : StoreAnswers} (hb : Smooth b)
    {picture : IncomingFile} (hbytes : picture.bytes ≠ []) (id : ℤ) :
    accepts app.os app.opts "users".toList (to_string id) picture b = true ↔
      0 ≤ id ∧ validateFile app.os app.opts picture = .ok () := by
  have hname : (normalizeEntityName "users".toList).isOk = true := by
    have hvalid : isValidEntityName "users".toList = true :=
      (isValidEntityName_iff _).mpr ⟨by decide, List.all_eq_true.mp (by decide)⟩
    have hlower : toLower "users".toList = "users".toList := by decide
    rw [normalizeEntityName, hlower, if_pos hvalid]
    rfl
  have hid : (normalizeEntityId app.opts (to_string id)).isOk = true ↔ 0 ≤ id := by
    have hvalid : isValidEntityId app.opts (to_string id) = (to_string id).all Char.isDigit := by
      unfold isValidEntityId
      rw [if_neg (to_string_ne_nil id)]
      rfl
    rw [← digits_to_string, normalizeEntityId, toLower_to_string, hvalid]
    split <;> simp_all [Except.isOk, Except.toBool]
  have hdir : entityDir app.opts "users".toList (to_string id) =
      append app.rootPath (pictureDir id) := by
    have hlower : toLower "users".toList = "users".toList := by decide
    rw [entityDir, toLower_to_string, hlower]
    rfl
  have hwithin : (ensureWithinRoot app.os app.opts.rootPath
      (append (entityDir app.opts "users".toList (to_string id))
        (storedName app.opts b.rng picture.originalFileName))).isOk = true := by
    rw [hdir]
    exact isOk_iff.mpr (hw.files id b.rng picture.originalFileName)
  unfold accepts
  simp only [Bool.and_eq_true, decide_eq_true_eq, hname, hid, hwithin, hb.created, isOk_iff,
    Option.isNone_none, and_true, hbytes, ne_eq, not_false_eq_true, true_and]

/-- A picture is stored unless its user has a negative number or its content is refused. -/
theorem pictureEnd_works (hw : Works app s m) {b : StoreAnswers} (hb : Smooth b)
    {picture : IncomingFile} (hbytes : picture.bytes ≠ []) (id : ℤ) :
    pictureEnd app.toServices id picture b = .stored ↔
      0 ≤ id ∧ validateFile app.os app.opts picture = .ok () := by
  have hwrite : writeEnd picture.bytes b = .stored := by
    unfold writeEnd
    simp [hb.opened, hb.written, hb.flushed, hb.renamed]
  rw [← accepts_works hw hb hbytes]
  unfold pictureEnd storeEnd
  rw [hwrite]
  split <;> simp_all

theorem clearing_works (hw : Works app s m) (disk : Disk) (id : ℤ) :
    (clearing app.toServices disk id false none).Clears := by
  have hwithin : ensureWithinRoot app.os app.opts.rootPath
      (append app.opts.rootPath (pictureDir id)) = .ok () := hw.directories id
  unfold clearing
  rw [if_neg (not_not.mpr hwithin)]
  split
  · trivial
  · trivial

/-- The entity that the repository is given, when an update comes that far. -/
def sentEntity (srv : Services) (disk : Disk) (request : Request) (a : UpdateAnswers) :
    Option UserEntity := do
  let id ← (pathId request).toOption
  let (body, picture) ← (readBody srv request).toOption
  let data ← (from_json srv.lib body).toOption
  let user ← (hashPassword { data with id := id }.toEntity a.hash).toOption
  (replacePicture srv disk user picture a).2.toOption

/-- Hasher, file system and database answer one update as they should. -/
structure UpdateWorks (app : Application) (s : Accounts app.db) (m : Moment) (disk : Disk)
    (request : Request) (a : UpdateAnswers) : Prop where
  hash : ∃ hash, a.hash = .ok hash ∧ hash ≠ [] ∧ Utf8 hash
  seen : a.stat_fails = false
  removed : a.removal = none
  stored : Smooth a.store
  query : ∀ user, sentEntity app.toServices disk request a = some user →
    a.query = updateAnswer s user m.now

/-- No file is to be stored, or it can be. -/
def PictureFits (app : Application) (id : ℤ) (data : UserUpdateSerializer)
    (picture : IncomingFile) : Prop :=
  data.picture.isSome ∧ picture.bytes ≠ [] →
    0 ≤ id ∧ validateFile app.os app.opts picture = .ok ()

theorem Read.utf8 {j : Json} {key : Str} {value : Option Str} (h : Read j key value)
    (hj : Written j) : ∀ t ∈ value, t ≠ [] ∧ Utf8 t := by
  intro t ht
  obtain ⟨hne, hm⟩ := h t ht
  exact ⟨hne, written_str.mp (written_member hj hm)⟩

theorem hashed_submitted {lib : Library} {j : Json} {data : UserUpdateSerializer} {hash : Str}
    (hj : Written j) (hd : from_json lib j = .ok data) (hne : hash ≠ []) (hhash : Utf8 hash)
    (id : ℤ) :
    ∃ user, hashPassword { data with id := id }.toEntity (.ok hash) = .ok user ∧
      Submitted data id user := by
  obtain ⟨husername, hemail, hpicture⟩ := from_json_read hd
  have htexts : ∀ password : Option Str, (∀ t ∈ password, t ≠ [] ∧ Utf8 t) →
      ∀ value ∈ [data.email, data.username, password, data.picture],
        ∀ t ∈ value, t ≠ [] ∧ Utf8 t := by
    intro password hpassword
    simp only [List.forall_mem_cons, List.not_mem_nil, false_imp_iff, implies_true, and_true]
    exact ⟨hemail.utf8 hj, husername.utf8 hj, hpassword, hpicture.utf8 hj⟩
  obtain ⟨_, username, picture, email, password⟩ := data
  cases password with
  | none =>
    refine ⟨_, rfl, rfl, rfl, rfl, rfl, rfl, htexts none ?_⟩
    rintro t ⟨⟩
  | some password =>
    refine ⟨_, rfl, rfl, rfl, rfl, rfl, rfl, htexts (some hash) ?_⟩
    rintro t ⟨⟩
    exact ⟨hne, hhash⟩

theorem utf8_pictureName (srv : Services) (picture : IncomingFile) (b : StoreAnswers) :
    Utf8 (pictureName srv picture b) := by
  have hhex : hex.all (fun c => c.toNat < 128) = true := by decide
  have hdefault : ({ rootPath := [], mediaPath := [] } : Options).allowedExtensions.all
      (fun ext => ext.all fun c => c.toNat < 128) = true := by decide
  have hext : srv.opts.allowedExtensions.all (fun ext => ext.all fun c => c.toNat < 128) = true :=
    hdefault
  obtain ⟨digits, _, hdigits, hname⟩ :=
    storedName_generated srv.opts b.rng picture.originalFileName
  have hascii : Utf8 digits :=
    utf8_literal (List.all_eq_true.mpr fun c hc => List.all_eq_true.mp hhex c (hdigits c hc))
  unfold pictureName
  rcases hname with h | ⟨ext, hmem, h⟩
  · rw [h]
    exact hascii
  · rw [h]
    exact utf8_separated (by decide) hascii
      (utf8_literal (List.all_eq_true.mp hext ext hmem))

/-- The picture of the entity gets its generated name, or the call ends. -/
theorem replacePicture_works (hw : Works app s m) (ha : UpdateWorks app s m disk request a)
    {data : UserUpdateSerializer} {id : ℤ} {user : UserEntity} (h : Submitted data id user)
    (picture : IncomingFile) :
    (PictureFits app id data picture ∧ ∃ user',
      (replacePicture app.toServices disk user picture a).2 = .ok user' ∧
        Submitted data id user') ∨
    (¬ PictureFits app id data picture ∧ ∃ e,
      (replacePicture app.toServices disk user picture a).2 = .error e) := by
  unfold PictureFits
  rw [← h.picture_some]
  by_cases htaken : user.picture.isSome ∧ picture.bytes ≠ []
  · rw [forall_prop_of_true htaken, ← pictureEnd_works hw ha.stored htaken.2, ← h.id_eq]
    have hclears := clearing_works hw disk user.id
    rw [← ha.seen, ← ha.removed] at hclears
    rcases replacePicture_spec app.toServices htaken disk a with
      ⟨hnot, _⟩ | ⟨_, _, ⟨hend, hok⟩ | ⟨hend, e, he⟩⟩
    · exact absurd hclears hnot
    · refine .inl ⟨hend, _, hok, h.id_eq ▸ rfl, h.username_eq, h.email_eq, h.password_some,
        ?_, ?_⟩
      · rw [← h.picture_some, htaken.1]
        rfl
      · have hold := h.texts
        simp only [List.forall_mem_cons, List.not_mem_nil, false_imp_iff, implies_true, and_true]
          at hold ⊢
        refine ⟨hold.1, hold.2.1, hold.2.2.1, ?_⟩
        rintro t ⟨⟩
        have hne := (Option.mem_filter_iff.mp
          (given_pictureName app.toServices picture a.store)).2
        exact ⟨of_decide_eq_true hne, utf8_pictureName _ _ _⟩
    · exact .inr ⟨hend, e, he⟩
  · rw [replacePicture_none _ htaken]
    exact .inl ⟨fun ht => absurd ht htaken, user, rfl, h⟩

/-- The service refuses nothing but a taken address. -/
theorem service_soft (hw : Works app s m) (ha : UpdateWorks app s m disk request a) {id : ℤ}
    {body : Json} {picture : IncomingFile} {data : UserUpdateSerializer}
    (hid : pathId request = .ok id) (hbody : readBody app.toServices request = .ok (body, picture))
    (hj : Written body) (hd : from_json app.lib body = .ok data) :
    Soft (AdequateApi.UsersService.update app.toServices ⟨disk, rows s⟩ { data with id := id }
      picture a).2 ↔
      PictureFits app id data picture ∧ Changes data ∧ AddressFits s id data := by
  obtain ⟨hash, hhash, hne, hhash8⟩ := ha.hash
  obtain ⟨user, huser, hsubmitted⟩ := hashed_submitted hj hd hne hhash8 id
  rw [← hhash] at huser
  unfold AdequateApi.UsersService.update
  rw [huser]
  dsimp only
  rcases replacePicture_works hw ha hsubmitted picture with
    ⟨hfits, user', hok, h⟩ | ⟨hfits, e, he⟩
  · have hsent : sentEntity app.toServices disk request a = some user' := by
      unfold sentEntity
      rw [hid, hbody]
      simp only [Except.toOption, Option.bind_eq_bind, Option.bind_some, hd, huser, hok]
    cases hr : replacePicture app.toServices disk user picture a with
    | mk disk' result =>
      rw [hr] at hok
      obtain rfl : result = .ok user' := hok
      dsimp only
      rw [and_iff_right hfits]
      rcases update_result (rows s) user' a.query with
        ⟨hnil, what, hwhat⟩ | ⟨hsome, hresult⟩
      · rw [hwhat]
        refine iff_of_false (not_soft_std what) fun hchanges => ?_
        exact h.sets_ne_nil.mpr hchanges.1 hnil
      · rw [hresult, ha.query user' hsent, updateAnswer_soft hw h,
          and_iff_right (h.sets_ne_nil.mp hsome)]
  · cases hr : replacePicture app.toServices disk user picture a with
    | mk disk' result =>
      rw [hr] at he
      obtain rfl : result = .error e := he
      exact iff_of_false (not_soft_std _) fun h => hfits h.1

/-- The request is one that `PATCH /users/{id}` can answer: the segment is a number, the form or
the body says what to change, and the file and the address can be taken. -/
def Updatable (app : Application) (s : Accounts app.db) (segment : Str) (request : Request) :
    Prop :=
  ∃ id body picture, stoi segment = .ok id ∧
    readBody app.toServices request = .ok (body, picture) ∧ Patchable body ∧
    ∀ data, from_json app.lib body = .ok data →
      PictureFits app id data picture ∧ Changes data ∧ AddressFits s id data

theorem update_answered {srv : Services} {t : UsersService.State} {id : ℤ} {body : Json}
    {picture : IncomingFile} (hid : pathId request = .ok id)
    (hbody : readBody srv request = .ok (body, picture)) :
    (AdequateApi.UsersController.update srv t request a).2 =
      answered request 422 (from_json srv.lib body) fun data =>
        answered request 409 (AdequateApi.UsersService.update srv t { data with id := id }
          picture a).2 fun _ => .ok (noContent request) := by
  unfold AdequateApi.UsersController.update
  rw [hid, hbody]
  dsimp only
  cases from_json srv.lib body with
  | error e => cases e <;> rfl
  | ok data =>
    dsimp only [answered]
    cases AdequateApi.UsersService.update srv t { data with id := id } picture a with
    | mk t' result =>
      cases result with
      | ok u => rfl
      | error e => cases e <;> rfl

theorem update_sent (hw : Works app s m) (ha : UpdateWorks app s m disk request a) {segment : Str}
    (hp : request.path_params.find "id".toList = some segment) :
    Sent (AdequateApi.UsersController.update app.toServices ⟨disk, rows s⟩ request a).2
      (Updatable app s segment request) := by
  unfold Updatable
  cases hs : stoi segment with
  | error what =>
    unfold AdequateApi.UsersController.update
    rw [pathId_error hp hs]
    refine .failed ?_
    rintro ⟨_, _, _, h, _⟩
    cases h
  | ok id =>
    have hid := pathId_ok hp hs
    cases hbody : readBody app.toServices request with
    | error e =>
      unfold AdequateApi.UsersController.update
      rw [hid, hbody]
      refine .failed ?_
      rintro ⟨_, _, _, _, h, _⟩
      cases h
    | ok r =>
      obtain ⟨body, picture⟩ := r
      have hnoContent : Sent (.ok (noContent request)) True :=
        .json (by decide) (by decide) (iff_of_true trivial written_null)
      rw [update_answered hid hbody]
      by_cases hj : Written body
      · refine (sent_answered (by decide) (by decide) (soft_update hw.json) fun data hd =>
          (sent_answered (by decide) (by decide) (service_soft hw ha hid hbody hj hd)
            fun _ _ => hnoContent).congr (and_iff_left fun _ _ => trivial)).congr ?_
        constructor
        · rintro ⟨hpatchable, hfits⟩
          exact ⟨id, body, picture, rfl, rfl, hpatchable, hfits⟩
        · rintro ⟨_, _, _, ⟨⟩, ⟨⟩, hpatchable, hfits⟩
          exact ⟨hpatchable, hfits⟩
      · have hhard : ¬ Soft (from_json app.lib body) := fun h =>
          hj ((soft_update hw.json).mp h).1
        refine (sent_answered (q := fun _ => False) (by decide) (by decide)
          (soft_update hw.json) fun data hd => ?_).congr ?_
        · exact absurd (hd ▸ soft_ok data) hhard
        · refine iff_of_false (fun h => hj h.1.1) ?_
          rintro ⟨_, _, _, _, ⟨⟩, hpatchable, _⟩
          exact hj hpatchable.1

/-! ### Removal -/

/-- File system and database answer a removal as they should. -/
structure RemoveWorks (b : RemoveAnswers) : Prop where
  seen : b.stat_fails = false
  removed : b.removal = none
  query : ∃ now, b.query = .done now

theorem remove_works (hw : Works app s m) {b : RemoveAnswers} (hb : RemoveWorks b)
    (t : UsersService.State) (id : BitVec 64) :
    (AdequateApi.UsersService.remove app.toServices t id b).2 = .ok () := by
  obtain ⟨now, hquery⟩ := hb.query
  have hclears := clearing_works hw t.disk id.toNat
  have hspec := (clearDirectory_cleared app.toServices t.disk id.toNat b.stat_fails
    b.removal).spec.2
  rw [hb.seen, hb.removed] at hspec
  unfold AdequateApi.UsersService.remove
  rw [hb.seen, hb.removed]
  rcases hspec with ⟨_, hok⟩ | ⟨hnot, _⟩
  · cases hr : clearDirectory app.toServices t.disk (pictureDir id.toNat) false none with
    | mk disk' result =>
      rw [hr] at hok
      obtain rfl : result = .ok () := hok
      dsimp only [UsersRepository.remove, Query.run]
      rw [hquery]
      rfl
  · exact absurd hclears hnot

theorem remove_sent (hw : Works app s m) {b : RemoveAnswers} (hb : RemoveWorks b) {segment : Str}
    (hp : request.path_params.find "id".toList = some segment) (t : UsersService.State) :
    Sent (AdequateApi.UsersController.remove app.toServices t request b).2
      (∃ id, stoi segment = .ok id) := by
  unfold AdequateApi.UsersController.remove
  cases hs : stoi segment with
  | error what =>
    rw [pathId_error hp hs]
    refine .failed ?_
    rintro ⟨_, h⟩
    cases h
  | ok id =>
    rw [pathId_ok hp hs]
    have hremoved := remove_works hw hb t (BitVec.ofInt 64 id)
    dsimp only
    cases hr : AdequateApi.UsersService.remove app.toServices t (BitVec.ofInt 64 id) b with
    | mk t' result =>
      rw [hr] at hremoved
      obtain rfl : result = .ok () := hremoved
      exact .json (by decide) (by decide) (iff_of_true ⟨id, rfl⟩ written_null)

end works

end AdequateApi.UserUpdateAnswers
