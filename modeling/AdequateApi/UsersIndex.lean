import AdequateApi.AccountAnswers

/-! `UsersController::index` with what it calls: the query of the request, `UsersService::list`,
`UserSerializer` and `to_iso_string`; and which listings are answered below 500. -/
namespace AdequateApi.UsersIndex
open StdString MultipartForm DbConnection HttpMessages SqlBuilder PostgresSelect UserFilters
  UsersRepository UsersListing DatetimeConverter FileSystemService FileTree AdequateApi.UsersService
  AdequateApi.UsersController AccountStore AccountServices Utf8Text JsonText AnswerStatus
  AccountAnswers

/-! ### `to_iso_string` -/

/-- `gmtime_r`. Years are counted from March, in eras of 400 years. -/
def gmtime (t : ℤ) : Tm :=
  let day := t / 86400 + 719468
  let second := t % 86400
  let era := day / 146097
  let dayOfEra := day % 146097
  let yearOfEra := (dayOfEra - dayOfEra / 1460 + dayOfEra / 36524 - dayOfEra / 146096) / 365
  let dayOfYear := dayOfEra - (365 * yearOfEra + yearOfEra / 4 - yearOfEra / 100)
  let month := (5 * dayOfYear + 2) / 153
  let year := yearOfEra + era * 400 + if month < 10 then 0 else 1
  { tm_year := year - 1900
    tm_mon := if month < 10 then month + 2 else month - 10
    tm_mday := dayOfYear - (153 * month + 2) / 5 + 1
    tm_hour := second / 3600
    tm_min := second / 60 % 60
    tm_sec := second % 60 }

/-- `setfill('0')` and `setw(width)`. -/
def padded (width : ℕ) (n : ℤ) : Str :=
  List.replicate (width - (to_string n).length) '0' ++ to_string n

/-- `strftime` with `%Y-%m-%dT%H:%M:%S`. -/
def strftime (tm : Tm) : Str :=
  padded 4 (tm.tm_year + 1900) ++ '-' :: padded 2 (tm.tm_mon + 1) ++ '-' :: padded 2 tm.tm_mday ++
    'T' :: padded 2 tm.tm_hour ++ ':' :: padded 2 tm.tm_min ++ ':' :: padded 2 tm.tm_sec

/-- The casts to seconds and to microseconds round towards zero. -/
def to_iso_string (tp : ℤ) : Str :=
  let s := tp.tdiv 1000000000
  let rep := (tp - s * 1000000000).tdiv 1000
  strftime (gmtime s) ++ (if 0 < rep then '.' :: padded 6 rep else []) ++ "Z".toList

example : to_iso_string 1757010773123000000 = "2025-09-04T18:32:53.123000Z".toList := by
  decide +kernel

/-! ### `UserSerializer` -/

structure UserSerializer where
  id : ℤ
  username : Str
  email : Str
  picture : Option Str
  created_at : Str
  updated_at : Str
  deriving DecidableEq, Repr

def UserSerializer.fromEntity (entity : ListedUser) : UserSerializer where
  id := entity.id
  username := entity.username.getD []
  email := entity.email.getD []
  picture := entity.picture
  created_at := to_iso_string entity.created_at
  updated_at := to_iso_string entity.updated_at

/-- nlohmann::json keeps the members sorted. -/
def UserSerializer.to_json (s : UserSerializer) : Json :=
  .obj [("created_at".toList, .str s.created_at), ("email".toList, .str s.email),
    ("id".toList, .int s.id), ("picture".toList, s.picture.elim .null .str),
    ("updated_at".toList, .str s.updated_at), ("username".toList, .str s.username)]

/-! ### The service and the controller -/

/-- `std::clamp(limit.value_or(50), 1, 1000)`. -/
def clampLimit (limit : Option ℕ) : ℕ := max 1 (min (limit.getD 50) 1000)

def limited (filters : UserListFilter) : UserListFilter :=
  { filters with limit := some (clampLimit filters.limit) }

section service
variable (srv : Services) (pool : Str → List (Option Str) → Except PgError PgResult)

/-- The body of the loop over the users: the name of a picture becomes a link. -/
def serialized (host : Str) (user : ListedUser) : UserSerializer :=
  let link := buildAbsolutePath srv.opts host "users".toList (to_string user.id)
  UserSerializer.fromEntity { user with picture := user.picture.map link }

def list (filters : UserListFilter) (host : Str) : Except Exn (List UserSerializer) := do
  let users ← getList pool (limited filters)
  return users.map (serialized srv host)

/-- The decoded parameters of an origin-form target, none when it is not one; of equal keys the
first counts. -/
def Request.query (urls : Str → Option (List (Str × Str))) (request : Request) : Dict Str :=
  ((urls request.target).getD []).foldl
    (fun params p => if (params.find p.1).isSome then params else params.set p.1 p.2) []

/-- Set in the constructor of `Request`. -/
def Request.absoluteHost (request : Request) : Str :=
  headerGet request.headers "x-forwarded-proto".toList ++ "://".toList ++
    headerGet request.headers "Host".toList ++ "/".toList

def index (urls : Str → Option (List (Str × Str))) (request : Request) : Except Exn Outcome := do
  let filters ← (parseRequestQuery noFilter (Request.query urls request)).mapError Exn.std
  let users ← list srv pool (limited filters) (Request.absoluteHost request)
  return .json ⟨.arr (users.map UserSerializer.to_json), 200, request.keep_alive, -1⟩

end service

/-! ### What is written -/

theorem utf8_to_string (n : ℤ) : Utf8 (to_string n) :=
  Utf8.ascii fun c hc => (to_string_ascii n c hc).1

theorem utf8_padded (width : ℕ) (n : ℤ) : Utf8 (padded width n) := by
  refine Utf8.append (Utf8.ascii fun c hc => ?_) (utf8_to_string n)
  rw [List.eq_of_mem_replicate hc]
  decide

theorem utf8_separated {s t : Str} {c : Char} (hc : c.toNat < 128) (hs : Utf8 s) (ht : Utf8 t) :
    Utf8 (s ++ c :: t) := (utf8_append_cons hc s t).mpr ⟨hs, ht⟩

theorem utf8_strftime (tm : Tm) : Utf8 (strftime tm) :=
  utf8_separated (by decide) (utf8_separated (by decide) (utf8_separated (by decide)
    (utf8_separated (by decide) (utf8_separated (by decide) (utf8_padded _ _) (utf8_padded _ _))
      (utf8_padded _ _)) (utf8_padded _ _)) (utf8_padded _ _)) (utf8_padded _ _)

theorem utf8_to_iso_string (tp : ℤ) : Utf8 (to_iso_string tp) := by
  have hfraction : ∀ rep : ℤ, Utf8 (if 0 < rep then '.' :: padded 6 rep else []) := by
    intro rep
    split
    · exact (utf8_padded 6 rep).cons (by decide)
    · exact .nil
  exact ((utf8_strftime _).append (hfraction _)).append (utf8_literal (by decide))

theorem utf8_append_path {p q : Str} (hp : Utf8 p) (hq : Utf8 q) : Utf8 (append p q) := by
  unfold append
  split
  · exact hq
  split
  · exact Utf8.append hp hq
  · exact Utf8.append hp (hq.cons (by decide))

/-- The host ends with a slash, so its address and the rest of a link are written apart. -/
theorem utf8_link (request : Request) {path : Str} (hpath : Utf8 path) :
    Utf8 (Request.absoluteHost request ++ path) ↔ Utf8 (Request.absoluteHost request) := by
  have hslash : ∀ rest : Str, Utf8 (Request.absoluteHost request ++ rest) ↔
      Utf8 (headerGet request.headers "x-forwarded-proto".toList ++ "://".toList ++
        headerGet request.headers "Host".toList) ∧ Utf8 rest := by
    intro rest
    rw [← utf8_append_cons (c := '/') (by decide)]
    simp [Request.absoluteHost]
  have hhost := hslash []
  rw [List.append_nil] at hhost
  rw [hslash, hhost]
  exact and_congr Iff.rfl (iff_of_true hpath .nil)

/-! ### An offset out of range -/

section offset
variable {pg : Postgres}

theorem count_refused {params : List (Option Str)} {k : ℕ} {text : Str}
    (hp : params[k]? = some (some text)) (ht : pg.int4_input text = none) :
    pg.count params (some (k + 1)) = none := by
  have harg : pg.argument params (k + 1) = none ∨
      pg.argument params (k + 1) = some (some text) := by
    unfold Postgres.argument
    rw [if_neg (Nat.succ_ne_zero k), Nat.add_sub_cancel, hp, Option.bind_some]
    split
    · exact .inr rfl
    · exact .inl rfl
  rw [Postgres.count]
  rcases harg with h | h
  · rw [h]
    rfl
  · rw [h, Option.bind_some]
    dsimp only
    rw [ht]
    rfl

/-- The statement fails when the cast of its offset does, whatever the rows are. -/
theorem served_refused {cs : List Clause} {qb : SQLBuilder}
    (h : Built fields "users".toList cs qb) (users : List StoredUser) {limit : Option ℕ} {n : ℕ}
    (hwell : (selectOf fields "users".toList cs "id".toList limit (some n)).WellFormed)
    (ht : pg.int4_input (to_string n) = none) :
    serve pg usersRelation users
      (c_str (((qb.orderBy "id".toList).limit limit).offset (some n)).sql)
      ((((qb.orderBy "id".toList).limit limit).offset (some n)).params.map fun p => p.map c_str) =
        none := by
  obtain ⟨hsql, hparams⟩ := h.finished "id".toList limit (some n)
  have hoffset : pg.count ((((cs.map fun c => some c.value) ++
      windowParams limit (some n)).map fun p => p.map c_str))
      (some (cs.length + limit.toList.length + 1)) = none := by
    refine count_refused ?_ ht
    cases limit <;> simp [windowParams, c_str_to_string]
  rw [serve, hsql, SelectStatement.parse_text hwell, hparams, Option.bind_some, answer]
  split
  · cases pg.count (((cs.map fun c => some c.value) ++ windowParams limit (some n)).map
        fun p => p.map c_str) (selectOf fields "users".toList cs "id".toList limit
          (some n)).limit with
    | none => rfl
    | some l =>
      rw [Option.bind_some]
      dsimp only [selectOf]
      rw [Option.map_some, hoffset]
      rfl
  · rfl

theorem getList_refused (table : UsersTable pg) {f : UserListFilter} {n : ℕ}
    (hn : f.offset = some n) (ht : pg.int4_input (to_string n) = none) :
    getList (runQuery pg table) f = .error (.db .Unknown pg.complaint) := by
  have hwell := selectOf_wellFormed (show fields ≠ [] by simp [fields])
    (show ∀ c ∈ fields, SelectStatement.Name c by decide)
    (show SelectStatement.Name "users".toList by decide) (clauses_name f)
    (show SelectStatement.Name "id".toList by decide) f.limit (some n)
  have hserved := served_refused (built_conditions f) table.users hwell ht
  rw [← hn, ← statement_eq] at hserved
  unfold getList runQuery paramValues
  rw [hserved]
  rfl

end offset

/-! ### Which listings are answered -/

theorem limited_limited (f : UserListFilter) : limited (limited f) = limited f := by
  have hclamp : clampLimit (some (clampLimit f.limit)) = clampLimit f.limit := by
    unfold clampLimit
    rw [Option.getD_some]
    omega
  simp only [limited, hclamp]

theorem limited_le (f : UserListFilter) : ∀ n ∈ (limited f).limit, n ≤ 1000 := by
  rintro n ⟨⟩
  unfold clampLimit
  omega

/-- The texts that the entry of a user shows. -/
def Shown (srv : Services) (host : Str) (user : UserEntity) : Prop :=
  Utf8 (user.username.getD []) ∧ Utf8 (user.email.getD []) ∧ ∀ name ∈ user.picture,
    Utf8 (buildAbsolutePath srv.opts host "users".toList (to_string user.id) name)

theorem written_user (srv : Services) (host : Str) (user : ListedUser) :
    Written (serialized srv host user).to_json ↔ Shown srv host user.toUserEntity := by
  have hkeys : Utf8 "created_at".toList ∧ Utf8 "email".toList ∧ Utf8 "id".toList ∧
      Utf8 "picture".toList ∧ Utf8 "updated_at".toList ∧ Utf8 "username".toList :=
    ⟨utf8_literal (by decide), utf8_literal (by decide), utf8_literal (by decide),
      utf8_literal (by decide), utf8_literal (by decide), utf8_literal (by decide)⟩
  have hpicture : ∀ link : Str → Str, Written ((user.picture.map link).elim .null .str) ↔
      ∀ name ∈ user.picture, Utf8 (link name) := by
    intro link
    cases user.picture with
    | none => simp [written_null]
    | some name => simp [written_str]
  unfold UserSerializer.to_json serialized UserSerializer.fromEntity Shown
  simp only [written_members, List.forall_mem_cons, List.not_mem_nil, false_imp_iff, implies_true,
    written_str, hpicture, hkeys, utf8_to_iso_string, written_int, true_and, and_true]
  constructor
  · rintro ⟨hemail, hlink, hname⟩
    exact ⟨hname, hemail, hlink⟩
  · rintro ⟨hname, hemail, hlink⟩
    exact ⟨hemail, hlink, hname⟩

section index
variable {app : Application} {s : Accounts app.db} {m : Moment} {request : Request}
  {urls : Str → Option (List (Str × Str))}

/-- The rows that a listing shows. -/
def listed (pg : Postgres) (f : UserListFilter) (users : List StoredUser) : List StoredUser :=
  page (Arrives pg (limited f)) (limited f) users

/-- The query is one that `GET /users` can answer: its numbers are numbers, the server takes its
offset and its texts, and no listed user has a picture under an address that cannot be
written. -/
def Listable (app : Application) (s : Accounts app.db) (urls : Str → Option (List (Str × Str)))
    (request : Request) : Prop :=
  ∃ f, parseRequestQuery noFilter (Request.query urls request) = .ok f ∧
    (∀ n ∈ f.offset, n ≤ 2147483647) ∧ Accepted app.db.toPostgres f ∧
    (Utf8 (Request.absoluteHost request) ∨
      ∀ u ∈ listed app.db.toPostgres f s.users, u.row.picture = none)

theorem shown_iff (hw : Works app s m) {u : StoredUser} (hu : u ∈ s.users) :
    Shown app.toServices (Request.absoluteHost request) u.entity ↔
      Utf8 (Request.absoluteHost request) ∨ u.row.picture = none := by
  obtain ⟨hname, hmail⟩ := s.texts u hu
  have hname8 : Utf8 (u.entity.username.getD []) := hw.utf8 hname
  have hmail8 : Utf8 (u.entity.email.getD []) := by
    change Utf8 (u.row.email.getD [])
    cases he : u.row.email with
    | none => exact .nil
    | some e => exact hw.utf8 (hmail e he)
  have hpicture : u.entity.picture = u.row.picture := rfl
  unfold Shown
  rw [and_iff_right hname8, and_iff_right hmail8, hpicture]
  cases hp : u.row.picture with
  | none => simp
  | some name =>
    have hpath : Utf8 (buildRelativePath app.opts "users".toList (to_string u.entity.id) name) := by
      unfold buildRelativePath buildRelativeDir
      refine utf8_separated (by decide) (utf8_append_path hw.media_path ?_)
        (hw.utf8 (hw.pictures u hu name hp))
      exact utf8_append_path (utf8_append_path (utf8_literal (by decide)) (utf8_to_string _))
        (utf8_literal (by decide))
    simp only [Option.mem_def, Option.some.injEq, forall_eq', reduceCtorEq, or_false]
    exact utf8_link request hpath

theorem index_eq (srv : Services) (pool : Str → List (Option Str) → Except PgError PgResult)
    {f : UserListFilter}
    (hf : parseRequestQuery noFilter (Request.query urls request) = .ok f) :
    index srv pool urls request = (getList pool (limited f)).map fun users =>
      .json ⟨.arr ((users.map (serialized srv (Request.absoluteHost request))).map
        UserSerializer.to_json), 200, request.keep_alive, -1⟩ := by
  unfold index list
  rw [hf]
  change (getList _ (limited (limited f)) >>= _) >>= _ = _
  rw [limited_limited]
  cases getList pool (limited f) <;> rfl

/-- The rows come back, and the entries of the answer show their texts. -/
theorem index_found (hw : Works app s m) {f : UserListFilter}
    (hf : parseRequestQuery noFilter (Request.query urls request) = .ok f)
    (hoffset : ∀ n ∈ f.offset, n ≤ 2147483647) (ha : Accepted app.db.toPostgres f) :
    Sent (index app.toServices (runQuery app.db.toPostgres s.toUsersTable) urls request)
      (∀ u ∈ listed app.db.toPostgres f s.users,
        Utf8 (Request.absoluteHost request) ∨ u.row.picture = none) := by
  have hmem : ∀ u ∈ listed app.db.toPostgres f s.users, u ∈ s.users := fun u hu => mem_page hu
  have hlist : getList (runQuery app.db.toPostgres s.toUsersTable) (limited f) =
      entities ((listed app.db.toPostgres f s.users).map (rowOf app.db.toPostgres)) :=
    getList_accepted hw.server (ha.window _ f.offset) s.toUsersTable (limited_le f)
      fun n hn => Nat.lt_succ_of_le (hoffset n hn)
  obtain ⟨found, hfound, hrows⟩ := (entities_iff app.db.toPostgres
    (listed app.db.toPostgres f s.users)).mpr fun u hu => hw.readable u (hmem u hu)
  rw [index_eq _ _ hf, hlist, hfound]
  refine .json (by decide) (by decide) ?_
  rw [written_items, List.map_map, List.forall_mem_map]
  calc (∀ u ∈ listed app.db.toPostgres f s.users,
        Utf8 (Request.absoluteHost request) ∨ u.row.picture = none)
      ↔ ∀ u ∈ listed app.db.toPostgres f s.users,
        Shown app.toServices (Request.absoluteHost request) u.entity :=
        forall₂_congr fun u hu => (shown_iff hw (hmem u hu)).symm
    _ ↔ ∀ e ∈ found.map ListedUser.toUserEntity,
        Shown app.toServices (Request.absoluteHost request) e := by
        rw [comesBack_entities hrows, List.forall_mem_map]
    _ ↔ _ := by
        rw [List.forall_mem_map]
        exact forall₂_congr fun user _ => (written_user _ _ user).symm

/-- A filter that the server refuses. -/
theorem index_refused (hw : Works app s m) {f : UserListFilter}
    (hf : parseRequestQuery noFilter (Request.query urls request) = .ok f)
    (h : ¬ ((∀ n ∈ f.offset, n ≤ 2147483647) ∧ Accepted app.db.toPostgres f)) :
    index app.toServices (runQuery app.db.toPostgres s.toUsersTable) urls request =
      .error (.db .Unknown app.db.complaint) := by
  have hlist : getList (runQuery app.db.toPostgres s.toUsersTable) (limited f) =
      .error (.db .Unknown app.db.complaint) := by
    by_cases hoffset : ∀ n ∈ f.offset, n ≤ 2147483647
    · have hnot : ¬ Accepted app.db.toPostgres (limited f) := fun ha =>
        h ⟨hoffset, ha.window f.limit f.offset⟩
      rw [getList_eq hw.server s.toUsersTable (limited_le f) fun n hn =>
        Nat.lt_succ_of_le (hoffset n hn), if_neg fun hb => hnot ((bound_iff hw.server).mp hb)]
    · push Not at hoffset
      obtain ⟨n, hn, hlarge⟩ := hoffset
      exact getList_refused s.toUsersTable (f := limited f) hn
        (hw.int4_range n (by omega))
  rw [index_eq _ _ hf, hlist]
  rfl

theorem index_sent (hw : Works app s m) :
    Sent (index app.toServices (runQuery app.db.toPostgres s.toUsersTable) urls request)
      (Listable app s urls request) := by
  unfold Listable
  cases hf : parseRequestQuery noFilter (Request.query urls request) with
  | error what =>
    have hindex : index app.toServices (runQuery app.db.toPostgres s.toUsersTable) urls request =
        .error (.std what) := by
      unfold index
      rw [hf]
      rfl
    rw [hindex]
    refine .failed ?_
    rintro ⟨f, h, _⟩
    cases h
  | ok f =>
    simp only [Except.ok.injEq, exists_eq_left']
    by_cases h : (∀ n ∈ f.offset, n ≤ 2147483647) ∧ Accepted app.db.toPostgres f
    · refine (index_found hw hf h.1 h.2).congr ?_
      rw [and_iff_right h.1, and_iff_right h.2]
      by_cases hhost : Utf8 (Request.absoluteHost request) <;> simp [hhost]
    · rw [index_refused hw hf h]
      exact .failed fun hp => h ⟨hp.1, hp.2.1⟩

end index

end AdequateApi.UsersIndex
