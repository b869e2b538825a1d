import AdequateApi.DatetimeConverter
import AdequateApi.SqlBuilderSpec
import AdequateApi.UserFilters
import AdequateApi.UsersRepository

/-! `UsersRepository::getList`: the statement it builds from a filter, the answer of the server
to it, and the rows that come back. -/
namespace AdequateApi.UsersListing
open StdString DbConnection HttpMessages SqlBuilder SelectStatement PostgresSelect UserFilters
  UsersRepository DatetimeConverter

/-- `UserEntity` with its two times. -/
structure ListedUser extends UserEntity where
  created_at : ℤ
  updated_at : ℤ
  deriving DecidableEq, Repr

def fields : List Str :=
  ["id".toList, "username".toList, "picture".toList, "email".toList, "created_at".toList,
    "updated_at".toList]

def idText (id : Int64) : Str := to_string id.toInt

/-- The `WHERE` part, one call for each field that is present. -/
def conditions (filters : UserListFilter) : SQLBuilder :=
  let qb := (SQLBuilder.create "users".toList).select fields
  let qb := filters.id.elim qb fun id => qb.where_ "id".toList (idText id)
  let qb := filters.id__in.elim qb fun ids =>
    qb.whereAny "id".toList "bigint".toList (ids.map idText)
  let qb := filters.username__in.elim qb fun names =>
    qb.whereAny "username".toList "text".toList names
  let qb := filters.username.elim qb fun name => qb.where_ "username".toList name
  filters.email.elim qb fun email => qb.where_ "email".toList email

def statement (filters : UserListFilter) : SQLBuilder :=
  let qb := (conditions filters).orderBy "id".toList
  let qb := filters.limit.elim qb fun n => qb.limit (some n)
  filters.offset.elim qb fun n => qb.offset (some n)

/-- One row of the result, which has six columns. A NULL email becomes the empty text. -/
def entityOf (columns : List PgValue) : Except Exn ListedUser := do
  let column (i : ℕ) := columns.getD i ⟨[], true⟩
  let id ← (stoll (column 0).data).mapError Exn.std
  let created_at ← (parse_pg_timestamp (column 4).data).mapError Exn.std
  let updated_at ← (parse_pg_timestamp (column 5).data).mapError Exn.std
  .ok
    { id := id
      username := some (column 1).data
      picture := if (column 2).is_null then none else some (column 2).data
      email := some (column 3).data
      password := none
      created_at := created_at
      updated_at := updated_at }

def entities : List PgRow → Except Exn (List ListedUser)
  | [] => .ok []
  | row :: rows => do
      let user ← entityOf row.columns
      let users ← entities rows
      .ok (user :: users)

/-- `query` is `pool_->query`. -/
def getList (query : Str → List (Option Str) → Except PgError PgResult)
    (filters : UserListFilter) : Except Exn (List ListedUser) :=
  match query (statement filters).sql (statement filters).params with
  | .error e => .error (Exn.ofPg e)
  | .ok result => entities result.rows

/-! ### The users table on the server -/

/-- A text the database can hold. -/
def Storable (pg : Postgres) (s : Str) : Prop := '\x00' ∉ s ∧ pg.encoded s = true

structure StoredUser where
  id : Int64
  row : Row
  deriving DecidableEq, Repr

structure UsersTable (pg : Postgres) where
  users : List StoredUser
  primary : (users.map StoredUser.id).Nodup
  texts : ∀ u ∈ users, Storable pg u.row.username ∧ ∀ e ∈ u.row.email, Storable pg e

def schema (column : Str) : Option SqlType :=
  if column = "id".toList then some .bigint
  else if column = "username".toList ∨ column = "picture".toList ∨ column = "password".toList then
    some .text
  else if column = "email".toList then some .citext
  else if column = "created_at".toList ∨ column = "updated_at".toList then some .timestamptz
  else none

def cell (u : StoredUser) (column : Str) : Option Value :=
  if column = "id".toList then some (.bigint u.id.toInt)
  else if column = "username".toList then some (.text u.row.username)
  else if column = "picture".toList then u.row.picture.map .text
  else if column = "email".toList then u.row.email.map .text
  else if column = "password".toList then u.row.password.map .text
  else if column = "created_at".toList then some (.timestamptz u.row.created_at)
  else if column = "updated_at".toList then some (.timestamptz u.row.updated_at)
  else none

def usersRelation : Relation StoredUser := ⟨"users".toList, schema, cell⟩

/-- A query that reaches the server, with its answer. -/
def runQuery (pg : Postgres) (table : UsersTable pg) (sql : Str) (params : List (Option Str)) :
    Except PgError PgResult :=
  match serve pg usersRelation table.users (c_str sql) (paramValues params) with
  | none => .error (.db .Unknown pg.complaint)
  | some (names, tuples) =>
      .ok (buildResult ⟨.PGRES_TUPLES_OK, names.map some, tuples, none, none⟩)

/-! ### What a listing should be -/

/-- The row meets every field that is present. -/
def Satisfies (pg : Postgres) (f : UserListFilter) (u : StoredUser) : Prop :=
  (∀ id ∈ f.id, u.id = id) ∧ (∀ ids ∈ f.id__in, u.id ∈ ids) ∧
    (∀ name ∈ f.username, u.row.username = name) ∧
    (∀ names ∈ f.username__in, u.row.username ∈ names) ∧
    ∀ email ∈ f.email, u.row.email.any (fun e => pg.citext_equal e email) = true

instance (pg : Postgres) (f : UserListFilter) : DecidablePred (Satisfies pg f) := fun u =>
  have (names : List Str) : Decidable (u.row.username ∈ names) :=
    decidable_of_iff (∃ name ∈ names, name = u.row.username) (by simp)
  @instDecidableAnd _ _ (Option.decidableForallMem f.id)
    (inferInstanceAs (Decidable (_ ∧ _ ∧ _ ∧ _)))

/-- Rows with a property, by id, without the first `offset`, at most `limit`. -/
def page (p : StoredUser → Prop) [DecidablePred p] (f : UserListFilter) (users : List StoredUser) :
    List StoredUser :=
  window f.limit f.offset
    ((users.filter fun u => p u).mergeSort fun a b => a.id.toInt ≤ b.id.toInt)

def listing (pg : Postgres) (f : UserListFilter) (users : List StoredUser) : List StoredUser :=
  page (Satisfies pg f) f users

/-- The entity that stands for a row. -/
def StoredUser.entity (u : StoredUser) : UserEntity where
  id := u.id.toInt
  username := some u.row.username
  email := some (u.row.email.getD [])
  picture := u.row.picture
  password := none

/-- The server shows both times of the row in a form that `get_time` reads. -/
def Readable (pg : Postgres) (u : StoredUser) : Prop :=
  ∃ t t', parse_pg_timestamp (pg.timestamptz_output u.row.created_at) = .ok t ∧
    parse_pg_timestamp (pg.timestamptz_output u.row.updated_at) = .ok t'

/-- The row as it comes back, in all six columns. A time comes back as `get_time` reads the text
that the server shows of it. -/
structure ComesBack (pg : Postgres) (u : StoredUser) (user : ListedUser) : Prop where
  entity : user.toUserEntity = u.entity
  created_at : parse_pg_timestamp (pg.timestamptz_output u.row.created_at) = .ok user.created_at
  updated_at : parse_pg_timestamp (pg.timestamptz_output u.row.updated_at) = .ok user.updated_at

/-- Over every table and every window, the filter's other fields select what they should: the
listing comes back row by row, unless it has a row whose times cannot be read. -/
def ListsExactly (pg : Postgres) (f : UserListFilter) : Prop :=
  ∀ (table : UsersTable pg) (limit offset : Option ℕ), (∀ n ∈ limit, n ≤ 1000) →
    (∀ n ∈ offset, n < 2147483648) →
    ((∃ found, getList (runQuery pg table) { f with limit := limit, offset := offset } = .ok found ∧
        List.Forall₂ (ComesBack pg)
          (listing pg { f with limit := limit, offset := offset } table.users) found) ↔
      ∀ u ∈ listing pg { f with limit := limit, offset := offset } table.users, Readable pg u)

/-! ### The statement -/

def whereClauses (column : Str) (value : Option Str) : List Clause :=
  value.toList.map fun v => ⟨column, none, v⟩

/-- An empty list has no clause. -/
def anyClauses (column : Str) (t : SqlType) (values : Option (List Str)) : List Clause :=
  values.elim [] fun vs => if vs = [] then [] else [⟨column, some t, arrayToPg vs⟩]

def clauses (f : UserListFilter) : List Clause :=
  whereClauses "id".toList (f.id.map idText) ++
    anyClauses "id".toList .bigint (f.id__in.map (List.map idText)) ++
    anyClauses "username".toList .text f.username__in ++
    whereClauses "username".toList f.username ++ whereClauses "email".toList f.email

section build

variable {cs : List Clause} {qb : SQLBuilder} {α : Type}

theorem built_where (h : Built fields "users".toList cs qb) (expr : Str) (text : α → Str)
    (o : Option α) :
    Built fields "users".toList (cs ++ whereClauses expr (o.map text))
      (o.elim qb fun a => qb.where_ expr (text a)) := by
  cases o with
  | none => rwa [Option.map_none, whereClauses, Option.toList_none, List.map_nil, List.append_nil]
  | some a => exact h.where_ expr (text a)

theorem built_any (h : Built fields "users".toList cs qb) (expr : Str) (t : SqlType)
    (texts : α → List Str) (o : Option α) :
    Built fields "users".toList (cs ++ anyClauses expr t (o.map texts))
      (o.elim qb fun a => qb.whereAny expr t.name (texts a)) := by
  cases o with
  | none => rwa [Option.map_none, anyClauses, Option.elim_none, List.append_nil]
  | some a => exact h.whereAny expr t (texts a)

end build

theorem built_conditions (f : UserListFilter) :
    Built fields "users".toList (clauses f) (conditions f) := by
  unfold conditions
  extract_lets qb₀ qb₁ qb₂ qb₃ qb₄
  have h₀ : Built fields "users".toList [] qb₀ := built_select _ (by simp [fields])
  have h₁ : Built fields "users".toList _ qb₁ := built_where h₀ "id".toList idText f.id
  have h₂ : Built fields "users".toList _ qb₂ :=
    built_any h₁ "id".toList .bigint (List.map idText) f.id__in
  have h₃ : Built fields "users".toList _ qb₃ :=
    built_any h₂ "username".toList .text id f.username__in
  have h₄ : Built fields "users".toList _ qb₄ := built_where h₃ "username".toList id f.username
  have h₅ := built_where h₄ "email".toList id f.email
  simp only [List.nil_append, Option.map_id_fun, id_eq] at h₅
  exact h₅

theorem statement_eq (f : UserListFilter) :
    statement f =
      (((conditions f).orderBy "id".toList).limit f.limit).offset f.offset := by
  unfold statement
  cases f.limit <;> cases f.offset <;> rfl

theorem clauses_name (f : UserListFilter) : ∀ c ∈ clauses f, Name c.column := by
  have hwhere : ∀ (column : Str) (o : Option Str), Name column →
      ∀ c ∈ whereClauses column o, Name c.column := by
    intro column o hn c hc
    obtain ⟨v, _, rfl⟩ := List.mem_map.mp hc
    exact hn
  have hany : ∀ (column : Str) (t : SqlType) (o : Option (List Str)), Name column →
      ∀ c ∈ anyClauses column t o, Name c.column := by
    intro column t o hn c hc
    cases o with
    | none => cases hc
    | some vs =>
      simp only [anyClauses, Option.elim_some] at hc
      split at hc
      · cases hc
      · rw [List.mem_singleton.mp hc]
        exact hn
  intro c hc
  simp only [clauses, List.mem_append] at hc
  rcases hc with (((hc | hc) | hc) | hc) | hc
  · exact hwhere _ _ (by decide) c hc
  · exact hany _ _ _ (by decide) c hc
  · exact hany _ _ _ (by decide) c hc
  · exact hwhere _ _ (by decide) c hc
  · exact hwhere _ _ (by decide) c hc

/-! ### What the server makes of it -/

/-- The row meets every clause that arrives. -/
def Arrives (pg : Postgres) (f : UserListFilter) (u : StoredUser) : Prop :=
  ∀ c ∈ clauses f, c.sent.holds pg schema (cell u) = true

instance (pg : Postgres) (f : UserListFilter) : DecidablePred (Arrives pg f) := fun _ =>
  inferInstanceAs (Decidable (∀ c ∈ clauses f, _))

/-- The texts of a row in the order of the columns. -/
def tuple (pg : Postgres) (u : StoredUser) : List (Option Str) :=
  [some (to_string u.id.toInt), some u.row.username, u.row.picture, u.row.email,
    some (pg.timestamptz_output u.row.created_at), some (pg.timestamptz_output u.row.updated_at)]

theorem tuple_eq (pg : Postgres) (u : StoredUser) :
    (fields.map fun c => (usersRelation.cell u c).map pg.output) = tuple pg u := by
  have hpicture : Option.map pg.output (u.row.picture.map Value.text) = u.row.picture := by
    cases u.row.picture <;> rfl
  have hemail : Option.map pg.output (u.row.email.map Value.text) = u.row.email := by
    cases u.row.email <;> rfl
  have hcells : (fields.map fun c => (usersRelation.cell u c).map pg.output) =
      [some (to_string u.id.toInt), some u.row.username,
        (u.row.picture.map Value.text).map pg.output, (u.row.email.map Value.text).map pg.output,
        some (pg.timestamptz_output u.row.created_at),
        some (pg.timestamptz_output u.row.updated_at)] := rfl
  rw [hcells, hpicture, hemail, tuple]

/-- Sorting by the id column is sorting by the id. -/
theorem page_eq (pg : Postgres) (f : UserListFilter) (users : List StoredUser) :
    window f.limit f.offset (sorted usersRelation (some "id".toList) (users.filter fun u =>
      (clauses f).all fun c => c.sent.holds pg usersRelation.schema (usersRelation.cell u))) =
        page (Arrives pg f) f users := by
  have hfilter : ∀ u, ((clauses f).all fun c =>
      c.sent.holds pg usersRelation.schema (usersRelation.cell u)) =
        decide (Arrives pg f u) := by
    intro u
    rw [Bool.eq_iff_iff, List.all_eq_true, decide_eq_true_eq]
    rfl
  simp only [hfilter]
  rfl

theorem runQuery_statement {pg : Postgres} (hpg : pg.Documented) (table : UsersTable pg)
    {f : UserListFilter} (hlimit : ∀ n ∈ f.limit, n ≤ 1000)
    (hoffset : ∀ n ∈ f.offset, n < 2147483648) :
    runQuery pg table (statement f).sql (statement f).params =
      if ∀ c ∈ clauses f, (c.sent.bound pg schema).isSome then
        .ok (buildResult ⟨.PGRES_TUPLES_OK, fields.map some,
          (page (Arrives pg f) f table.users).map (tuple pg), none, none⟩)
      else .error (.db .Unknown pg.complaint) := by
  have hwell := selectOf_wellFormed (show fields ≠ [] by simp [fields])
    (show ∀ c ∈ fields, Name c by decide) (show Name "users".toList by decide) (clauses_name f)
    (show Name "id".toList by decide) f.limit f.offset
  have hserved := (built_conditions f).served hpg usersRelation table.users hwell rfl
    (by decide) rfl (fun n hn => (hlimit n hn).trans (by omega))
    (fun n hn => Nat.le_of_lt_succ (hoffset n hn))
  rw [← statement_eq, page_eq] at hserved
  simp only [tuple_eq] at hserved
  unfold runQuery paramValues
  rw [hserved]
  by_cases hbound : ∀ c ∈ clauses f, (c.sent.bound pg usersRelation.schema).isSome
  · rw [if_pos hbound]
    exact (if_pos hbound).symm
  · rw [if_neg hbound]
    exact (if_neg hbound).symm

/-! ### The rows that come back -/

/-- A row as `PgConnection` hands it out. -/
def rowOf (pg : Postgres) (u : StoredUser) : PgRow :=
  ⟨(tuple pg u).map fun
    | none => ⟨[], true⟩
    | some val => ⟨val, false⟩⟩

theorem stoll_idText (id : Int64) : stoll (idText id) = .ok id.toInt := by
  have hlow := id.le_toInt
  have hhigh := id.toInt_lt
  exact readInteger_to_string _ (by omega) (by omega)

theorem entityOf_readable {pg : Postgres} {u : StoredUser} {t t' : ℤ}
    (h : parse_pg_timestamp (pg.timestamptz_output u.row.created_at) = .ok t)
    (h' : parse_pg_timestamp (pg.timestamptz_output u.row.updated_at) = .ok t') :
    entityOf (rowOf pg u).columns = .ok ⟨u.entity, t, t'⟩ := by
  have hid := stoll_idText u.id
  obtain ⟨id, username, picture, email, password, created_at, updated_at⟩ := u
  simp only [idText] at hid
  cases picture <;> cases email <;>
    simp [entityOf, rowOf, tuple, hid, h, h', Except.mapError, StoredUser.entity, bind,
      Except.bind]

theorem entityOf_unreadable {pg : Postgres} {u : StoredUser} (h : ¬ Readable pg u) :
    ∃ e, entityOf (rowOf pg u).columns = .error e := by
  have hid := stoll_idText u.id
  simp only [idText] at hid
  cases hc : parse_pg_timestamp (pg.timestamptz_output u.row.created_at) with
  | error e => exact ⟨.std e, by simp [entityOf, rowOf, tuple, hid, hc, Except.mapError, bind,
      Except.bind]⟩
  | ok t =>
    cases hu : parse_pg_timestamp (pg.timestamptz_output u.row.updated_at) with
    | error e => exact ⟨.std e, by simp [entityOf, rowOf, tuple, hid, hc, hu, Except.mapError, bind,
        Except.bind]⟩
    | ok t' => exact absurd ⟨t, t', hc, hu⟩ h

theorem entities_length {rows : List PgRow} {found : List ListedUser}
    (h : entities rows = .ok found) : found.length = rows.length := by
  induction rows generalizing found with
  | nil =>
    cases h
    rfl
  | cons row rows ih =>
    unfold entities at h
    cases he : entityOf row.columns with
    | error e =>
      rw [he] at h
      cases h
    | ok user =>
      cases hr : entities rows with
      | error e =>
        rw [he, hr] at h
        cases h
      | ok users =>
        rw [he, hr] at h
        cases h
        rw [List.length_cons, List.length_cons, ih hr]

theorem entityOf_comesBack {pg : Postgres} {u : StoredUser} {user : ListedUser}
    (h : ComesBack pg u user) : entityOf (rowOf pg u).columns = .ok user := by
  obtain ⟨entity, created_at, updated_at⟩ := user
  obtain ⟨rfl, hc, hd⟩ := h
  exact entityOf_readable hc hd

theorem comesBack_entities {pg : Postgres} {users : List StoredUser} {found : List ListedUser}
    (h : List.Forall₂ (ComesBack pg) users found) :
    found.map ListedUser.toUserEntity = users.map StoredUser.entity := by
  induction h with
  | nil => rfl
  | cons hu _ ih => rw [List.map_cons, List.map_cons, hu.entity, ih]

/-- All rows come back as they are, exactly when their times can be read. -/
theorem entities_iff (pg : Postgres) (users : List StoredUser) :
    (∃ found, entities (users.map (rowOf pg)) = .ok found ∧
      List.Forall₂ (ComesBack pg) users found) ↔ ∀ u ∈ users, Readable pg u := by
  induction users with
  | nil => simp [entities]
  | cons u us ih =>
    rw [List.forall_mem_cons, ← ih]
    constructor
    · rintro ⟨_, hfound, _ | ⟨hu, hus⟩⟩
      rename_i user found
      refine ⟨⟨_, _, hu.created_at, hu.updated_at⟩, found, ?_, hus⟩
      rw [List.map_cons, entities, entityOf_comesBack hu] at hfound
      cases hr : entities (us.map (rowOf pg)) with
      | error e =>
        rw [hr] at hfound
        cases hfound
      | ok users =>
        rw [hr] at hfound
        cases hfound
        rfl
    · rintro ⟨⟨t, t', hc, hd⟩, found, hfound, hus⟩
      have hu : ComesBack pg u ⟨u.entity, t, t'⟩ := ⟨rfl, hc, hd⟩
      refine ⟨⟨u.entity, t, t'⟩ :: found, ?_, .cons hu hus⟩
      rw [List.map_cons, entities, entityOf_comesBack hu, hfound]
      rfl

theorem getList_eq {pg : Postgres} (hpg : pg.Documented) (table : UsersTable pg)
    {f : UserListFilter} (hlimit : ∀ n ∈ f.limit, n ≤ 1000)
    (hoffset : ∀ n ∈ f.offset, n < 2147483648) :
    getList (runQuery pg table) f =
      if ∀ c ∈ clauses f, (c.sent.bound pg schema).isSome then
        entities ((page (Arrives pg f) f table.users).map (rowOf pg))
      else .error (.db .Unknown pg.complaint) := by
  unfold getList
  rw [runQuery_statement hpg table hlimit hoffset]
  split
  · rename_i result hresult
    split at hresult
    · cases hresult
    · rename_i hbound
      cases hresult
      rw [if_neg hbound]
      rfl
  · rename_i result hresult
    split at hresult
    · rename_i hbound
      cases hresult
      rw [if_pos hbound]
      simp only [buildResult, List.map_map]
      rfl
    · cases hresult

end AdequateApi.UsersListing
