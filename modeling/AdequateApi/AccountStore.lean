import AdequateApi.LoggedAction
import AdequateApi.UsersListing

/-! The users table with the constraints and the sequence of its migration, and the statements
of `UsersRepository` that create and find an account. -/
namespace AdequateApi.AccountStore
open StdString DbConnection HttpMessages SqlBuilder SelectStatement PostgresSelect UsersRepository
  UsersListing LoggedAction Action

/-! ### The logger -/

inductive LogLevel
  | DEBUG
  | INFO
  | WARN
  | ERR
  deriving DecidableEq, Repr

/-- A `std::any` of one of the types that the code hands over. -/
inductive LogValue
  | string (s : Str)
  | int (n : ℤ)
  | int64 (n : ℤ)
  | uint64 (n : ℕ)
  deriving DecidableEq, Repr

structure LogRecord where
  level : LogLevel
  msg : Str
  params : List (Str × LogValue)
  deriving DecidableEq, Repr

/-- The texts among the parameters of a call. -/
def texts (params : List (String × Str)) : List (Str × LogValue) :=
  params.map fun p => (p.1.toList, .string p.2)

def info (msg : String) (params : List (Str × LogValue) := []) : LogRecord :=
  ⟨.INFO, msg.toList, params⟩

def debug (msg : String) (params : List (Str × LogValue) := []) : LogRecord :=
  ⟨.DEBUG, msg.toList, params⟩

/-- A message that ends with a text of the run. -/
def debugText (msg : String) (text : Str) : LogRecord := ⟨.DEBUG, msg.toList ++ text, []⟩

def warnText (msg : String) (text : Str) : LogRecord := ⟨.WARN, msg.toList ++ text, []⟩

/-- `value_or("null")`. -/
def orNull (s : Option Str) : Str := s.getD "null".toList

abbrev Act (σ α : Type) := Action LogRecord σ Exn α

/-! ### The table -/

/-- A server that also has the two indexes on the e-mail address; `index_holds` tells whether
an entry of theirs takes a text. -/
structure AccountServer extends Postgres where
  index_holds : Str → Bool

/-- The rows, with what the migration says about them, and the next value of the sequence. -/
structure Accounts (db : AccountServer) extends UsersTable db.toPostgres where
  next_id : ℕ
  unique_email : users.Pairwise fun u v =>
    ∀ e ∈ u.row.email, ∀ f ∈ v.row.email, db.citext_equal e f = false

/-- The columns of an `INSERT`, as the server reads them. -/
structure NewUser where
  username : Option Str
  email : Option Str
  password : Option Str
  deriving DecidableEq, Repr

section table
variable {db : AccountServer}

/-- Every text is valid in the encoding of the database. -/
def NewUser.Encoded (db : AccountServer) (n : NewUser) : Prop :=
  ∀ value ∈ [n.username, n.email, n.password], ∀ text ∈ value, Storable db.toPostgres text

instance (db : AccountServer) (n : NewUser) : Decidable (n.Encoded db) :=
  have (s : Str) : Decidable (Storable db.toPostgres s) := inferInstanceAs (Decidable (_ ∧ _))
  have (value : Option Str) : Decidable (∀ text ∈ value, Storable db.toPostgres text) :=
    Option.decidableForallMem value
  inferInstanceAs (Decidable (∀ value ∈ _, _))

namespace Accounts

/-- The value the sequence gives next, as an id. -/
def nextId (s : Accounts db) : Int64 := Int64.ofNat s.next_id

def IdTaken (s : Accounts db) : Prop := ∃ u ∈ s.users, u.id = s.nextId

def EmailTaken (s : Accounts db) (email : Str) : Prop :=
  ∃ u ∈ s.users, ∃ e ∈ u.row.email, db.citext_equal e email = true

instance (s : Accounts db) : Decidable s.IdTaken := inferInstanceAs (Decidable (∃ u ∈ _, _))

instance (s : Accounts db) (email : Str) : Decidable (s.EmailTaken email) :=
  decidable_of_iff (∃ u ∈ s.users, u.row.email.any (fun e => db.citext_equal e email) = true)
    (by simp only [EmailTaken, Option.any_eq_true, Option.mem_def])

/-- The SQLSTATE with which a row is refused, in the order of the checks. -/
def violation (s : Accounts db) (n : NewUser) : Option Str :=
  if n.username = none then some "23502".toList
  else if s.IdTaken then some "23505".toList
  else if n.email.any fun e => !db.index_holds e then some "54000".toList
  else if ∃ e ∈ n.email, s.EmailTaken e then some "23505".toList
  else none

def advance (s : Accounts db) : Accounts db := { s with next_id := s.next_id + 1 }

def newRow (n : NewUser) (now : ℤ) : Row :=
  ⟨n.username.getD [], none, n.email, n.password, now, now⟩

theorem violation_none {s : Accounts db} {n : NewUser} (h : s.violation n = none) :
    n.username.isSome ∧ ¬ s.IdTaken ∧ (∀ e ∈ n.email, db.index_holds e = true) ∧
      ∀ e ∈ n.email, ¬ s.EmailTaken e := by
  unfold violation at h
  split at h
  · cases h
  rename_i hname
  split at h
  · cases h
  rename_i hid
  split at h
  · cases h
  rename_i hindex
  split at h
  · cases h
  rename_i hmail
  refine ⟨Option.isSome_iff_ne_none.mpr hname, hid, fun e he => ?_,
    fun e he htaken => hmail ⟨e, he, htaken⟩⟩
  rw [Option.mem_def.mp he] at hindex
  simpa using hindex

/-- The table with one row more. -/
def append (s : Accounts db) (n : NewUser) (now : ℤ) (henc : n.Encoded db)
    (h : s.violation n = none) : Accounts db where
  users := s.users ++ [⟨s.nextId, newRow n now⟩]
  primary := by
    obtain ⟨_, hid, _⟩ := violation_none h
    rw [List.map_append, List.map_singleton, List.nodup_append]
    refine ⟨s.primary, List.nodup_singleton _, ?_⟩
    rintro id hmem _ hlast rfl
    rw [List.mem_singleton.mp hlast] at hmem
    obtain ⟨u, hu, hu'⟩ := List.mem_map.mp hmem
    exact hid ⟨u, hu, hu'⟩
  texts := by
    intro u hu
    rcases List.mem_append.mp hu with hu | hu
    · exact s.texts u hu
    obtain ⟨hname, _⟩ := violation_none h
    obtain ⟨name, hname⟩ := Option.isSome_iff_exists.mp hname
    rw [List.mem_singleton.mp hu]
    simp only [newRow, hname, Option.getD_some]
    exact ⟨henc n.username (by simp) name hname, fun e he => henc n.email (by simp) e he⟩
  next_id := s.next_id + 1
  unique_email := by
    obtain ⟨_, _, _, hmail⟩ := violation_none h
    rw [List.pairwise_append]
    refine ⟨s.unique_email, List.pairwise_singleton _ _, ?_⟩
    intro u hu v hv e he f hf
    rw [List.mem_singleton.mp hv] at hf
    by_contra hne
    exact hmail f hf ⟨u, hu, e, he, by simpa using hne⟩

/-- `INSERT … RETURNING id`. The sequence keeps its step when the row is refused. -/
def insert (s : Accounts db) (n : NewUser) (now : ℤ) : Accounts db × Except PgError Int64 :=
  let refused := fun (state : Str) => PgError.db (map_sqlstate state) db.complaint
  if henc : n.Encoded db then
    if 9223372036854775807 < s.next_id then (s, .error (refused "2200H".toList))
    else
      match h : s.violation n with
      | some state => (s.advance, .error (refused state))
      | none => (s.append n now henc h, .ok s.nextId)
  else (s, .error (refused "22021".toList))

end Accounts

/-! ### Filters -/

structure UserFilter where
  id : Option Int64
  username : Option Str
  email : Option Str
  deriving DecidableEq, Repr

/-- The rows of a statement with the conditions of `UsersRepository::exists`. -/
def Selected (db : AccountServer) (f : UserFilter) (u : StoredUser) : Prop :=
  (∀ id ∈ f.id, u.id = id) ∧
    ∀ email ∈ f.email, u.row.email.any (fun e => db.citext_equal e (c_str email)) = true

instance (db : AccountServer) (f : UserFilter) : DecidablePred (Selected db f) := fun _ =>
  @instDecidableAnd _ _ (Option.decidableForallMem f.id) (Option.decidableForallMem f.email)

end table

/-! ### Statements -/

/-- The statement with its parameters. -/
structure Statement where
  sql : Str
  params : List (Option Str)
  deriving DecidableEq, Repr

def insertFields : List Str := ["username".toList, "email".toList, "password".toList]

def insertStatement (entity : UserEntity) : Except Exn Statement :=
  match (SQLBuilder.create "users".toList).insert insertFields with
  | .error e => .error (.std e)
  | .ok qb => .ok ⟨(qb.returning "id".toList).sql, [entity.username, entity.email, entity.password]⟩

/-- The columns of the statement, each parameter up to its first NUL. -/
def Statement.newUser (q : Statement) : NewUser :=
  let text := fun (i : ℕ) => (q.params.getD i none).map c_str
  ⟨text 0, text 1, text 2⟩

def existsStatement (filters : UserFilter) : Statement :=
  let qb := (SQLBuilder.create "users".toList).select ["1".toList]
  let qb := filters.id.elim qb fun id => qb.where_ "id".toList (idText id)
  let qb := filters.email.elim qb fun email => qb.where_ "email".toList email
  ⟨qb.exists_.sql, qb.params⟩

def getOneFields : List Str := fields ++ ["password".toList]

def getOneStatement (filters : UserFilter) : Statement :=
  let qb := (SQLBuilder.create "users".toList).select getOneFields
  let qb := filters.email.elim qb fun email => qb.where_ "email".toList email
  let qb := qb.limit (some 1)
  ⟨qb.sql, qb.params⟩

/-! ### The repository -/

section repository
variable {db : AccountServer}

/-- `stoll(result.rows[0].columns[0].data)` of the one row that `RETURNING` gives. -/
def returnedId (id : Int64) : Except Exn ℤ := (stoll (idText id)).mapError Exn.std

def create (entity : UserEntity) (now : ℤ) : Act (Accounts db) UserEntity := do
  record (info "UsersRepository::create: called" (texts
    [("email", orNull entity.email), ("username", orNull entity.username)]))
  let q ← lift (insertStatement entity)
  let id ← change fun s =>
    ((s.insert q.newUser now).1, (s.insert q.newUser now).2.mapError Exn.ofPg)
  let id ← lift (returnedId id)
  return { entity with id := id }

/-- Every text of the filter can be bound. -/
def bindable (db : AccountServer) (texts : List (Option Str)) : Bool :=
  texts.all fun text => text.all fun text => db.encoded (c_str text)

/-- `EXISTS` answers with one row, `t` or `f`. -/
def exists_ (filters : UserFilter) : Act (Accounts db) Bool :=
  change fun s =>
    if bindable db (existsStatement filters).params then
      (s, .ok (decide (∃ u ∈ s.users, Selected db filters u)))
    else (s, .error (.db .Unknown db.complaint))

/-- The first row, as `getList` reads one, with the password. A NULL password is read as the
empty text. -/
def getOne (filters : UserFilter) : Act (Accounts db) UserEntity :=
  change fun s =>
    if bindable db (getOneStatement filters).params then
      match s.users.find? fun u => Selected db { filters with id := none } u with
      | none => (s, .error (.validation "user_not_found".toList))
      | some u => (s, (entityOf (rowOf db.toPostgres u).columns).map fun user =>
          { user.toUserEntity with password := some (u.row.password.getD []) })
    else (s, .error (.db .Unknown db.complaint))

/-- The values of an entity that a new row takes. -/
def newUser (entity : UserEntity) : NewUser :=
  ⟨entity.username.map c_str, entity.email.map c_str, entity.password.map c_str⟩

/-- The statement that `insertStatement` builds. -/
def inserting (entity : UserEntity) : Statement where
  sql := "INSERT INTO users(username,email,password) VALUES ($1,$2,$3) RETURNING id".toList
  params := [entity.username, entity.email, entity.password]

theorem insertStatement_eq (entity : UserEntity) :
    insertStatement entity = .ok (inserting entity) := by
  rw [insertStatement]
  rfl

theorem inserting_newUser (entity : UserEntity) : (inserting entity).newUser = newUser entity := rfl

def createRecord (entity : UserEntity) : LogRecord :=
  info "UsersRepository::create: called"
    (texts [("email", orNull entity.email), ("username", orNull entity.username)])

theorem create_ok {entity : UserEntity} {now : ℤ} {s t : Accounts db} {id : Int64}
    (h : s.insert (newUser entity) now = (t, .ok id)) :
    create entity now s = ⟨[createRecord entity], t, .ok { entity with id := id.toInt }⟩ := by
  have hid : returnedId id = .ok id.toInt := by rw [returnedId, stoll_idText, Except.mapError]
  have hrow : ((s.insert (inserting entity).newUser now).1,
      (s.insert (inserting entity).newUser now).2.mapError Exn.ofPg) = (t, .ok id) := by
    rw [inserting_newUser, h]
    rfl
  rw [create, record_bind, insertStatement_eq, lift_ok_bind, change_ok_bind hrow, hid, lift_ok_bind]
  rfl

theorem create_error {entity : UserEntity} {now : ℤ} {s t : Accounts db} {e : PgError}
    (h : s.insert (newUser entity) now = (t, .error e)) :
    create entity now s = ⟨[createRecord entity], t, .error (Exn.ofPg e)⟩ := by
  have hrow : ((s.insert (inserting entity).newUser now).1,
      (s.insert (inserting entity).newUser now).2.mapError Exn.ofPg) =
        (t, .error (Exn.ofPg e)) := by
    rw [inserting_newUser, h]
    rfl
  rw [create, record_bind, insertStatement_eq, lift_ok_bind, change_error_bind hrow]
  rfl

end repository
end AdequateApi.AccountStore
