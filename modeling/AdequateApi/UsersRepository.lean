import AdequateApi.DbConnectionSpec
import AdequateApi.HttpMessages
import AdequateApi.SqlBuilder

/-! `UsersRepository` and the users table. A statement has its text, its parameters and the
change it makes; how the pool and the server deal with it is an input. -/
namespace AdequateApi.UsersRepository
open StdString DbConnection HttpMessages SqlBuilder SessionServer

structure UserEntity where
  id : ℤ
  username : Option Str
  email : Option Str
  picture : Option Str
  password : Option Str
  deriving DecidableEq, Repr

/-! ### The table -/

structure Row where
  username : Str
  picture : Option Str
  email : Option Str
  password : Option Str
  created_at : ℤ
  updated_at : ℤ
  deriving DecidableEq, Repr

/-- By primary key. -/
abbrev Table := ℤ → Option Row

def Row.assign (r : Row) (column value : Str) : Row :=
  if column = "username".toList then { r with username := value }
  else if column = "picture".toList then { r with picture := some value }
  else if column = "email".toList then { r with email := some value }
  else if column = "password".toList then { r with password := some value }
  else r

/-- What a statement does to the table. The trigger sets `updated_at`. -/
inductive Change
  | update (sets : List (Str × Str)) (id : ℤ)
  | delete (id : ℤ)
  deriving DecidableEq, Repr

def Row.update (r : Row) (sets : List (Str × Str)) (now : ℤ) : Row :=
  { sets.foldl (fun r e => r.assign e.1 e.2) r with updated_at := now }

def Change.apply (now : ℤ) (t : Table) : Change → Table
  | .update sets id => Function.update t id ((t id).map fun r => r.update sets now)
  | .delete id => Function.update t id none

/-! ### Queries -/

structure Query where
  sql : Str
  params : List (Option Str)
  change : Change
  deriving DecidableEq, Repr

/-- How `PgPool::query` ends. A failure may hide that the server carried the statement out,
at the given time. -/
inductive QueryAnswer
  | done (now : ℤ)
  | failed (e : PgError) (carried : Option ℤ)
  deriving DecidableEq, Repr

namespace QueryAnswer

def executed : QueryAnswer → Option ℤ
  | .done now => some now
  | .failed _ carried => carried

def result : QueryAnswer → Except Exn Unit
  | .done _ => .ok ()
  | .failed e _ => .error (Exn.ofPg e)

/-- The answer that one execution on a connection amounts to. -/
def ofExec {ε α : Type} (now : ℤ) (r : Exec ε α) : QueryAnswer :=
  match r.result with
  | .ok _ => .done now
  | .error e => .failed e (if r.carried then some now else none)

end QueryAnswer

def Query.run (q : Query) (t : Table) (a : QueryAnswer) : Table × Except Exn Unit :=
  (match a.executed with
    | some now => q.change.apply now t
    | none => t, a.result)

/-- A query on a fresh connection adds its change to what persists exactly when its answer
says so. -/
theorem Query.execParams_persists (q : Query) {c : PgConnection Change} (h : c.Fresh)
    (db : List Change) (a : ExecAnswers) (now : ℤ) :
    let r := c.execParams db ⟨q.sql, .data [q.change]⟩ q.params a
    r.db = db ++ if (QueryAnswer.ofExec now r).executed.isSome then [q.change] else [] := by
  intro r
  have hr : PgConnection.execParams c db ⟨q.sql, .data [q.change]⟩ q.params a = r := rfl
  have hran := execParams_ran c db ⟨q.sql, .data [q.change]⟩ q.params a
  obtain ⟨k₀, hk₀, _, hblock⟩ := h.ready
  rw [hr] at hran
  clear_value r
  cases hran with
  | done hk =>
    rw [hk₀] at hk
    cases hk
    rw [Session.execute_data_outside hblock]
    rfl
  | failed => simp [QueryAnswer.ofExec, QueryAnswer.executed]
  | lost _ hk =>
    rw [hk₀] at hk
    cases hk
    rw [Session.execute_data_outside hblock]
    rfl

/-! ### The repository -/

/-- A value takes part when it is present and not empty. -/
def given (value : Option Str) : Option Str := value.filter (· ≠ [])

def sets (entity : UserEntity) : List (Str × Str) :=
  [("email".toList, entity.email), ("username".toList, entity.username),
    ("password".toList, entity.password), ("picture".toList, entity.picture)].filterMap fun e =>
      (given e.2).map fun value => (e.1, value)

def updateQuery (entity : UserEntity) : Except Exn Query :=
  match (SQLBuilder.create "users".toList).update ((sets entity).map Prod.fst) with
  | .error e => .error (.std e)
  | .ok qb =>
      let qb := (qb.where_ "id".toList (to_string entity.id)).returning "id".toList
      .ok { sql := qb.sql
            params := (sets entity).map (fun e => some e.2) ++ [some (to_string entity.id)]
            change := .update ((sets entity).map fun e => (e.1, c_str e.2)) entity.id }

def removeQuery (id : ℤ) : Query :=
  let qb := (SQLBuilder.create "users".toList).remove.where_ "id".toList (to_string id)
  { sql := qb.sql, params := qb.params, change := .delete id }

def update (t : Table) (entity : UserEntity) (a : QueryAnswer) : Table × Except Exn Unit :=
  match updateQuery entity with
  | .error e => (t, .error e)
  | .ok q => q.run t a

def remove (t : Table) (id : ℤ) (a : QueryAnswer) : Table × Except Exn Unit :=
  (removeQuery id).run t a

/-! ### What the statements do -/

/-- A row after an update: the given values, and the time. -/
theorem Row.update_sets (r : Row) (user : UserEntity) (now : ℤ) :
    r.update ((sets user).map fun e => (e.1, c_str e.2)) now =
      { username := ((given user.username).map c_str).getD r.username
        picture := ((given user.picture).map c_str).or r.picture
        email := ((given user.email).map c_str).or r.email
        password := ((given user.password).map c_str).or r.password
        created_at := r.created_at
        updated_at := now } := by
  unfold sets Row.update
  simp only [List.filterMap_cons, List.filterMap_nil]
  cases given user.username <;> cases given user.picture <;> cases given user.email <;>
    cases given user.password <;> rfl

/-- The row already has every given value, and the time of the statement. -/
def Row.Holds (r : Row) (user : UserEntity) (now : ℤ) : Prop :=
  r.updated_at = now ∧ (∀ v, given user.username = some v → r.username = c_str v) ∧
    (∀ v, given user.picture = some v → r.picture = some (c_str v)) ∧
    (∀ v, given user.email = some v → r.email = some (c_str v)) ∧
    ∀ v, given user.password = some v → r.password = some (c_str v)

theorem Row.update_eq_self (r : Row) (user : UserEntity) (now : ℤ) :
    r.update ((sets user).map fun e => (e.1, c_str e.2)) now = r ↔ r.Holds user now := by
  have hname : ∀ (o : Option Str) (v : Str),
      (o.map c_str).getD v = v ↔ ∀ w, o = some w → v = c_str w := by
    intro o v
    cases o <;> simp [eq_comm]
  have hopt : ∀ (o v : Option Str),
      (o.map c_str).or v = v ↔ ∀ w, o = some w → v = some (c_str w) := by
    intro o v
    cases o <;> simp [eq_comm]
  rw [Row.update_sets]
  obtain ⟨username, picture, email, password, created_at, updated_at⟩ := r
  simp only [Row.mk.injEq, hname, hopt, Row.Holds, true_and]
  constructor
  · rintro ⟨h₁, h₂, h₃, h₄, h₅⟩
    exact ⟨h₅.symm, h₁, h₂, h₃, h₄⟩
  · rintro ⟨h₅, h₁, h₂, h₃, h₄⟩
    exact ⟨h₁, h₂, h₃, h₄, h₅.symm⟩

theorem sets_ne_nil {user : UserEntity} {v : Str} (h : given user.picture = some v) :
    sets user ≠ [] := by
  have hmem : ("picture".toList, v) ∈ sets user := by
    unfold sets
    rw [List.mem_filterMap]
    exact ⟨("picture".toList, user.picture), by simp, by simp [h]⟩
  exact List.ne_nil_of_mem hmem

theorem updateQuery_cases (user : UserEntity) :
    (sets user = [] ∧ ∃ e, updateQuery user = .error e) ∨
    (sets user ≠ [] ∧ ∃ q, updateQuery user = .ok q ∧
      q.change = .update ((sets user).map fun e => (e.1, c_str e.2)) user.id) := by
  unfold updateQuery SQLBuilder.update
  by_cases h : sets user = []
  · left
    rw [if_pos (by simp [h])]
    exact ⟨h, _, rfl⟩
  · right
    rw [if_neg (by simpa using h)]
    exact ⟨h, _, rfl, rfl⟩

/-- A statement that changes columns was not carried out, or found nothing to change. -/
def UpdateKeepsRow (users : Table) (user : UserEntity) (a : QueryAnswer) : Prop :=
  ∀ now r, a.executed = some now → users user.id = some r → r.Holds user now

theorem update_row (users : Table) (user : UserEntity) (a : QueryAnswer) :
    (update users user a).1 user.id = users user.id ↔
      (sets user ≠ [] → UpdateKeepsRow users user a) := by
  unfold update
  rcases updateQuery_cases user with ⟨hs, e, hq⟩ | ⟨hs, q, hq, hc⟩
  · simp [hq, hs]
  rw [hq]
  unfold UpdateKeepsRow
  cases hx : a.executed with
  | none => simp [Query.run, hx]
  | some now =>
    simp only [Query.run, hx, hc, Change.apply, Function.update_self]
    cases hr : users user.id with
    | none => simp
    | some r => simp [hs, Row.update_eq_self]

/-- A successful update of a row that is there. -/
theorem update_ok {users : Table} {user : UserEntity} {a : QueryAnswer} {r : Row}
    (hr : users user.id = some r) (hok : (update users user a).2 = .ok ()) :
    ∃ now, (update users user a).1 user.id =
      some (r.update ((sets user).map fun e => (e.1, c_str e.2)) now) := by
  unfold update at hok ⊢
  rcases updateQuery_cases user with ⟨_, e, hq⟩ | ⟨_, q, hq, hc⟩
  · rw [hq] at hok
    cases hok
  rw [hq] at hok ⊢
  cases a with
  | done now =>
    refine ⟨now, ?_⟩
    simp [Query.run, QueryAnswer.executed, hc, Change.apply, hr]
  | failed e carried => cases hok

theorem update_missing {users : Table} {user : UserEntity} (hr : users user.id = none)
    (a : QueryAnswer) : (update users user a).1 user.id = none := by
  have hkeeps : UpdateKeepsRow users user a := by
    intro now r _ h
    rw [hr] at h
    cases h
  rw [(update_row users user a).mpr fun _ => hkeeps, hr]

/-- A deletion was not carried out, or found no row. -/
def RemoveKeepsRow (users : Table) (id : ℤ) (a : QueryAnswer) : Prop :=
  a.executed = none ∨ users id = none

theorem remove_row (users : Table) (id : ℤ) (a : QueryAnswer) :
    (remove users id a).1 id = users id ↔ RemoveKeepsRow users id a := by
  unfold remove RemoveKeepsRow
  cases hx : a.executed with
  | none => simp [Query.run, hx]
  | some now => simp [Query.run, hx, removeQuery, Change.apply, eq_comm]

end AdequateApi.UsersRepository
