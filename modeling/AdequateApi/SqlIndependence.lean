import AdequateApi.SqlPlaceholders

/-! The text of a statement does not depend on the values it is built for. Two builders are
compared that were given different values, call by call. -/
namespace AdequateApi.SqlIndependence
open StdString HttpMessages SqlBuilder UserFilters UsersRepository UsersListing AccountStore
  SqlPlaceholders

/-- Two lists, or two strings, of which both are empty or none. -/
def SameEmpty {α : Type} (xs ys : List α) : Prop := xs = [] ↔ ys = []

theorem SameEmpty.map {α β : Type} {xs ys : List α} (h : SameEmpty xs ys) (f : α → β) :
    SameEmpty (xs.map f) (ys.map f) := by simpa [SameEmpty] using h

/-- Two optional values that are both present or both absent. -/
abbrev SamePresence {α : Type} : Option α → Option α → Prop := Option.Rel fun _ _ => True

/-! ### Two builders -/

/-- Builders that differ in their parameters at most. -/
structure SameText (qb other : SQLBuilder) : Prop where
  tableName : qb.tableName = other.tableName
  sql : qb.sql = other.sql
  hasWhere : qb.hasWhere = other.hasWhere
  index : qb.index = other.index

namespace SameText

variable {qb other : SQLBuilder}

theorem refl (qb : SQLBuilder) : SameText qb qb := ⟨rfl, rfl, rfl, rfl⟩

theorem where_ (h : SameText qb other) (expr value value' : Str) :
    SameText (qb.where_ expr value) (other.where_ expr value') where
  tableName := h.tableName
  sql := by
    dsimp only [SQLBuilder.where_]
    rw [h.sql, h.hasWhere, h.index]
  hasWhere := rfl
  index := congrArg (· + 1) h.index

theorem whereAny (h : SameText qb other) (expr cast : Str) {values values' : List Str}
    (hv : SameEmpty values values') :
    SameText (qb.whereAny expr cast values) (other.whereAny expr cast values') := by
  unfold SQLBuilder.whereAny
  by_cases hvalues : values = []
  · rw [if_pos hvalues, if_pos (hv.mp hvalues)]
    exact h
  · rw [if_neg hvalues, if_neg fun hvalues' => hvalues (hv.mpr hvalues'), h.sql, h.hasWhere,
      h.index, h.tableName]
    exact ⟨rfl, rfl, rfl, rfl⟩

theorem limit (h : SameText qb other) {n n' : Option ℕ} (hn : SamePresence n n') :
    SameText (qb.limit n) (other.limit n') := by
  cases hn with
  | none => exact h
  | some =>
    rw [SQLBuilder.limit, SQLBuilder.limit, h.sql, h.index, h.tableName, h.hasWhere]
    exact ⟨rfl, rfl, rfl, rfl⟩

theorem offset (h : SameText qb other) {n n' : Option ℕ} (hn : SamePresence n n') :
    SameText (qb.offset n) (other.offset n') := by
  cases hn with
  | none => exact h
  | some =>
    rw [SQLBuilder.offset, SQLBuilder.offset, h.sql, h.index, h.tableName, h.hasWhere]
    exact ⟨rfl, rfl, rfl, rfl⟩

theorem orderBy (h : SameText qb other) (fieldName : Str) :
    SameText (qb.orderBy fieldName) (other.orderBy fieldName) :=
  ⟨h.tableName, congrArg (· ++ " ORDER BY ".toList ++ fieldName) h.sql, h.hasWhere, h.index⟩

theorem exists_ (h : SameText qb other) : SameText qb.exists_ other.exists_ :=
  ⟨h.tableName, congrArg ("SELECT EXISTS(".toList ++ · ++ ")".toList) h.sql, h.hasWhere, h.index⟩

theorem returning (h : SameText qb other) (field : Str) :
    SameText (qb.returning field) (other.returning field) :=
  ⟨h.tableName, congrArg (· ++ " RETURNING ".toList ++ field) h.sql, h.hasWhere, h.index⟩

section elim

variable {α : Type} {R : α → α → Prop} {o o' : Option α}

/-- A condition for a value that may be absent. -/
theorem where_elim (h : SameText qb other) (ho : Option.Rel R o o') (expr : Str) (text : α → Str) :
    SameText (o.elim qb fun a => qb.where_ expr (text a))
      (o'.elim other fun a => other.where_ expr (text a)) := by
  cases ho with
  | none => exact h
  | some _ => exact h.where_ expr _ _

theorem whereAny_elim {o o' : Option (List α)} (h : SameText qb other)
    (ho : Option.Rel SameEmpty o o') (expr cast : Str) (text : α → Str) :
    SameText (o.elim qb fun values => qb.whereAny expr cast (values.map text))
      (o'.elim other fun values => other.whereAny expr cast (values.map text)) := by
  cases ho with
  | none => exact h
  | some hv => exact h.whereAny expr cast (hv.map text)

end elim

end SameText

/-! ### Sequences of calls -/

/-- The same call with other values. -/
inductive SameCall : Call → Call → Prop
  | where_ (expr : Str) (value value' : Arg) : SameCall (.where_ expr value) (.where_ expr value')
  | whereAny (expr cast : Str) {values values' : List Arg} (h : SameEmpty values values') :
      SameCall (.whereAny expr cast values) (.whereAny expr cast values')
  | orderBy (fieldName : Str) : SameCall (.orderBy fieldName) (.orderBy fieldName)
  | limit {n n' : Option ℕ} (h : SamePresence n n') : SameCall (.limit n) (.limit n')
  | offset {n n' : Option ℕ} (h : SamePresence n n') : SameCall (.offset n) (.offset n')
  | exists_ : SameCall .exists_ .exists_

theorem SameText.call {qb other : SQLBuilder} (h : SameText qb other) {c c' : Call}
    (hc : SameCall c c') : SameText (c.apply qb) (c'.apply other) := by
  cases hc with
  | where_ expr value value' => exact h.where_ expr _ _
  | whereAny expr cast hv => exact h.whereAny expr cast (hv.map Arg.toString)
  | orderBy fieldName => exact h.orderBy fieldName
  | limit hn => exact h.limit hn
  | offset hn => exact h.offset hn
  | exists_ => exact h.exists_

/-- Every two sequences of the same calls build the same text. -/
theorem SameText.run {calls calls' : List Call} (hcalls : List.Forall₂ SameCall calls calls')
    {qb other : SQLBuilder} (h : SameText qb other) :
    SameText (run qb calls) (run other calls') := by
  induction hcalls generalizing qb other with
  | nil => exact h
  | cons hc _ ih => exact ih (h.call hc)

/-! ### The repository -/

inductive RepositoryCall
  | getList (filters : UserListFilter)
  | getOne (filters : UserFilter)
  | exists_ (filters : UserFilter)
  | create (entity : UserEntity)
  | update (entity : UserEntity)
  | remove (id : Int64)
  deriving DecidableEq, Repr

/-- What a call hands to `PgPool::query`, or the exception that it throws before. -/
def RepositoryCall.query : RepositoryCall → Except Exn Statement
  | .getList filters => .ok ⟨(statement filters).sql, (statement filters).params⟩
  | .getOne filters => .ok (getOneStatement filters)
  | .exists_ filters => .ok (existsStatement filters)
  | .create entity => insertStatement entity
  | .update entity => (updateQuery entity).map fun q => ⟨q.sql, q.params⟩
  | .remove id => .ok ⟨(removeQuery id.toInt).sql, (removeQuery id.toInt).params⟩

structure SameListFilter (f g : UserListFilter) : Prop where
  id : SamePresence f.id g.id
  id__in : Option.Rel SameEmpty f.id__in g.id__in
  username : Option.Rel SameEmpty f.username g.username
  username__in : Option.Rel SameEmpty f.username__in g.username__in
  email : Option.Rel SameEmpty f.email g.email
  limit : SamePresence f.limit g.limit
  offset : SamePresence f.offset g.offset

structure SameFilter (f g : UserFilter) : Prop where
  id : SamePresence f.id g.id
  username : Option.Rel SameEmpty f.username g.username
  email : Option.Rel SameEmpty f.email g.email

structure SameEntity (e e' : UserEntity) : Prop where
  username : Option.Rel SameEmpty e.username e'.username
  email : Option.Rel SameEmpty e.email e'.email
  picture : Option.Rel SameEmpty e.picture e'.picture
  password : Option.Rel SameEmpty e.password e'.password

/-- Two calls of one function: the same values present, the same lists and strings empty. -/
inductive SamePattern : RepositoryCall → RepositoryCall → Prop
  | getList {f g : UserListFilter} (h : SameListFilter f g) : SamePattern (.getList f) (.getList g)
  | getOne {f g : UserFilter} (h : SameFilter f g) : SamePattern (.getOne f) (.getOne g)
  | exists_ {f g : UserFilter} (h : SameFilter f g) : SamePattern (.exists_ f) (.exists_ g)
  | create {e e' : UserEntity} (h : SameEntity e e') : SamePattern (.create e) (.create e')
  | update {e e' : UserEntity} (h : SameEntity e e') : SamePattern (.update e) (.update e')
  | remove (id id' : Int64) : SamePattern (.remove id) (.remove id')

theorem conditions_same {f g : UserListFilter} (h : SameListFilter f g) :
    SameText (conditions f) (conditions g) := by
  have hselect := SameText.refl ((SQLBuilder.create "users".toList).select fields)
  have hid := hselect.where_elim h.id "id".toList idText
  have hids := hid.whereAny_elim h.id__in "id".toList "bigint".toList idText
  have hnames := hids.whereAny_elim h.username__in "username".toList "text".toList id
  have hname := hnames.where_elim h.username "username".toList id
  have hemail := hname.where_elim h.email "email".toList id
  simp only [List.map_id_fun, id_eq] at hemail
  exact hemail

theorem statement_same {f g : UserListFilter} (h : SameListFilter f g) :
    SameText (statement f) (statement g) := by
  rw [statement_eq, statement_eq]
  exact (((conditions_same h).orderBy "id".toList).limit h.limit).offset h.offset

theorem getOneStatement_same {f g : UserFilter} (h : SameFilter f g) :
    (getOneStatement f).sql = (getOneStatement g).sql := by
  have hselect := SameText.refl ((SQLBuilder.create "users".toList).select getOneFields)
  have hemail := hselect.where_elim h.email "email".toList id
  have hone : SamePresence (some 1) (some 1) := .some trivial
  exact (hemail.limit hone).sql

theorem existsStatement_same {f g : UserFilter} (h : SameFilter f g) :
    (existsStatement f).sql = (existsStatement g).sql := by
  have hselect := SameText.refl ((SQLBuilder.create "users".toList).select ["1".toList])
  have hid := hselect.where_elim h.id "id".toList idText
  have hemail := hid.where_elim h.email "email".toList id
  exact hemail.exists_.sql

/-- Whether a value takes part in an update is part of the pattern. -/
theorem given_isSome {value value' : Option Str} (h : Option.Rel SameEmpty value value') :
    (given value).isSome = (given value').isSome := by
  cases h with
  | none => rfl
  | @some v v' hv =>
    by_cases hempty : v = []
    · simp [given, hempty, hv.mp hempty]
    · have hempty' : v' ≠ [] := fun h => hempty (hv.mpr h)
      simp [given, hempty, hempty']

theorem setFields_same {e e' : UserEntity} (h : SameEntity e e') : setFields e = setFields e' := by
  refine List.filter_congr fun field _ => given_isSome ?_
  unfold column
  split
  · exact h.email
  split
  · exact h.username
  split
  · exact h.password
  split
  · exact h.picture
  · exact .none

theorem updateQuery_same {e e' : UserEntity} (h : SameEntity e e') :
    (updateQuery e).map (fun q => q.sql) = (updateQuery e').map fun q => q.sql := by
  unfold updateQuery
  rw [(sets_eq e).1, (sets_eq e').1, setFields_same h]
  cases (SQLBuilder.create "users".toList).update (setFields e') with
  | error _ => rfl
  | ok qb =>
    have hwhere := ((SameText.refl qb).where_ "id".toList (to_string e.id) (to_string e'.id))
    exact congrArg Except.ok (hwhere.returning "id".toList).sql

/-- The values of a call leave no trace in the text of its statement. -/
theorem sql_independent {call call' : RepositoryCall} (h : SamePattern call call') :
    call.query.map Statement.sql = call'.query.map Statement.sql := by
  cases h with
  | getList h => exact congrArg Except.ok (statement_same h).sql
  | getOne h => exact congrArg Except.ok (getOneStatement_same h)
  | exists_ h => exact congrArg Except.ok (existsStatement_same h)
  | @create e e' h =>
    rw [RepositoryCall.query, RepositoryCall.query, insertStatement_eq, insertStatement_eq]
    rfl
  | @update e e' h =>
    have hmap (e : UserEntity) : (RepositoryCall.query (.update e)).map Statement.sql =
        (updateQuery e).map fun q => q.sql := by
      change ((updateQuery e).map fun q => (⟨q.sql, q.params⟩ : Statement)).map Statement.sql = _
      cases updateQuery e <;> rfl
    rw [hmap, hmap, updateQuery_same h]
  | remove id id' =>
    have hremove := SameText.refl (SQLBuilder.create "users".toList).remove
    exact congrArg Except.ok
      (hremove.where_ "id".toList (to_string id.toInt) (to_string id'.toInt)).sql

/-- A name that tries to end the statement, beside one that does not. -/
theorem sql_independent_quote :
    (RepositoryCall.query (.exists_ ⟨none, none, some "a@b.c".toList⟩)).map Statement.sql =
      (RepositoryCall.query (.exists_ ⟨none, none, some "'; DROP TABLE users; --".toList⟩)).map
        Statement.sql :=
  sql_independent (.exists_ ⟨.none, .none, .some (by simp [SameEmpty])⟩)

end AdequateApi.SqlIndependence
