import AdequateApi.AccountStore
import Mathlib.Data.List.Sublists

/-! Placeholders and parameters of the statements that `SQLBuilder` makes, over all sequences of
its calls, and of the two statements of `UsersRepository` whose parameters are kept by hand. -/
namespace AdequateApi.SqlPlaceholders
open StdString SqlBuilder SelectStatement UsersRepository AccountStore

/-! ### Tokens -/

/-- Each dollar sign with the digits behind it. -/
def tokens : Str → List Str
  | [] => []
  | c :: s => if c = '$' then ('$' :: s.takeWhile Char.isDigit) :: tokens s else tokens s

/-- The placeholders `$1` to `$k`. -/
def upTo (k : ℕ) : List Str := (List.range k).map fun i => placeholder (i + 1)

theorem upTo_succ (k : ℕ) : upTo (k + 1) = upTo k ++ [placeholder (k + 1)] := by
  simp [upTo, List.range_succ]

theorem tokens_eq_nil {s : Str} (h : '$' ∉ s) : tokens s = [] := by
  induction s with
  | nil => rfl
  | cons c s ih =>
    rw [List.mem_cons, not_or] at h
    rw [tokens, if_neg (Ne.symm h.1), ih h.2]

/-- Text that does not start with a digit leaves the tokens before it as they are. -/
theorem tokens_append {s t : Str} (ht : t.head?.any Char.isDigit = false) :
    tokens (s ++ t) = tokens s ++ tokens t := by
  induction s with
  | nil => rfl
  | cons c s ih =>
    have htake : (s ++ t).takeWhile Char.isDigit = s.takeWhile Char.isDigit := by
      cases t with
      | nil => rw [List.append_nil]
      | cons d t =>
        have hd : ¬ d.isDigit = true := by simpa using ht
        rw [List.takeWhile_append]
        split
        · rename_i hall
          rw [List.takeWhile_cons_of_neg hd, List.append_nil]
          exact ((List.takeWhile_prefix _).eq_of_length hall).symm
        · rfl
    rw [List.cons_append, tokens, tokens, htake, ih]
    split <;> rfl

theorem tokens_placeholder (i : ℕ) : tokens (placeholder i) = [placeholder i] := by
  have hdollar : '$' ∉ Nat.toDigits 10 i := fun h => isDigit_ne (toDigits_isDigit i _ h) rfl rfl
  rw [placeholder, tokens, if_pos rfl, to_string_natCast, takeWhile_toDigits,
    tokens_eq_nil hdollar]

/-- A placeholder between texts without a dollar sign. -/
theorem tokens_around (i : ℕ) {s before after : Str} (hbefore : '$' ∉ before)
    (hstart : before.head?.any Char.isDigit = false) (hafter : '$' ∉ after)
    (hend : after.head?.any Char.isDigit = false) :
    tokens (s ++ (before ++ (placeholder i ++ after))) = tokens s ++ [placeholder i] := by
  have hdollar : (placeholder i ++ after).head?.any Char.isDigit = false := rfl
  have hhead : (before ++ (placeholder i ++ after)).head?.any Char.isDigit = false := by
    cases before with
    | nil => exact hdollar
    | cons c before => exact hstart
  rw [tokens_append hhead, tokens_append hdollar, tokens_append hend, tokens_eq_nil hbefore,
    tokens_placeholder, tokens_eq_nil hafter, List.nil_append, List.append_nil]

/-! ### Calls -/

/-- The value of a `where` or of an element of `whereAny`: a string or an integer. -/
inductive Arg
  | text (s : Str)
  | number (n : ℤ)
  deriving DecidableEq, Repr

def Arg.toString : Arg → Str
  | .text s => s
  | .number n => to_string n

inductive Call
  | where_ (expr : Str) (value : Arg)
  | whereAny (expr cast : Str) (values : List Arg)
  | orderBy (fieldName : Str)
  | limit (n : Option ℕ)
  | offset (n : Option ℕ)
  | exists_
  deriving DecidableEq, Repr

namespace Call

def apply (qb : SQLBuilder) : Call → SQLBuilder
  | .where_ expr value => qb.where_ expr value.toString
  | .whereAny expr cast values => qb.whereAny expr cast (values.map Arg.toString)
  | .orderBy fieldName => qb.orderBy fieldName
  | .limit n => qb.limit n
  | .offset n => qb.offset n
  | .exists_ => qb.exists_

def names : Call → List Str
  | .where_ expr _ => [expr]
  | .whereAny expr cast _ => [expr, cast]
  | .orderBy fieldName => [fieldName]
  | _ => []

/-- The text of the value of a call that emits a placeholder. -/
def text : Call → Option Str
  | .where_ _ value => some value.toString
  | .whereAny _ _ values =>
      if values = [] then none else some (arrayToPg (values.map Arg.toString))
  | .limit n | .offset n => n.map fun n => to_string n
  | _ => none

end Call

/-- How a statement starts. -/
inductive Start
  | select (fields : List Str)
  | remove
  deriving DecidableEq, Repr

namespace Start

def apply (table : Str) : Start → SQLBuilder
  | .select fields => (SQLBuilder.create table).select fields
  | .remove => (SQLBuilder.create table).remove

def names : Start → List Str
  | .select fields => fields
  | .remove => []

end Start

def run (qb : SQLBuilder) (calls : List Call) : SQLBuilder := calls.foldl Call.apply qb

/-! ### One call, and all of them -/

/-- The counter and the parameters, and the placeholders in the text, go together. -/
structure Aligned (qb : SQLBuilder) : Prop where
  index : qb.index = qb.params.length
  tokens : SqlPlaceholders.tokens qb.sql = upTo qb.params.length

/-- What one call does to the placeholders and the parameters. -/
def Emits (qb next : SQLBuilder) : Option Str → Prop
  | none => tokens next.sql = tokens qb.sql ∧ next.params = qb.params
  | some value => tokens next.sql = tokens qb.sql ++ [placeholder (qb.params.length + 1)] ∧
      next.params = qb.params ++ [some value]

theorem join_dollar {names : List Str} (h : ∀ name ∈ names, '$' ∉ name) : '$' ∉ join names := by
  induction names with
  | nil => exact List.not_mem_nil
  | cons name names ih =>
    have hname := h name List.mem_cons_self
    have hrest := ih fun n hn => h n (List.mem_cons_of_mem name hn)
    cases names with
    | nil => simpa [join] using hname
    | cons n names => simpa [join, hname] using hrest

theorem Start.aligned {table : Str} {start : Start} (htable : '$' ∉ table)
    (hnames : ∀ name ∈ start.names, '$' ∉ name) : Aligned (start.apply table) := by
  have hdollar : '$' ∉ (start.apply table).sql ∧ (start.apply table).params = [] ∧
      (start.apply table).index = 0 := by
    cases start with
    | select fields =>
      simp only [Start.apply, SQLBuilder.select]
      split
      · exact ⟨by simp [SQLBuilder.create, htable], rfl, rfl⟩
      · have hjoin : '$' ∉ join fields := join_dollar hnames
        exact ⟨by simp [SQLBuilder.create, htable, hjoin], rfl, rfl⟩
    | remove =>
      exact ⟨by simp [Start.apply, SQLBuilder.remove, SQLBuilder.create, htable], rfl, rfl⟩
  obtain ⟨hsql, hparams, hindex⟩ := hdollar
  constructor
  · rw [hindex, hparams]
    rfl
  · rw [tokens_eq_nil hsql, hparams]
    rfl

/-- Text behind the statement, with the next placeholder inside it. -/
theorem emits_snoc {qb next : SQLBuilder} (h : Aligned qb) (before after : Str) {value : Str}
    (hsql : next.sql = qb.sql ++ (before ++ (placeholder (qb.index + 1) ++ after)))
    (hparams : next.params = qb.params ++ [some value])
    (hbefore : '$' ∉ before) (hstart : before.head?.any Char.isDigit = false)
    (hafter : '$' ∉ after) (hend : after.head?.any Char.isDigit = false) :
    Emits qb next (some value) := by
  rw [h.index] at hsql
  refine ⟨?_, hparams⟩
  rw [hsql, tokens_around _ hbefore hstart hafter hend]

/-- The keyword before a condition. -/
def keyword (qb : SQLBuilder) : Str := if qb.hasWhere then " AND ".toList else " WHERE ".toList

theorem keyword_dollar (qb : SQLBuilder) : '$' ∉ keyword qb := by
  unfold keyword
  split <;> decide

theorem keyword_head (qb : SQLBuilder) (s : Str) :
    (keyword qb ++ s).head?.any Char.isDigit = false := by
  unfold keyword
  split <;> rfl

theorem not_mem_append {s t : Str} {c : Char} (hs : c ∉ s) (ht : c ∉ t) : c ∉ s ++ t :=
  fun h => (List.mem_append.mp h).elim hs ht

theorem Call.emits {qb : SQLBuilder} {c : Call} (h : Aligned qb)
    (hnames : ∀ name ∈ c.names, '$' ∉ name) : Emits qb (c.apply qb) c.text := by
  cases c with
  | where_ expr value =>
    have hexpr := hnames expr List.mem_cons_self
    refine emits_snoc h (keyword qb ++ (expr ++ " = ".toList)) [] ?_ rfl
      (not_mem_append (keyword_dollar qb) (not_mem_append hexpr (by decide)))
      (keyword_head qb _) List.not_mem_nil rfl
    simp only [Call.apply, SQLBuilder.where_, keyword, List.append_assoc, List.append_nil]
  | whereAny expr cast values =>
    have hexpr := hnames expr List.mem_cons_self
    have hcast := hnames cast (List.mem_cons_of_mem _ List.mem_cons_self)
    by_cases hvalues : values = []
    · subst hvalues
      exact ⟨rfl, rfl⟩
    · have hmap : values.map Arg.toString ≠ [] := by simpa using hvalues
      rw [Call.text, if_neg hvalues, Call.apply, SQLBuilder.whereAny, if_neg hmap]
      refine emits_snoc h (keyword qb ++ (expr ++ " = ANY(".toList))
        ("::".toList ++ (cast ++ "[])".toList)) ?_ rfl
        (not_mem_append (keyword_dollar qb) (not_mem_append hexpr (by decide)))
        (keyword_head qb _) (not_mem_append (by decide) (not_mem_append hcast (by decide))) rfl
      simp only [keyword, List.append_assoc]
  | orderBy fieldName =>
    have hname := hnames fieldName List.mem_cons_self
    refine ⟨?_, rfl⟩
    rw [Call.apply, SQLBuilder.orderBy, List.append_assoc, tokens_append rfl,
      tokens_eq_nil (not_mem_append (by decide) hname), List.append_nil]
  | limit n =>
    cases n with
    | none => exact ⟨rfl, rfl⟩
    | some n =>
      refine emits_snoc h " LIMIT ".toList "::int".toList ?_ rfl (by decide) rfl (by decide) rfl
      simp only [Call.apply, SQLBuilder.limit, List.append_assoc]
  | offset n =>
    cases n with
    | none => exact ⟨rfl, rfl⟩
    | some n =>
      refine emits_snoc h " OFFSET ".toList "::int".toList ?_ rfl (by decide) rfl (by decide) rfl
      simp only [Call.apply, SQLBuilder.offset, List.append_assoc]
  | exists_ =>
    refine ⟨?_, rfl⟩
    -- the text in the brackets may start with anything, so their tokens are taken one by one
    have hopen (s : Str) : tokens ("SELECT EXISTS(".toList ++ s) = tokens s := rfl
    have hclose : tokens ")".toList = [] := rfl
    rw [Call.apply, SQLBuilder.exists_, List.append_assoc, hopen, tokens_append rfl, hclose,
      List.append_nil]

/-- The counter advances with the parameters. -/
theorem Call.apply_index (qb : SQLBuilder) (c : Call) :
    (c.apply qb).index + qb.params.length = qb.index + (c.apply qb).params.length := by
  have hpush (v : Str) : (qb.params ++ [some v]).length = qb.params.length + 1 := by simp
  cases c with
  | where_ expr value =>
    simp only [Call.apply, SQLBuilder.where_, hpush]
    omega
  | whereAny expr cast values =>
    simp only [Call.apply, SQLBuilder.whereAny]
    split
    · rfl
    · simp only [hpush]
      omega
  | orderBy fieldName => rfl
  | limit n =>
    cases n with
    | none => rfl
    | some n =>
      simp only [Call.apply, SQLBuilder.limit, hpush]
      omega
  | offset n =>
    cases n with
    | none => rfl
    | some n =>
      simp only [Call.apply, SQLBuilder.offset, hpush]
      omega
  | exists_ => rfl

theorem Aligned.call {qb : SQLBuilder} {c : Call} (h : Aligned qb)
    (hnames : ∀ name ∈ c.names, '$' ∉ name) : Aligned (c.apply qb) := by
  have hindex := c.apply_index qb
  have hbefore := h.index
  have hemits := Call.emits h hnames
  refine ⟨by omega, ?_⟩
  cases htext : c.text with
  | none =>
    rw [htext] at hemits
    rw [hemits.1, hemits.2, h.tokens]
  | some value =>
    rw [htext] at hemits
    rw [hemits.1, hemits.2, h.tokens, List.length_append, List.length_singleton, upTo_succ]

theorem Aligned.run {calls : List Call} {qb : SQLBuilder} (h : Aligned qb)
    (hnames : ∀ c ∈ calls, ∀ name ∈ c.names, '$' ∉ name) :
    Aligned (run qb calls) ∧
      (run qb calls).params = qb.params ++ (calls.filterMap Call.text).map some := by
  induction calls generalizing qb with
  | nil => exact ⟨h, by simp [SqlPlaceholders.run]⟩
  | cons c calls ih =>
    have hc := hnames c List.mem_cons_self
    obtain ⟨haligned, hparams⟩ := ih (h.call hc) fun d hd => hnames d (List.mem_cons_of_mem c hd)
    have hemits := Call.emits h hc
    refine ⟨haligned, hparams.trans ?_⟩
    cases htext : c.text with
    | none =>
      rw [htext] at hemits
      rw [hemits.2, List.filterMap_cons_none htext]
    | some value =>
      rw [htext] at hemits
      rw [hemits.2, List.filterMap_cons_some htext, List.map_cons, List.append_assoc]
      rfl

/-! ### The statements of the repository -/

/-- How often a text occurs in another. -/
def occurrences (needle hay : Str) : ℕ := hay.tails.countP needle.isPrefixOf

/-- What an entity has in a column. -/
def column (entity : UserEntity) (field : Str) : Option Str :=
  if field = "email".toList then entity.email
  else if field = "username".toList then entity.username
  else if field = "password".toList then entity.password
  else if field = "picture".toList then entity.picture
  else none

/-- The columns that `update` can set, in its order. -/
def updateFields : List Str :=
  ["email".toList, "username".toList, "password".toList, "picture".toList]

/-- Some column of the entity has a text that is not empty. -/
def Named (entity : UserEntity) : Prop :=
  ∃ field ∈ updateFields, ∃ value, column entity field = some value ∧ value ≠ []

/-- The columns whose text is not empty. -/
def setFields (entity : UserEntity) : List Str :=
  updateFields.filter fun field => (given (column entity field)).isSome

theorem sets_eq (entity : UserEntity) :
    (sets entity).map Prod.fst = setFields entity ∧
      (sets entity).map (fun e => some e.2) = (setFields entity).map (column entity) := by
  have hsets : sets entity = updateFields.filterMap fun field =>
      (given (column entity field)).map fun value => (field, value) := rfl
  rw [hsets, setFields]
  induction updateFields with
  | nil => exact ⟨rfl, rfl⟩
  | cons field fields ih =>
    cases hgiven : given (column entity field) with
    | none =>
      rw [List.filterMap_cons_none (by rw [hgiven]; rfl),
        List.filter_cons_of_neg (by simp [hgiven])]
      exact ih
    | some value =>
      have hcolumn : column entity field = some value := (Option.filter_eq_some_iff.mp hgiven).1
      rw [List.filterMap_cons_some (by rw [hgiven]; rfl),
        List.filter_cons_of_pos (by simp [hgiven])]
      simp only [List.map_cons, ih.1, ih.2, hcolumn, and_self]

theorem setFields_ne_nil {entity : UserEntity} (h : Named entity) : setFields entity ≠ [] := by
  obtain ⟨field, hfield, value, hcolumn, hvalue⟩ := h
  refine List.ne_nil_of_mem (List.mem_filter.mpr ⟨hfield, ?_⟩)
  simp [given, hcolumn, hvalue]

/-- The text of the `UPDATE` for the columns `fields`. -/
def updateSql (fields : List Str) : Str :=
  "UPDATE users SET ".toList ++
    join (fields.zipIdx.map fun f => f.1 ++ " = ".toList ++ placeholder (f.2 + 1)) ++
    " WHERE id = ".toList ++ placeholder (fields.length + 1) ++ " RETURNING id".toList

/-- Every choice of columns. -/
theorem updateSql_tokens {fields : List Str} (h : fields.Sublist updateFields) (hne : fields ≠ []) :
    tokens (updateSql fields) = upTo (fields.length + 1) ∧
      occurrences "WHERE".toList (updateSql fields) = 1 := by
  have hall : ∀ fields ∈ updateFields.sublists, fields ≠ [] →
      tokens (updateSql fields) = upTo (fields.length + 1) ∧
        occurrences "WHERE".toList (updateSql fields) = 1 := by
    decide +kernel
  exact hall fields (List.mem_sublists.mpr h) hne

theorem updateQuery_eq {entity : UserEntity} (h : Named entity) :
    ∃ q, updateQuery entity = .ok q ∧ q.sql = updateSql (setFields entity) ∧
      q.params = (setFields entity).map (column entity) ++ [some (to_string entity.id)] := by
  have hne := setFields_ne_nil h
  obtain ⟨hfields, hvalues⟩ := sets_eq entity
  unfold updateQuery SQLBuilder.update
  rw [hfields, hvalues, if_neg hne]
  refine ⟨_, rfl, ?_, rfl⟩
  have hwords (s t : Str) : s ++ " WHERE ".toList ++ "id".toList ++ " = ".toList ++ t =
      s ++ " WHERE id = ".toList ++ t := by
    rw [List.append_assoc, List.append_assoc, List.append_assoc, List.append_assoc s]
    rfl
  have hnumbers : (setFields entity).zipIdx.map (fun f => f.1 ++ " = ".toList ++
        placeholder ((SQLBuilder.create "users".toList).index + f.2 + 1)) =
      (setFields entity).zipIdx.map fun f => f.1 ++ " = ".toList ++ placeholder (f.2 + 1) := by
    simp only [SQLBuilder.create, Nat.zero_add]
  have hstart (t : Str) : [] ++ "UPDATE ".toList ++ "users".toList ++ " SET ".toList ++ t =
      "UPDATE users SET ".toList ++ t := rfl
  rw [hnumbers]
  dsimp only [SQLBuilder.where_, SQLBuilder.returning, SQLBuilder.create]
  rw [if_neg Bool.false_ne_true, hwords, hstart, Nat.zero_add,
    List.append_assoc _ " RETURNING ".toList]
  rfl

/-! ### Placeholders and parameters -/

/-- A sequence of calls: the tokens are `$1` to `$k` for `k` parameters, and a call with a value
adds the token whose parameter is the text of that value. -/
structure AlignedCalls (qb : SQLBuilder) (calls : List Call) : Prop where
  tokens : SqlPlaceholders.tokens (run qb calls).sql = upTo (run qb calls).params.length
  count : (run qb calls).params.length = (calls.filterMap Call.text).length
  silent : ∀ before c after, calls = before ++ c :: after → c.text = none →
    SqlPlaceholders.tokens (run qb (before ++ [c])).sql =
      SqlPlaceholders.tokens (run qb before).sql
  emitted : ∀ before c after value, calls = before ++ c :: after → c.text = some value →
    ∃ i, SqlPlaceholders.tokens (run qb (before ++ [c])).sql =
        SqlPlaceholders.tokens (run qb before).sql ++ [placeholder (i + 1)] ∧
      (run qb calls).params[i]? = some (some value)

theorem run_append (qb : SQLBuilder) (before : List Call) (c : Call) :
    run qb (before ++ [c]) = c.apply (run qb before) := by
  rw [run, run, List.foldl_append]
  rfl

theorem aligned_calls {table : Str} {start : Start} {calls : List Call} (htable : '$' ∉ table)
    (hstart : ∀ name ∈ start.names, '$' ∉ name)
    (hcalls : ∀ c ∈ calls, ∀ name ∈ c.names, '$' ∉ name) :
    AlignedCalls (start.apply table) calls := by
  have hzero : (start.apply table).params = [] := by
    cases start with
    | select fields =>
      simp only [Start.apply, SQLBuilder.select]
      split <;> rfl
    | remove => rfl
  have hfirst := Start.aligned htable hstart
  obtain ⟨haligned, hparams⟩ := hfirst.run hcalls
  have hbefore : ∀ before c after, calls = before ++ c :: after →
      Emits (run (start.apply table) before) (run (start.apply table) (before ++ [c])) c.text ∧
        (run (start.apply table) before).params = (before.filterMap Call.text).map some := by
    intro before c after he
    subst he
    obtain ⟨hstarted, hvalues⟩ := hfirst.run fun d hd =>
      hcalls d (List.mem_append_left _ hd)
    rw [hzero, List.nil_append] at hvalues
    rw [run_append]
    exact ⟨Call.emits hstarted (hcalls c (by simp)), hvalues⟩
  rw [hzero, List.nil_append] at hparams
  refine ⟨haligned.tokens, by rw [hparams, List.length_map], ?_, ?_⟩
  · intro before c after he htext
    have hemits := (hbefore before c after he).1
    rw [htext] at hemits
    exact hemits.1
  · intro before c after value he htext
    obtain ⟨hemits, hvalues⟩ := hbefore before c after he
    rw [htext] at hemits
    refine ⟨_, hemits.1, ?_⟩
    rw [hparams, hvalues, he, List.filterMap_append, List.filterMap_cons_some htext]
    simp

/-- `create`: the inserted fields, in order, take the placeholders of their values. -/
structure InsertBinds (entity : UserEntity) (q : Statement) : Prop where
  sql : q.sql = "INSERT INTO users(".toList ++ join insertFields ++ ") VALUES (".toList ++
    join (upTo insertFields.length) ++ ") RETURNING id".toList
  tokens : SqlPlaceholders.tokens q.sql = upTo q.params.length
  params : q.params = insertFields.map (column entity)

/-- `update`: each assignment takes the placeholder of the value of its field, and `WHERE` the one
of the id. -/
structure UpdateBinds (entity : UserEntity) (q : Query) : Prop where
  sql : q.sql = updateSql (setFields entity)
  tokens : SqlPlaceholders.tokens q.sql = upTo q.params.length
  params : q.params = (setFields entity).map (column entity) ++ [some (to_string entity.id)]
  one_where : occurrences "WHERE".toList q.sql = 1

theorem insert_binds (entity : UserEntity) : InsertBinds entity (inserting entity) := by
  have hsql : "INSERT INTO users(username,email,password) VALUES ($1,$2,$3) RETURNING id".toList =
      "INSERT INTO users(".toList ++ join insertFields ++ ") VALUES (".toList ++
        join (upTo insertFields.length) ++ ") RETURNING id".toList := by
    decide +kernel
  have htokens : tokens
      "INSERT INTO users(username,email,password) VALUES ($1,$2,$3) RETURNING id".toList =
        upTo 3 := by
    decide +kernel
  exact ⟨hsql, htokens, rfl⟩

theorem update_binds {entity : UserEntity} (h : Named entity) :
    ∃ q, updateQuery entity = .ok q ∧ UpdateBinds entity q := by
  obtain ⟨q, hq, hsql, hparams⟩ := updateQuery_eq h
  obtain ⟨htokens, hwhere⟩ := updateSql_tokens (List.filter_sublist (l := updateFields))
    (setFields_ne_nil h)
  refine ⟨q, hq, hsql, ?_, hparams, hsql ▸ hwhere⟩
  rw [hsql, hparams, List.length_append, List.length_map, List.length_singleton]
  exact htokens

theorem placeholders_aligned {table : Str} {start : Start} {calls : List Call}
    {entity : UserEntity} (htable : '$' ∉ table)
    (hstart : ∀ name ∈ start.names, '$' ∉ name)
    (hcalls : ∀ c ∈ calls, ∀ name ∈ c.names, '$' ∉ name) (hentity : Named entity) :
    AlignedCalls (start.apply table) calls ∧
      (∃ q, insertStatement entity = .ok q ∧ InsertBinds entity q) ∧
      ∃ q, updateQuery entity = .ok q ∧ UpdateBinds entity q :=
  ⟨aligned_calls htable hstart hcalls,
    ⟨inserting entity, insertStatement_eq entity, insert_binds entity⟩, update_binds hentity⟩

/-- Two usernames and a window, inside `EXISTS`, and an entity with a new password. -/
theorem placeholders_aligned_sample :
    AlignedCalls ((Start.select ["id".toList]).apply "users".toList)
        [.whereAny "id".toList "bigint".toList [],
          .whereAny "username".toList "text".toList [.text "$9".toList, .text "bob".toList],
          .limit none, .offset (some 20), .exists_] ∧
      (∃ q, insertStatement ⟨7, none, none, none, some "secret".toList⟩ = .ok q ∧
        InsertBinds ⟨7, none, none, none, some "secret".toList⟩ q) ∧
      ∃ q, updateQuery ⟨7, none, none, none, some "secret".toList⟩ = .ok q ∧
        UpdateBinds ⟨7, none, none, none, some "secret".toList⟩ q :=
  placeholders_aligned (by decide) (by decide) (by decide)
    ⟨"password".toList, by decide, "secret".toList, rfl, by decide⟩

end AdequateApi.SqlPlaceholders
