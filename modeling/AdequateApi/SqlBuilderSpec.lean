import AdequateApi.PostgresSelect
import AdequateApi.SqlBuilder

/-! The `SELECT` that a sequence of `SQLBuilder` calls amounts to. Each call of `where` or
`whereAny` with values adds a clause with the next placeholder, and its value. -/
namespace AdequateApi.SqlBuilder
open StdString SelectStatement PostgresSelect

/-- A `where` call, or a `whereAny` call with its element type; `value` is the parameter. -/
structure Clause where
  column : Str
  element : Option SqlType
  value : Str
  deriving DecidableEq, Repr

def Clause.condition (c : Clause) (n : ℕ) : Condition :=
  ⟨c.column, match c.element with
    | none => .param n
    | some t => .any n t⟩

/-- Clauses with placeholders counted from `n`. -/
def numbered : ℕ → List Clause → List Condition
  | _, [] => []
  | n, c :: cs => c.condition n :: numbered (n + 1) cs

theorem numbered_append (n : ℕ) (cs ds : List Clause) :
    numbered n (cs ++ ds) = numbered n cs ++ numbered (n + cs.length) ds := by
  induction cs generalizing n with
  | nil => rfl
  | cons c cs ih =>
    rw [List.cons_append, numbered, ih, numbered, List.cons_append, List.length_cons,
      Nat.add_right_comm, Nat.add_assoc]

theorem intercalate_append (d : Char) {vs ws : List Str} (hv : vs ≠ []) (hw : ws ≠ []) :
    [d].intercalate (vs ++ ws) = [d].intercalate vs ++ d :: [d].intercalate ws := by
  induction vs with
  | nil => exact absurd rfl hv
  | cons v vs ih =>
    cases vs with
    | nil => simp [List.intercalate_cons_of_ne_nil hw]
    | cons u vs => simpa using ih (by simp)

theorem whereWords_snoc (cs : List Condition) (c : Condition) :
    whereWords (cs ++ [c]) =
      whereWords cs ++ (if cs = [] then "WHERE".toList else "AND".toList) :: c.words := by
  cases cs with
  | nil => simp [whereWords]
  | cons d ds => simp [whereWords]

/-- The builder holds a `SELECT` of the clauses, nothing after them yet. -/
structure Built (fields : List Str) (table : Str) (cs : List Clause) (qb : SQLBuilder) :
    Prop where
  tableName : qb.tableName = table
  sql : qb.sql = Select.text ⟨fields, table, numbered 1 cs, none, none, none⟩
  hasWhere : qb.hasWhere = !cs.isEmpty
  params : qb.params = cs.map fun c => some c.value
  index : qb.index = cs.length

variable {fields : List Str} {table : Str} {cs : List Clause} {qb : SQLBuilder}

theorem built_select (table : Str) (h : fields ≠ []) :
    Built fields table [] ((SQLBuilder.create table).select fields) := by
  unfold SQLBuilder.select
  rw [if_neg h]
  refine ⟨rfl, ?_, rfl, rfl, rfl⟩
  simp [SQLBuilder.create, Select.text, Select.words, numbered, whereWords, orderWords, countWords,
    join]

/-- One more clause in the text. -/
theorem text_snoc (c : Clause) :
    Select.text ⟨fields, table, numbered 1 (cs ++ [c]), none, none, none⟩ =
      Select.text ⟨fields, table, numbered 1 cs, none, none, none⟩ ++
        (if cs = [] then " WHERE ".toList else " AND ".toList) ++ c.column ++ " = ".toList ++
        (c.condition (cs.length + 1)).operand.word := by
  have hnil : numbered 1 cs = [] ↔ cs = [] := by cases cs <;> simp [numbered]
  have hnum : numbered 1 (cs ++ [c]) = numbered 1 cs ++ [c.condition (cs.length + 1)] := by
    rw [numbered_append, Nat.add_comm]
    rfl
  simp only [Select.text, Select.words, hnum, whereWords_snoc, orderWords, countWords,
    List.append_nil, hnil]
  rw [← List.append_assoc, intercalate_append ' ' (by simp) (by simp)]
  split <;> simp [Condition.words, Clause.condition]

/-- How a call that emits a clause leaves the builder. -/
theorem Built.snoc (h : Built fields table cs qb) (c : Clause) :
    Built fields table (cs ++ [c]) { qb with
      sql := qb.sql ++ (if qb.hasWhere then " AND ".toList else " WHERE ".toList) ++ c.column ++
        " = ".toList ++ (c.condition (qb.index + 1)).operand.word
      hasWhere := true
      params := qb.params ++ [some c.value]
      index := qb.index + 1 } := by
  have hif : (if qb.hasWhere = true then " AND ".toList else " WHERE ".toList) =
      if cs = [] then " WHERE ".toList else " AND ".toList := by
    rw [h.hasWhere]
    cases cs <;> rfl
  constructor
  · exact h.tableName
  · rw [text_snoc, ← h.sql, ← h.index, ← hif]
  · cases cs <;> rfl
  · rw [h.params, List.map_append]
    rfl
  · rw [h.index, List.length_append]
    rfl

theorem Built.where_ (h : Built fields table cs qb) (expr value : Str) :
    Built fields table (cs ++ [⟨expr, none, value⟩]) (qb.where_ expr value) :=
  h.snoc ⟨expr, none, value⟩

/-- An empty list leaves the statement as it is. -/
theorem Built.whereAny (h : Built fields table cs qb) (expr : Str) (t : SqlType)
    (values : List Str) :
    Built fields table
      (cs ++ if values = [] then [] else [⟨expr, some t, arrayToPg values⟩])
      (qb.whereAny expr t.name values) := by
  unfold SQLBuilder.whereAny
  split
  · rwa [List.append_nil]
  · have hsnoc := h.snoc ⟨expr, some t, arrayToPg values⟩
    have hword : ∀ (kw : Str) (n : ℕ), qb.sql ++ kw ++ expr ++ " = ".toList ++
        (Clause.condition ⟨expr, some t, arrayToPg values⟩ n).operand.word =
        qb.sql ++ kw ++ expr ++ " = ANY(".toList ++ placeholder n ++ "::".toList ++ t.name ++
          "[])".toList := by
      intro kw n
      simp [Clause.condition, Operand.word, SqlType.arrayCast, dollar, placeholder]
    rw [hword] at hsnoc
    exact hsnoc

/-- The whole statement: clauses, order, and the window behind them. -/
def selectOf (fields : List Str) (table : Str) (cs : List Clause) (order : Str)
    (limit offset : Option ℕ) : Select where
  columns := fields
  table := table
  conditions := numbered 1 cs
  order := some order
  limit := limit.map fun _ => cs.length + 1
  offset := offset.map fun _ => cs.length + limit.toList.length + 1

def windowParams (limit offset : Option ℕ) : List (Option Str) :=
  (limit.toList ++ offset.toList).map fun n => some (to_string n)

theorem Built.finished (h : Built fields table cs qb) (order : Str) (limit offset : Option ℕ) :
    (((qb.orderBy order).limit limit).offset offset).sql =
        (selectOf fields table cs order limit offset).text ∧
      (((qb.orderBy order).limit limit).offset offset).params =
        (cs.map fun c => some c.value) ++ windowParams limit offset := by
  have hcut : ∀ ws : List Str, ws ≠ [] → [' '].intercalate (["SELECT".toList,
      [','].intercalate fields, "FROM".toList, table] ++ (whereWords (numbered 1 cs) ++ ws)) =
        qb.sql ++ ' ' :: [' '].intercalate ws := by
    intro ws hws
    rw [h.sql, Select.text, Select.words, ← List.append_assoc, intercalate_append ' ' (by simp) hws]
    simp [orderWords, countWords]
  constructor
  · rw [Select.text, Select.words, selectOf, hcut _ (by simp [orderWords])]
    cases limit <;> cases offset <;>
      simp [SQLBuilder.orderBy, SQLBuilder.limit, SQLBuilder.offset, orderWords, countWords,
        placeholder, dollar, h.index]
  · cases limit <;> cases offset <;>
      simp [SQLBuilder.orderBy, SQLBuilder.limit, SQLBuilder.offset, windowParams, h.params]

/-! ### The server's side -/

namespace Clause

def bound (pg : Postgres) (schema : Str → Option SqlType) (c : Clause) :
    Option (SqlType × List Value) :=
  PostgresSelect.bound pg schema [some c.value] (c.condition 1)

def holds (pg : Postgres) (schema : Str → Option SqlType) (cells : Str → Option Value)
    (c : Clause) : Bool :=
  PostgresSelect.holds pg schema [some c.value] cells (c.condition 1)

end Clause

section server

variable {pg : Postgres} {schema : Str → Option SqlType} {params : List (Option Str)}

theorem bound_condition (c : Clause) {n : ℕ} (h : params[n]? = some (some c.value)) :
    PostgresSelect.bound pg schema params (c.condition (n + 1)) = c.bound pg schema := by
  have harg : pg.argument params (n + 1) = pg.argument [some c.value] 1 := by
    simp [Postgres.argument, h]
  unfold Clause.bound PostgresSelect.bound Clause.condition
  cases c.element <;> simp only [Postgres.candidates, harg]

theorem holds_condition (cells : Str → Option Value) (c : Clause) {n : ℕ}
    (h : params[n]? = some (some c.value)) :
    PostgresSelect.holds pg schema params cells (c.condition (n + 1)) =
      c.holds pg schema cells := by
  have hb : PostgresSelect.bound pg schema params (c.condition (n + 1)) = c.bound pg schema :=
    bound_condition c h
  unfold Clause.holds PostgresSelect.holds
  rw [hb]
  rfl

/-- Each placeholder refers to the value of its own clause. -/
theorem map_numbered {β : Type} {f : Condition → β} {g : Clause → β}
    (hfg : ∀ (c : Clause) (n : ℕ), params[n]? = some (some c.value) → f (c.condition (n + 1)) = g c)
    (pre : List (Option Str)) {extra : List (Option Str)}
    (hp : params = pre ++ ((cs.map fun c => some c.value) ++ extra)) :
    (numbered (pre.length + 1) cs).map f = cs.map g := by
  induction cs generalizing pre with
  | nil => rfl
  | cons c cs ih =>
    have hc : params[pre.length]? = some (some c.value) := by simp [hp]
    have hrest := ih (pre ++ [some c.value]) (by simp [hp])
    rw [List.length_append, List.length_singleton] at hrest
    rw [numbered, List.map_cons, List.map_cons, hfg c _ hc, hrest]

end server

theorem numbers_numbered (n : ℕ) (cs : List Clause) :
    (numbered n cs).map (fun c => Operand.number c.operand) = List.range' n cs.length := by
  induction cs generalizing n with
  | nil => rfl
  | cons c cs ih =>
    have hhead : Operand.number (c.condition n).operand = n := by
      unfold Clause.condition
      cases c.element <;> rfl
    rw [numbered, List.map_cons, hhead, ih, List.length_cons, List.range'_succ]

theorem placeholders_selectOf (order : Str) (limit offset : Option ℕ) :
    (cs.map fun c => some c.value) ++ windowParams limit offset = [] ∨
      ((cs.map fun c => some c.value) ++ windowParams limit offset).length ∈
        placeholders (selectOf fields table cs order limit offset) := by
  unfold placeholders
  rw [selectOf, numbers_numbered]
  cases limit <;> cases offset <;> simp [windowParams, List.mem_range']
  cases cs with
  | nil => exact .inl rfl
  | cons c cs => exact .inr ⟨cs.length, Nat.lt_succ_self _, Nat.add_comm _ _⟩

theorem to_string_ascii (n : ℤ) : ∀ c ∈ to_string n, c.toNat < 128 ∧ c ≠ '\x00' := by
  intro c hc
  rcases to_string_chars hc with hd | rfl
  · refine ⟨?_, isDigit_ne hd rfl⟩
    simp only [Char.isDigit, Bool.and_eq_true, decide_eq_true_eq, ge_iff_le,
      UInt32.le_iff_toNat_le] at hd
    have hnine : '9'.val.toNat = 57 := rfl
    have hval : c.val.toNat = c.toNat := rfl
    omega
  · decide

theorem c_str_to_string (n : ℤ) : c_str (to_string n) = to_string n :=
  c_str_eq_self fun h => (to_string_ascii n _ h).2 rfl

/-- A count that fits the 32 bits of its cast is read as it was written. -/
theorem count_eq {pg : Postgres} (hpg : pg.Documented) {params : List (Option Str)} {m k : ℕ}
    (hp : params[k]? = some (some (to_string m))) (hm : m ≤ 2147483647) :
    pg.count params (some (k + 1)) = some (some m) := by
  have harg : pg.argument params (k + 1) = some (some (to_string m)) := by
    simp [Postgres.argument, hp, hpg.ascii _ (to_string_ascii m)]
  have hread := hpg.int4 m (by omega) (by omega)
  simp [Postgres.count, harg, hread]

section answer

variable {ρ : Type} {pg : Postgres} {rel : Relation ρ}

/-- What a statement of clauses answers, when the server takes their values. -/
theorem answer_selectOf (cs : List Clause) (hpg : pg.Documented) (rows : List ρ) {order : Str}
    {limit offset : Option ℕ} (hname : table = rel.name)
    (hfields : ∀ c ∈ fields, (rel.schema c).isSome) (horder : rel.schema order = some .bigint)
    (hlimit : ∀ n ∈ limit, n ≤ 2147483647) (hoffset : ∀ n ∈ offset, n ≤ 2147483647) :
    answer pg rel rows ((cs.map fun c => some c.value) ++ windowParams limit offset)
        (selectOf fields table cs order limit offset) =
      if ∀ c ∈ cs, (c.bound pg rel.schema).isSome then
        some ((window limit offset (sorted rel (some order)
          (rows.filter fun r => cs.all fun c => c.holds pg rel.schema (rel.cell r)))).map fun r =>
            fields.map fun c => (rel.cell r c).map pg.output)
      else none := by
  set params := (cs.map fun c => some c.value) ++ windowParams limit offset with hparams
  have hbound : (numbered 1 cs).map (PostgresSelect.bound pg rel.schema params) =
      cs.map fun c => c.bound pg rel.schema :=
    map_numbered (fun c n h => bound_condition c h) [] hparams
  have hholds : ∀ r, (numbered 1 cs).map (PostgresSelect.holds pg rel.schema params (rel.cell r)) =
      cs.map fun c => c.holds pg rel.schema (rel.cell r) := fun r =>
    map_numbered (fun c n h => holds_condition _ c h) [] hparams
  have hcount : pg.count params (limit.map fun _ => cs.length + 1) = some limit := by
    cases limit with
    | none => rfl
    | some n => exact count_eq hpg (by simp [hparams, windowParams]) (hlimit n rfl)
  have hcount' : pg.count params (offset.map fun _ => cs.length + limit.toList.length + 1) =
      some offset := by
    cases offset with
    | none => rfl
    | some n =>
      refine count_eq hpg ?_ (hoffset n rfl)
      cases limit <;> simp [hparams, windowParams]
  have hiff : Bound pg rel params (selectOf fields table cs order limit offset) ↔
      ∀ c ∈ cs, (c.bound pg rel.schema).isSome := by
    have hall : (∀ c ∈ numbered 1 cs, (PostgresSelect.bound pg rel.schema params c).isSome) ↔
        ∀ c ∈ cs, (c.bound pg rel.schema).isSome := by
      have hmaps := congrArg (fun l => ∀ o ∈ l, Option.isSome o = true) hbound
      simpa only [List.forall_mem_map, eq_iff_iff] using hmaps
    constructor
    · intro h
      exact hall.mp h.2.2.1
    · intro h
      refine ⟨hname, hfields, hall.mpr h, ?_, placeholders_selectOf order limit offset⟩
      rintro c ⟨⟩
      exact horder
  have hfilter : ∀ r, ((numbered 1 cs).all fun c => holds pg rel.schema params (rel.cell r) c) =
      cs.all fun c => c.holds pg rel.schema (rel.cell r) := by
    intro r
    have hmaps := congrArg (List.all · id) (hholds r)
    rw [List.all_map, List.all_map] at hmaps
    exact hmaps
  unfold answer
  simp only [hiff]
  split
  · simp only [selectOf, hcount, hcount', hfilter, Option.bind_some, Option.map_some]
  · rfl

end answer

/-! ### From the builder to the answer -/

/-- The clause as it arrives: its value up to the first NUL byte. -/
def Clause.sent (c : Clause) : Clause := { c with value := c_str c.value }

theorem numbered_sent (n : ℕ) (cs : List Clause) :
    numbered n (cs.map Clause.sent) = numbered n cs := by
  induction cs generalizing n with
  | nil => rfl
  | cons c cs ih =>
    rw [List.map_cons, numbered, ih, numbered]
    rfl

theorem numbered_column {n : ℕ} {d : Condition} (h : d ∈ numbered n cs) :
    ∃ c ∈ cs, d.column = c.column := by
  induction cs generalizing n with
  | nil => cases h
  | cons c cs ih =>
    rcases List.mem_cons.mp h with rfl | h
    · exact ⟨c, List.mem_cons_self, rfl⟩
    · obtain ⟨b, hb, he⟩ := ih h
      exact ⟨b, List.mem_cons_of_mem _ hb, he⟩

theorem selectOf_wellFormed (hne : fields ≠ []) (hfields : ∀ c ∈ fields, Name c)
    (htable : Name table) (hcs : ∀ c ∈ cs, Name c.column) {order : Str} (horder : Name order)
    (limit offset : Option ℕ) : (selectOf fields table cs order limit offset).WellFormed := by
  refine ⟨hne, hfields, htable, fun d hd => ?_, ?_⟩
  · obtain ⟨c, hc, he⟩ := numbered_column hd
    exact he ▸ hcs c hc
  · rintro c ⟨⟩
    exact horder

/-- The statement and parameters of a finished builder, sent as C strings. -/
theorem Built.served (h : Built fields table cs qb) {ρ : Type} {pg : Postgres}
    (hpg : pg.Documented) (rel : Relation ρ) (rows : List ρ) {order : Str} {limit offset : Option ℕ}
    (hwell : (selectOf fields table cs order limit offset).WellFormed)
    (hname : table = rel.name) (hfields : ∀ c ∈ fields, (rel.schema c).isSome)
    (horder : rel.schema order = some .bigint)
    (hlimit : ∀ n ∈ limit, n ≤ 2147483647) (hoffset : ∀ n ∈ offset, n ≤ 2147483647) :
    serve pg rel rows (c_str (((qb.orderBy order).limit limit).offset offset).sql)
        ((((qb.orderBy order).limit limit).offset offset).params.map fun p => p.map c_str) =
      if ∀ c ∈ cs, (c.sent.bound pg rel.schema).isSome then
        some (fields, (window limit offset (sorted rel (some order)
          (rows.filter fun r => cs.all fun c => c.sent.holds pg rel.schema (rel.cell r)))).map
            fun r => fields.map fun c => (rel.cell r c).map pg.output)
      else none := by
  obtain ⟨hsql, hparams⟩ := h.finished order limit offset
  have hsent : (((cs.map fun c => some c.value) ++ windowParams limit offset).map
      fun p => p.map c_str) =
        ((cs.map Clause.sent).map fun c => some c.value) ++ windowParams limit offset := by
    cases limit <;> cases offset <;>
      simp [windowParams, Clause.sent, c_str_to_string, Function.comp_def]
  have hselect : selectOf fields table (cs.map Clause.sent) order limit offset =
      selectOf fields table cs order limit offset := by
    simp only [selectOf, numbered_sent, List.length_map]
  have hanswer := answer_selectOf (cs.map Clause.sent) hpg rows hname hfields horder hlimit
    hoffset
  rw [hselect] at hanswer
  rw [serve, hsql, parse_text hwell, hparams, hsent, Option.bind_some, hanswer]
  simp only [List.forall_mem_map, List.all_map, Function.comp_def]
  split
  · rfl
  · rfl

end AdequateApi.SqlBuilder
