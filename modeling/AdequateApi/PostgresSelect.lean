import AdequateApi.SelectStatement
import Mathlib.Data.List.Sort

/-! What a PostgreSQL server answers to a `SELECT`. Parameters are read when the statement is
bound, so a text that a type does not take fails the statement whatever the rows are. -/
namespace AdequateApi.PostgresSelect
open StdString SelectStatement

/-- The parts of a server that depend on its version and settings. `encoded` tells whether a
text is valid in the client's encoding; `array_input` lists the elements of an array, `none`
for NULL, those of its inner arrays included, as `ANY` goes through them. -/
structure Postgres where
  encoded : Str → Bool
  bigint_input : Str → Option ℤ
  int4_input : Str → Option ℤ
  timestamptz_input : Str → Option ℤ
  array_input : Str → Option (List (Option Str))
  citext_equal : Str → Str → Bool
  timestamptz_output : ℤ → Str
  complaint : Str

/-- An array literal of elements that need no quotes. -/
def braces (elements : List Str) : Str := '{' :: ([','].intercalate elements ++ ['}'])

/-- What the manual promises. `dated` is about some instant of the year 2000, in whichever time
zone the session shows it. -/
structure Postgres.Documented (pg : Postgres) : Prop where
  ascii : ∀ s : Str, (∀ c ∈ s, c.toNat < 128 ∧ c ≠ '\x00') → pg.encoded s = true
  bigint : ∀ n : ℤ, -9223372036854775808 ≤ n → n ≤ 9223372036854775807 →
    pg.bigint_input (to_string n) = some n
  int4 : ∀ n : ℤ, -2147483648 ≤ n → n ≤ 2147483647 → pg.int4_input (to_string n) = some n
  array : ∀ es : List Str, es ≠ [] →
    (∀ e ∈ es, e ≠ [] ∧ ∀ c ∈ e, c.isDigit = true ∨ c = '-') →
    pg.array_input (braces es) = some (es.map some)
  citext_refl : ∀ s : Str, '\x00' ∉ s → pg.citext_equal s s = true
  citext_nul : ∀ s t : Str, '\x00' ∈ t → pg.citext_equal s t = false
  dated : ∃ t zone, pg.timestamptz_output t = "2000-01-01 00:00:00".toList ++ zone ∧
    (zone.head? = some '+' ∨ zone.head? = some '-')

/-- A table: its name, the types of its columns, and the values of a row, `none` for NULL. -/
structure Relation (ρ : Type) where
  name : Str
  schema : Str → Option SqlType
  cell : ρ → Str → Option Value

namespace Postgres

variable (pg : Postgres)

def read : SqlType → Str → Option Value
  | .bigint, s => (pg.bigint_input s).map .bigint
  | .text, s | .citext, s => some (.text s)
  | .timestamptz, s => (pg.timestamptz_input s).map .timestamptz

def output : Value → Str
  | .bigint n => to_string n
  | .text s => s
  | .timestamptz t => pg.timestamptz_output t

def equal : SqlType → Value → Value → Bool
  | .citext, .text s, .text t => pg.citext_equal s t
  | _, a, b => a = b

/-- The value bound to `$n`. -/
def argument (params : List (Option Str)) (n : ℕ) : Option (Option Str) :=
  if n = 0 then none
  else params[n - 1]?.bind fun p => if p.all pg.encoded then some p else none

/-- The values that a column of type `t` is compared with; none of them is NULL, with which
nothing compares equal. -/
def candidates (params : List (Option Str)) (t : SqlType) : Operand → Option (List Value)
  | .param n => (pg.argument params n).bind fun
      | none => some []
      | some s => (pg.read t s).map fun v => [v]
  | .any n e =>
      if e = t then (pg.argument params n).bind fun
        | none => some []
        | some s => (pg.array_input s).bind fun es => es.reduceOption.mapM (pg.read t)
      else none

/-- A count given as `$n::int`; NULL means no count. -/
def count (params : List (Option Str)) : Option ℕ → Option (Option ℕ)
  | none => some none
  | some n => (pg.argument params n).bind fun
      | none => some none
      | some s => (pg.int4_input s).bind fun i => if 0 ≤ i then some (some i.toNat) else none

end Postgres

/-- Type and candidates of a condition, once its parameter is bound. -/
def bound (pg : Postgres) (schema : Str → Option SqlType) (params : List (Option Str))
    (c : Condition) : Option (SqlType × List Value) :=
  (schema c.column).bind fun t => (pg.candidates params t c.operand).map fun vs => (t, vs)

def holds (pg : Postgres) (schema : Str → Option SqlType) (params : List (Option Str))
    (cells : Str → Option Value) (c : Condition) : Bool :=
  match bound pg schema params c with
  | none => false
  | some (t, vs) => (cells c.column).any fun x => vs.any fun v => pg.equal t x v

def Operand.number : Operand → ℕ
  | .param n | .any n _ => n

def placeholders (q : Select) : List ℕ :=
  q.conditions.map (fun c => Operand.number c.operand) ++ (q.limit.toList ++ q.offset.toList)

variable {ρ : Type}

def key (rel : Relation ρ) (column : Str) (r : ρ) : ℤ :=
  match rel.cell r column with
  | some (.bigint n) => n
  | _ => 0

/-- Only a bigint column orders here: the order of texts depends on a collation. -/
def sorted (rel : Relation ρ) (order : Option Str) (rows : List ρ) : List ρ :=
  match order with
  | none => rows
  | some column => rows.mergeSort fun a b => key rel column a ≤ key rel column b

/-- `OFFSET`, then `LIMIT`. -/
def window {α : Type} (limit offset : Option ℕ) (rows : List α) : List α :=
  match limit with
  | none => rows.drop (offset.getD 0)
  | some n => (rows.drop (offset.getD 0)).take n

/-- The statement is one of this table, every parameter is there and is read, and none is left
over. -/
def Bound (pg : Postgres) (rel : Relation ρ) (params : List (Option Str)) (q : Select) : Prop :=
  q.table = rel.name ∧ (∀ c ∈ q.columns, (rel.schema c).isSome) ∧
    (∀ c ∈ q.conditions, (bound pg rel.schema params c).isSome) ∧
    (∀ c ∈ q.order, rel.schema c = some .bigint) ∧
    (params = [] ∨ params.length ∈ placeholders q)

instance (pg : Postgres) (rel : Relation ρ) (params : List (Option Str)) (q : Select) :
    Decidable (Bound pg rel params q) :=
  inferInstanceAs (Decidable (_ ∧ _ ∧ _ ∧ _ ∧ _))

def answer (pg : Postgres) (rel : Relation ρ) (rows : List ρ) (params : List (Option Str))
    (q : Select) : Option (List (List (Option Str))) :=
  if Bound pg rel params q then
    (pg.count params q.limit).bind fun limit =>
      (pg.count params q.offset).map fun offset =>
        let found := rows.filter fun r =>
          q.conditions.all fun c => holds pg rel.schema params (rel.cell r) c
        (window limit offset (sorted rel q.order found)).map fun r =>
          q.columns.map fun c => (rel.cell r c).map pg.output
  else none

/-- A statement as it arrives; `none` is an error report. -/
def serve (pg : Postgres) (rel : Relation ρ) (rows : List ρ) (sql : Str)
    (params : List (Option Str)) : Option (List Str × List (List (Option Str))) :=
  (parse (sql.splitOn ' ')).bind fun q =>
    (answer pg rel rows params q).map fun tuples => (q.columns, tuples)

end AdequateApi.PostgresSelect
