import Mathlib.Data.List.Basic

/-! Regular expressions in the ECMAScript syntax, for patterns made of characters, escapes,
bracket classes, capturing groups, `+` and the two anchors: a parser, a backtracking matcher
that records captures, and the relation that the matcher decides. -/
namespace AdequateApi.RegexPattern

inductive ClassItem
  | single (c : Char)
  | range (lo hi : Char)
  | space
  deriving DecidableEq, Repr

def isSpace (c : Char) : Bool :=
  c ∈ [' ', '\t', '\n', '\x0b', '\x0c', '\r']

def ClassItem.mem (c : Char) : ClassItem → Bool
  | .single d => c = d
  | .range lo hi => lo ≤ c && c ≤ hi
  | .space => isSpace c

inductive Regex
  | empty
  | char (c : Char)
  | set (negated : Bool) (items : List ClassItem)
  | bol
  | eol
  | seq (r s : Regex)
  | plus (r : Regex)
  | group (i : ℕ) (r : Regex)
  deriving DecidableEq, Repr

namespace Regex

def inSet (negated : Bool) (items : List ClassItem) (c : Char) : Bool :=
  items.any (ClassItem.mem c) != negated

def seqs : List Regex → Regex
  | [] => empty
  | r :: rs => seq r (seqs rs)

end Regex

/-! ### Parsing -/

inductive Token
  | atom (r : Regex)
  | opens
  | closes
  | plus
  deriving DecidableEq, Repr

/-- Where the scanner is: `range` has just read `lo` and a hyphen. -/
inductive Mode
  | normal
  | escape
  | classStart
  | inClass (negated : Bool) (items : List ClassItem)
  | classEscape (negated : Bool) (items : List ClassItem)
  | range (negated : Bool) (items : List ClassItem) (lo : Char)
  deriving DecidableEq, Repr

def scan : Mode → List Char → Option (List Token)
  | .normal, [] => some []
  | _, [] => none
  | .normal, c :: s =>
      if c = '\\' then scan .escape s
      else if c = '[' then scan .classStart s
      else if c = '^' then (scan .normal s).map (.atom .bol :: ·)
      else if c = '$' then (scan .normal s).map (.atom .eol :: ·)
      else if c = '(' then (scan .normal s).map (.opens :: ·)
      else if c = ')' then (scan .normal s).map (.closes :: ·)
      else if c = '+' then (scan .normal s).map (.plus :: ·)
      else if c ∈ ['.', '*', '?', '{', '}', '|', ']'] then none
      else (scan .normal s).map (.atom (.char c) :: ·)
  | .escape, c :: s =>
      if c = 's' then (scan .normal s).map (.atom (.set false [.space]) :: ·)
      else if c.isAlphanum then none
      else (scan .normal s).map (.atom (.char c) :: ·)
  | .classStart, c :: s =>
      if c = '^' then scan (.inClass true []) s
      else if c = ']' then none
      else if c = '\\' then scan (.classEscape false []) s
      else scan (.inClass false [.single c]) s
  | .inClass neg items, c :: s =>
      if c = ']' then (scan .normal s).map (.atom (.set neg items) :: ·)
      else if c = '\\' then scan (.classEscape neg items) s
      else
        match c, items.getLast? with
        | '-', some (.single lo) => scan (.range neg items.dropLast lo) s
        | _, _ => scan (.inClass neg (items ++ [.single c])) s
  | .classEscape neg items, c :: s =>
      if c = 's' then scan (.inClass neg (items ++ [.space])) s
      else if c.isAlphanum then none
      else scan (.inClass neg (items ++ [.single c])) s
  | .range neg items lo, c :: s =>
      if c = ']' then
        (scan .normal s).map (.atom (.set neg (items ++ [.single lo, .single '-'])) :: ·)
      else if lo ≤ c then scan (.inClass neg (items ++ [.range lo c])) s
      else none

/-- Fold the tokens into an expression. The stack holds the open groups with what stood
before them; `cur` is read from right to left. -/
def build : List (ℕ × List Regex) → List Regex → ℕ → List Token → Option Regex
  | [], cur, _, [] => some (.seqs cur.reverse)
  | _ :: _, _, _, [] => none
  | st, cur, n, .atom r :: ts => build st (r :: cur) n ts
  | st, cur, n, .opens :: ts => build ((n, cur) :: st) [] (n + 1) ts
  | (i, outer) :: st, cur, n, .closes :: ts =>
      build st (.group i (.seqs cur.reverse) :: outer) n ts
  | [], _, _, .closes :: _ => none
  | st, r :: cur, n, .plus :: ts => build st (.plus r :: cur) n ts
  | _, [], _, .plus :: _ => none

def parse (s : List Char) : Option Regex := (scan .normal s).bind (build [] [] 1)

/-! ### Matching -/

/-- The text before and after the place the matcher has reached. -/
structure Pos where
  before : List Char
  rest : List Char
  deriving DecidableEq, Repr

/-- Texts of the groups, the latest first. -/
abbrev Captures := List (ℕ × List Char)

def Pos.advance (p : Pos) (accepts : Char → Bool) : Option Pos :=
  match p.rest with
  | [] => none
  | c :: rest => if accepts c then some ⟨p.before ++ [c], rest⟩ else none

/-- Repetitions, longest first; one that consumes nothing is not repeated again. -/
def iterate (f : Pos × Captures → List (Pos × Captures)) :
    ℕ → Pos × Captures → List (Pos × Captures)
  | 0, _ => []
  | n + 1, x =>
      (f x).flatMap fun y =>
        (if y.1.rest.length < x.1.rest.length then iterate f n y else []) ++ [y]

namespace Regex

/-- All ways to match at a place, in the order in which backtracking tries them. -/
def run : Regex → Pos × Captures → List (Pos × Captures)
  | .empty, x => [x]
  | .char c, x => (x.1.advance (· = c)).toList.map fun q => (q, x.2)
  | .set neg items, x => (x.1.advance (inSet neg items)).toList.map fun q => (q, x.2)
  | .bol, x => if x.1.before = [] then [x] else []
  | .eol, x => if x.1.rest = [] then [x] else []
  | .seq r s, x => (r.run x).flatMap s.run
  | .plus r, x => iterate r.run (x.1.rest.length + 1) x
  | .group i r, x =>
      (r.run x).map fun y => (y.1, (i, y.1.before.drop x.1.before.length) :: y.2)

/-- `regex_match`: the first way that reaches the end of the text. -/
def fullMatch (r : Regex) (s : List Char) : Option Captures :=
  ((r.run (⟨[], s⟩, [])).find? fun x => x.1.rest.isEmpty).map Prod.snd

/-- `Moves r p q`: the expression matches the text between `p` and `q`. -/
inductive Moves : Regex → Pos → Pos → Prop
  | empty {p : Pos} : Moves .empty p p
  | char {c : Char} {b s : List Char} : Moves (.char c) ⟨b, c :: s⟩ ⟨b ++ [c], s⟩
  | set {neg : Bool} {items : List ClassItem} {c : Char} {b s : List Char}
      (mem : inSet neg items c = true) : Moves (.set neg items) ⟨b, c :: s⟩ ⟨b ++ [c], s⟩
  | bol {s : List Char} : Moves .bol ⟨[], s⟩ ⟨[], s⟩
  | eol {b : List Char} : Moves .eol ⟨b, []⟩ ⟨b, []⟩
  | seq {r s : Regex} {p m q : Pos} (left : Moves r p m) (right : Moves s m q) :
      Moves (.seq r s) p q
  | once {r : Regex} {p q : Pos} (body : Moves r p q) : Moves (.plus r) p q
  | more {r : Regex} {p m q : Pos} (body : Moves r p m)
      (progress : m.rest.length < p.rest.length) (again : Moves (.plus r) m q) :
      Moves (.plus r) p q
  | group {i : ℕ} {r : Regex} {p q : Pos} (body : Moves r p q) : Moves (.group i r) p q

end Regex

theorem mem_advance {p q : Pos} {accepts : Char → Bool} :
    p.advance accepts = some q ↔
      ∃ c s, p.rest = c :: s ∧ accepts c = true ∧ q = ⟨p.before ++ [c], s⟩ := by
  unfold Pos.advance
  cases hr : p.rest with
  | nil => simp
  | cons c s =>
    simp only [Option.ite_none_right_eq_some, Option.some.injEq, List.cons.injEq]
    constructor
    · rintro ⟨ha, rfl⟩
      exact ⟨c, s, ⟨rfl, rfl⟩, ha, rfl⟩
    · rintro ⟨_, _, ⟨rfl, rfl⟩, ha, rfl⟩
      exact ⟨ha, rfl⟩

open Regex

/-- Repetition as the matcher runs it, for a body that the matcher decides. -/
theorem exists_mem_iterate {r : Regex}
    (ih : ∀ {p q : Pos} {cs : Captures}, (∃ ds, (q, ds) ∈ r.run (p, cs)) ↔ Moves r p q)
    {n : ℕ} {p q : Pos} {cs : Captures} (hn : p.rest.length < n) :
    (∃ ds, (q, ds) ∈ iterate r.run n (p, cs)) ↔ Moves (.plus r) p q := by
  constructor
  · intro h
    induction n generalizing p cs with
    | zero => simp at hn
    | succ n ihn =>
      obtain ⟨ds, h⟩ := h
      simp only [iterate, List.mem_flatMap, List.mem_append, List.mem_singleton] at h
      obtain ⟨⟨m, es⟩, hm, h | h⟩ := h
      · split at h
        · rename_i hp
          have hp : m.rest.length < p.rest.length := hp
          exact .more (ih.mp ⟨es, hm⟩) hp (ihn (by omega) ⟨ds, h⟩)
        · cases h
      · obtain ⟨rfl, rfl⟩ := Prod.mk.inj h
        exact .once (ih.mp ⟨_, hm⟩)
  · intro h
    generalize hs : Regex.plus r = s at h
    induction h generalizing n cs with
    | once body =>
      cases hs
      obtain ⟨ds, hd⟩ := ih.mpr body
      obtain ⟨k, rfl⟩ : ∃ k, n = k + 1 := ⟨n - 1, by omega⟩
      refine ⟨ds, ?_⟩
      simp only [iterate, List.mem_flatMap, List.mem_append]
      exact ⟨_, hd, .inr (List.mem_singleton_self _)⟩
    | more body progress again _ ihm =>
      cases hs
      obtain ⟨es, he⟩ := ih.mpr body
      obtain ⟨k, rfl⟩ : ∃ k, n = k + 1 := ⟨n - 1, by omega⟩
      obtain ⟨ds, hd⟩ : ∃ ds, (_, ds) ∈ iterate r.run k (_, es) := ihm (by omega) rfl
      refine ⟨ds, ?_⟩
      simp only [iterate, List.mem_flatMap, List.mem_append]
      exact ⟨_, he, .inl (by rw [if_pos progress]; exact hd)⟩
    | _ => cases hs

/-- The matcher reaches exactly the places the expression matches up to. -/
theorem exists_mem_run {r : Regex} {p q : Pos} {cs : Captures} :
    (∃ ds, (q, ds) ∈ r.run (p, cs)) ↔ Moves r p q := by
  induction r generalizing p q cs with
  | empty =>
    simp only [run, List.mem_singleton, Prod.mk.injEq, exists_and_left, exists_eq, and_true]
    exact ⟨fun h => h ▸ .empty, fun h => by cases h; rfl⟩
  | char c =>
    simp only [run, List.mem_map, Option.mem_toList, Prod.mk.injEq, mem_advance, decide_eq_true_eq]
    constructor
    · rintro ⟨_, _, ⟨d, s, hp, rfl, rfl⟩, rfl, _⟩
      obtain ⟨b, rest⟩ := p
      cases hp
      exact .char
    · intro h
      cases h
      exact ⟨cs, _, ⟨_, _, rfl, rfl, rfl⟩, rfl, rfl⟩
  | set neg items =>
    simp only [run, List.mem_map, Option.mem_toList, Prod.mk.injEq, mem_advance]
    constructor
    · rintro ⟨_, _, ⟨d, s, hp, hd, rfl⟩, rfl, _⟩
      obtain ⟨b, rest⟩ := p
      cases hp
      exact .set hd
    · intro h
      cases h with
      | set mem => exact ⟨cs, _, ⟨_, _, rfl, mem, rfl⟩, rfl, rfl⟩
  | bol =>
    obtain ⟨b, rest⟩ := p
    simp only [run]
    constructor
    · rintro ⟨ds, h⟩
      split at h
      · rename_i hb
        cases hb
        simp only [List.mem_singleton, Prod.mk.injEq] at h
        rw [h.1]
        exact .bol
      · cases h
    · intro h
      cases h
      exact ⟨cs, by simp⟩
  | eol =>
    obtain ⟨b, rest⟩ := p
    simp only [run]
    constructor
    · rintro ⟨ds, h⟩
      split at h
      · rename_i hb
        cases hb
        simp only [List.mem_singleton, Prod.mk.injEq] at h
        rw [h.1]
        exact .eol
      · cases h
    · intro h
      cases h
      exact ⟨cs, by simp⟩
  | seq r s ihr ihs =>
    simp only [run, List.mem_flatMap]
    constructor
    · rintro ⟨ds, ⟨m, es⟩, hm, hq⟩
      exact .seq (ihr.mp ⟨es, hm⟩) (ihs.mp ⟨ds, hq⟩)
    · intro h
      cases h with
      | @seq _ _ _ m _ left right =>
        obtain ⟨es, hm⟩ := ihr.mpr left
        obtain ⟨ds, hq⟩ := ihs.mpr right
        exact ⟨ds, (m, es), hm, hq⟩
  | plus r ih => exact exists_mem_iterate ih (Nat.lt_succ_self _)
  | group i r ih =>
    simp only [run, List.mem_map, Prod.mk.injEq]
    constructor
    · rintro ⟨_, ⟨m, es⟩, hm, rfl, _⟩
      exact .group (ih.mp ⟨es, hm⟩)
    · intro h
      cases h with
      | group body =>
        obtain ⟨es, hm⟩ := ih.mpr body
        exact ⟨_, (q, es), hm, rfl, rfl⟩

theorem fullMatch_isSome {r : Regex} {s : List Char} :
    (r.fullMatch s).isSome = true ↔ ∃ b, Moves r ⟨[], s⟩ ⟨b, []⟩ := by
  simp only [fullMatch, Option.isSome_map, List.find?_isSome, List.isEmpty_iff]
  constructor
  · rintro ⟨⟨⟨b, rest⟩, ds⟩, hm, hr⟩
    cases hr
    exact ⟨b, exists_mem_run.mp ⟨ds, hm⟩⟩
  · rintro ⟨b, h⟩
    obtain ⟨ds, hd⟩ := exists_mem_run.mpr h
    exact ⟨_, hd, rfl⟩

/-! ### Rules for `Moves` -/

theorem moves_seqs_cons {r : Regex} {rs : List Regex} {p q : Pos} :
    Moves (seqs (r :: rs)) p q ↔ ∃ m, Moves r p m ∧ Moves (seqs rs) m q := by
  constructor
  · intro h
    cases h with
    | seq left right => exact ⟨_, left, right⟩
  · rintro ⟨m, left, right⟩
    exact .seq left right

theorem moves_seqs_append {rs ss : List Regex} {p q : Pos} :
    Moves (seqs (rs ++ ss)) p q ↔ ∃ m, Moves (seqs rs) p m ∧ Moves (seqs ss) m q := by
  induction rs generalizing p with
  | nil =>
    constructor
    · intro h
      exact ⟨p, .empty, h⟩
    · rintro ⟨m, h, hs⟩
      cases h
      exact hs
  | cons r rs ih =>
    rw [List.cons_append, moves_seqs_cons]
    constructor
    · rintro ⟨a, ha, h⟩
      obtain ⟨m, hm, hs⟩ := ih.mp h
      exact ⟨m, moves_seqs_cons.mpr ⟨a, ha, hm⟩, hs⟩
    · rintro ⟨m, hm, hs⟩
      obtain ⟨a, ha, h⟩ := moves_seqs_cons.mp hm
      exact ⟨a, ha, ih.mpr ⟨m, h, hs⟩⟩

/-- A word in sequence consumes exactly itself. -/
theorem moves_word {w : List Char} {p q : Pos} (h : Moves (seqs (w.map .char)) p q) :
    p.rest = w ++ q.rest := by
  induction w generalizing p with
  | nil =>
    cases h
    rfl
  | cons c w ih =>
    obtain ⟨m, hc, hw⟩ := moves_seqs_cons.mp h
    cases hc
    rw [List.cons_append, ← ih hw]

/-- A repeated class consumes a non-empty text of that class. -/
theorem moves_plus_set {neg : Bool} {items : List ClassItem} {p q : Pos}
    (h : Moves (.plus (.set neg items)) p q) :
    ∃ w, w ≠ [] ∧ (∀ c ∈ w, inSet neg items c = true) ∧ p.rest = w ++ q.rest := by
  generalize hs : Regex.plus (.set neg items) = r at h
  induction h with
  | once body =>
    cases hs
    cases body with
    | @set _ _ c b s mem => exact ⟨[c], by simp, by simpa using mem, rfl⟩
  | more body _ _ _ ih =>
    cases hs
    cases body with
    | @set _ _ c b s mem =>
      obtain ⟨w, _, hw, hrest⟩ := ih rfl
      refine ⟨c :: w, by simp, ?_, by rw [List.cons_append, ← hrest]⟩
      intro d hd
      rcases List.mem_cons.mp hd with rfl | hd
      · exact mem
      · exact hw d hd
  | _ => cases hs

/-- A repeated class matches every non-empty text of that class. -/
theorem moves_plus_set_of {neg : Bool} {items : List ClassItem} {w b s : List Char} (hne : w ≠ [])
    (hw : ∀ c ∈ w, inSet neg items c = true) :
    Moves (.plus (.set neg items)) ⟨b, w ++ s⟩ ⟨b ++ w, s⟩ := by
  induction w generalizing b with
  | nil => exact absurd rfl hne
  | cons c w ih =>
    have hc : Moves (.set neg items) ⟨b, c :: (w ++ s)⟩ ⟨b ++ [c], w ++ s⟩ :=
      .set (hw c List.mem_cons_self)
    by_cases hnil : w = []
    · subst hnil
      exact .once hc
    · have hrest := ih (b := b ++ [c]) hnil fun d hd => hw d (List.mem_cons_of_mem c hd)
      rw [List.append_assoc] at hrest
      exact .more hc (by simp) hrest

/-- An anchored repeated class matches the non-empty texts of that class. -/
theorem fullMatch_class {neg : Bool} {items : List ClassItem} {s : List Char} :
    ((seqs [.bol, .plus (.set neg items), .eol]).fullMatch s).isSome = true ↔
      s ≠ [] ∧ ∀ c ∈ s, inSet neg items c = true := by
  rw [fullMatch_isSome]
  constructor
  · rintro ⟨b, h⟩
    obtain ⟨m, hbol, h⟩ := moves_seqs_cons.mp h
    obtain ⟨q, hplus, h⟩ := moves_seqs_cons.mp h
    obtain ⟨z, heol, hnil⟩ := moves_seqs_cons.mp h
    obtain ⟨w, hne, hw, hword⟩ := moves_plus_set hplus
    cases hbol
    cases heol
    obtain rfl : s = w := by simpa using hword
    exact ⟨hne, hw⟩
  · rintro ⟨hne, hw⟩
    have hplus := moves_plus_set_of (b := []) (s := []) hne hw
    rw [List.append_nil] at hplus
    exact ⟨s, .seq .bol (.seq hplus (.seq .eol .empty))⟩

theorem moves_word_of (w : List Char) (b s : List Char) :
    Moves (seqs (w.map .char)) ⟨b, w ++ s⟩ ⟨b ++ w, s⟩ := by
  induction w generalizing b with
  | nil =>
    rw [List.append_nil]
    exact .empty
  | cons c w ih =>
    have hrest := ih (b ++ [c])
    rw [List.append_assoc] at hrest
    exact .seq .char hrest

/-- What is matched moves from the rest to what stands before. -/
theorem Regex.Moves.text {r : Regex} {p q : Pos} (h : Moves r p q) :
    ∃ w, p.rest = w ++ q.rest ∧ q.before = p.before ++ w := by
  have none : ∀ p : Pos, ∃ w, p.rest = w ++ p.rest ∧ p.before = p.before ++ w :=
    fun p => ⟨[], rfl, (List.append_nil _).symm⟩
  have both : ∀ {p m q : Pos}, (∃ w, p.rest = w ++ m.rest ∧ m.before = p.before ++ w) →
      (∃ w, m.rest = w ++ q.rest ∧ q.before = m.before ++ w) →
      ∃ w, p.rest = w ++ q.rest ∧ q.before = p.before ++ w := by
    rintro p m q ⟨v, hv, hv'⟩ ⟨w, hw, hw'⟩
    exact ⟨v ++ w, by rw [hv, hw, List.append_assoc], by rw [hw', hv', List.append_assoc]⟩
  induction h with
  | empty | bol | eol => exact none _
  | char => exact ⟨[_], rfl, rfl⟩
  | set => exact ⟨[_], rfl, rfl⟩
  | seq _ _ ihl ihr => exact both ihl ihr
  | once _ ih => exact ih
  | more _ _ _ ihb iha => exact both ihb iha
  | group _ ih => exact ih

/-! ### Captures -/

def Regex.groupFree : Regex → Bool
  | .empty | .char _ | .set .. | .bol | .eol => true
  | .seq r s => r.groupFree && s.groupFree
  | .plus r => r.groupFree
  | .group .. => false

theorem mem_iterate_captures {f : Pos × Captures → List (Pos × Captures)}
    (hf : ∀ x, ∀ y ∈ f x, y.2 = x.2) {n : ℕ} {x y : Pos × Captures} (h : y ∈ iterate f n x) :
    y.2 = x.2 := by
  induction n generalizing x with
  | zero => cases h
  | succ n ih =>
    simp only [iterate, List.mem_flatMap, List.mem_append, List.mem_singleton] at h
    obtain ⟨m, hm, h | rfl⟩ := h
    · split at h
      · exact (ih h).trans (hf x m hm)
      · cases h
    · exact hf x _ hm

/-- Without a group nothing is captured. -/
theorem run_captures {r : Regex} (h : r.groupFree = true) {x y : Pos × Captures}
    (hy : y ∈ r.run x) : y.2 = x.2 := by
  induction r generalizing x y with
  | empty => rw [List.mem_singleton.mp hy]
  | char | set =>
    obtain ⟨q, _, rfl⟩ := List.mem_map.mp hy
    rfl
  | bol | eol =>
    unfold Regex.run at hy
    split at hy
    · rw [List.mem_singleton.mp hy]
    · cases hy
  | seq r s ihr ihs =>
    simp only [groupFree, Bool.and_eq_true] at h
    obtain ⟨m, hm, hy⟩ := List.mem_flatMap.mp hy
    exact (ihs h.2 hy).trans (ihr h.1 hm)
  | plus r ih => exact mem_iterate_captures (fun _ _ hm => ih h hm) hy
  | group => cases h

theorem mem_run_seqs_cons {r : Regex} {rs : List Regex} {x y : Pos × Captures} :
    y ∈ (seqs (r :: rs)).run x ↔ ∃ m ∈ r.run x, y ∈ (seqs rs).run m := List.mem_flatMap

theorem mem_run_seqs_append {rs ss : List Regex} {x y : Pos × Captures} :
    y ∈ (seqs (rs ++ ss)).run x ↔ ∃ m ∈ (seqs rs).run x, y ∈ (seqs ss).run m := by
  induction rs generalizing x with
  | nil => simp [seqs, run]
  | cons r rs ih =>
    rw [List.cons_append, mem_run_seqs_cons]
    simp only [mem_run_seqs_cons, ih]
    constructor
    · rintro ⟨a, ha, m, hm, hy⟩
      exact ⟨m, ⟨a, ha, hm⟩, hy⟩
    · rintro ⟨m, ⟨a, ha, hm⟩, hy⟩
      exact ⟨a, ha, m, hm, hy⟩

/-- The captures of a match come from one way to reach the end. -/
theorem mem_run_of_fullMatch {r : Regex} {s : List Char} {cs : Captures}
    (h : r.fullMatch s = some cs) : ∃ b, (⟨b, []⟩, cs) ∈ r.run (⟨[], s⟩, []) := by
  obtain ⟨⟨⟨b, rest⟩, ds⟩, hfind, rfl⟩ := Option.map_eq_some_iff.mp h
  have hend : rest = [] := by simpa using List.find?_some hfind
  subst hend
  exact ⟨b, List.mem_of_find?_eq_some hfind⟩

end AdequateApi.RegexPattern
