import AdequateApi.SqlBuilder
import AdequateApi.UserFilters
import Mathlib.Data.List.DropRight

/-! The array literal of `SQLBuilder` and PostgreSQL's input syntax of `text[]`: which lists of
usernames a query asks for are read back as they were written. -/
namespace AdequateApi.PostgresArray
open StdString SqlBuilder UserFilters

/-! ### Tokens of an array literal -/

inductive ArrayToken
  | level_start
  | level_end
  | delim
  | elem (text : Str)
  | elem_null
  deriving DecidableEq, Repr

/-- Behind the closing quote of an element stand blanks, and a delimiter or a brace. -/
def closed (s : Str) : Option Str :=
  match s.dropWhile isspace with
  | [] => none
  | c :: rest => if c = ',' ∨ c = '}' ∨ c = '{' then some (c :: rest) else none

/-- An element behind its opening quote. A backslash quotes the next character. -/
def quoted_element : Str → Option (Str × Str)
  | [] => none
  | c :: s =>
      if c = '"' then (closed s).map fun rest => ([], rest)
      else if c = '\\' then
        match s with
        | [] => none
        | d :: s => (quoted_element s).map fun r => (d :: r.1, r.2)
      else (quoted_element s).map fun r => (c :: r.1, r.2)

/-- The characters of an element without quotes, each with whether a backslash stood before it. -/
def unquoted_chars : Str → Option (List (Char × Bool) × Str)
  | [] => none
  | c :: s =>
      if c = ',' ∨ c = '}' then some ([], c :: s)
      else if c = '{' ∨ c = '"' then none
      else if c = '\\' then
        match s with
        | [] => none
        | d :: s => (unquoted_chars s).map fun r => ((d, true) :: r.1, r.2)
      else (unquoted_chars s).map fun r => ((c, false) :: r.1, r.2)

/-- The blanks at the end are left out, those behind a backslash are not. -/
def truncated (chars : List (Char × Bool)) : List (Char × Bool) :=
  chars.rdropWhile fun p => isspace p.1 && !p.2

/-- `NULL` in any case, without a backslash, is the null element. -/
def unquoted_element (s : Str) : Option (ArrayToken × Str) :=
  (unquoted_chars s).map fun r =>
    let text := (truncated r.1).map Prod.fst
    if r.1.all (fun p => !p.2) ∧ toLower text = "null".toList then (.elem_null, r.2)
    else (.elem text, r.2)

/-- Blanks before a token are skipped. -/
def ReadArrayToken (s : Str) : Option (ArrayToken × Str) :=
  match s.dropWhile isspace with
  | [] => none
  | c :: rest =>
      if c = '{' then some (.level_start, rest)
      else if c = '}' then some (.level_end, rest)
      else if c = '"' then (quoted_element rest).map fun r => (.elem r.1, r.2)
      else if c = ',' then some (.delim, rest)
      else unquoted_element (c :: rest)

theorem closed_length {s rest : Str} (h : closed s = some rest) : rest.length ≤ s.length := by
  have hle : (s.dropWhile isspace).length ≤ s.length := List.length_dropWhile_le _ _
  unfold closed at h
  split at h
  · cases h
  · rename_i hdrop
    split at h
    · cases h
      rwa [hdrop] at hle
    · cases h

/-- An element in quotes takes more characters than it has. -/
theorem quoted_element_length {s t rest : Str} (h : quoted_element s = some (t, rest)) :
    t.length + rest.length + 1 ≤ s.length := by
  induction s using quoted_element.induct generalizing t with
  | case1 => cases h
  | case2 s =>
    rw [quoted_element.eq_def] at h
    simp only [if_true, Option.map_eq_some_iff] at h
    obtain ⟨r, hr, he⟩ := h
    cases he
    have hle := closed_length hr
    simp only [List.length_nil, List.length_cons]
    omega
  | case3 hq => simp [quoted_element] at h
  | case4 d s hq ih =>
    rw [quoted_element.eq_def] at h
    simp only [hq, if_false, if_true, Option.map_eq_some_iff] at h
    obtain ⟨r, hr, he⟩ := h
    cases he
    have hle := ih hr
    simp only [List.length_cons]
    omega
  | case5 c s hq hb ih =>
    rw [quoted_element.eq_def] at h
    simp only [hq, hb, if_false, Option.map_eq_some_iff] at h
    obtain ⟨r, hr, he⟩ := h
    cases he
    have hle := ih hr
    simp only [List.length_cons]
    omega

/-- The characters that mean something of their own outside quotes. -/
def special (c : Char) : Bool :=
  c = ',' || c = '{' || c = '}' || c = '"' || c = '\\'

/-- What `unquoted_chars` reads: each backslash costs one character more. -/
structure CharsRead (s : Str) (chars : List (Char × Bool)) (rest : Str) : Prop where
  length : chars.length + chars.countP Prod.snd + rest.length = s.length
  text : (∀ p ∈ chars, p.2 = false) → s = chars.map Prod.fst ++ rest
  ordinary : ∀ p ∈ chars, p.2 = false → special p.1 = false
  stop : ∃ d tail, rest = d :: tail ∧ (d = ',' ∨ d = '}')

theorem unquoted_chars_read {s rest : Str} {chars : List (Char × Bool)}
    (h : unquoted_chars s = some (chars, rest)) : CharsRead s chars rest := by
  induction s using unquoted_chars.induct generalizing chars with
  | case1 => cases h
  | case2 c s hend =>
    rw [unquoted_chars.eq_def] at h
    simp only [hend, if_true] at h
    cases h
    exact ⟨by simp, fun _ => rfl, by simp, c, s, rfl, hend⟩
  | case3 c s hend hbad =>
    rw [unquoted_chars.eq_def] at h
    simp [hend, hbad] at h
  | case4 hend hbad => simp [unquoted_chars] at h
  | case5 d s hend hbad ih =>
    rw [unquoted_chars.eq_def] at h
    simp only [hend, hbad, if_false, if_true, Option.map_eq_some_iff] at h
    obtain ⟨r, hr, he⟩ := h
    cases he
    have hread := ih hr
    refine ⟨?_, fun hall => absurd (hall _ List.mem_cons_self) (by simp), fun p hp hf => ?_,
      hread.stop⟩
    · have hlen := hread.length
      simp only [List.length_cons, List.countP_cons, if_true]
      omega
    · rcases List.mem_cons.mp hp with rfl | hp
      · cases hf
      · exact hread.ordinary p hp hf
  | case6 c s hend hbad hesc ih =>
    rw [unquoted_chars.eq_def] at h
    simp only [hend, hbad, hesc, if_false, Option.map_eq_some_iff] at h
    obtain ⟨r, hr, he⟩ := h
    cases he
    have hread := ih hr
    refine ⟨?_, fun hall => ?_, fun p hp hf => ?_, hread.stop⟩
    · have hlen := hread.length
      simp only [List.length_cons, List.countP_cons, Bool.false_eq_true, if_false]
      omega
    · rw [List.map_cons, List.cons_append,
        ← hread.text fun p hp => hall p (List.mem_cons_of_mem _ hp)]
    · rcases List.mem_cons.mp hp with rfl | hp
      · simp only [not_or] at hend hbad
        simp [special, hend, hbad, hesc]
      · exact hread.ordinary p hp hf

/-- An element that can stand without quotes. -/
structure Bare (x : Str) : Prop where
  ordinary : ∀ c ∈ x, special c = false
  head : ∀ c ∈ x.head?, isspace c = false
  last : ∀ c ∈ x.getLast?, isspace c = false
  not_null : toLower x ≠ "null".toList

open Classical in
/-- Characters a token takes at least. An element that is not bare takes one more than it has. -/
noncomputable def ArrayToken.cost : ArrayToken → ℕ
  | .elem text => text.length + if Bare text then 0 else 1
  | _ => 1

theorem truncated_length (chars : List (Char × Bool)) :
    (truncated chars).length ≤ chars.length :=
  (List.rdropWhile_prefix _ _).length_le

/-- An element read without loss is bare. -/
theorem bare_of_read {c : Char} {s rest : Str} {chars : List (Char × Bool)}
    (hc : isspace c = false) (hread : CharsRead (c :: s) chars rest)
    (hescapes : chars.all (fun p => !p.2) = true) (htrunc : truncated chars = chars)
    (hnull : toLower (chars.map Prod.fst) ≠ "null".toList) : Bare (chars.map Prod.fst) := by
  have hall : ∀ p ∈ chars, p.2 = false := by simpa using hescapes
  refine ⟨fun d hd => ?_, fun d hd => ?_, fun d hd => ?_, hnull⟩
  · obtain ⟨p, hp, rfl⟩ := List.mem_map.mp hd
    exact hread.ordinary p hp (hall p hp)
  · have htext := hread.text hall
    cases chars with
    | nil => cases hd
    | cons p chars =>
      cases hd
      exact (List.cons.inj htext).1 ▸ hc
  · rw [List.getLast?_map] at hd
    obtain ⟨p, hp, rfl⟩ := Option.map_eq_some_iff.mp hd
    obtain ⟨hne, rfl⟩ := List.mem_getLast?_eq_getLast hp
    have hlast := List.rdropWhile_eq_self_iff.mp htrunc hne
    simpa [hall _ (List.getLast_mem hne)] using hlast

theorem unquoted_element_cost {c : Char} {s rest : Str} {token : ArrayToken}
    (hc : isspace c = false) (hord : ¬(c = ',' ∨ c = '}'))
    (h : unquoted_element (c :: s) = some (token, rest)) :
    token.cost + rest.length ≤ s.length + 1 ∧ rest.length ≤ s.length := by
  unfold unquoted_element at h
  obtain ⟨⟨chars, rest'⟩, hchars, he⟩ := Option.map_eq_some_iff.mp h
  have hread := unquoted_chars_read hchars
  have hlen := hread.length
  have htrunc := truncated_length chars
  have hne : chars ≠ [] := by
    rintro rfl
    obtain ⟨d, tail, hrest, hd⟩ := hread.stop
    have htext := hread.text (by simp)
    rw [List.map_nil, List.nil_append, hrest] at htext
    exact hord ((List.cons.inj htext).1 ▸ hd)
  have hpos := List.length_pos_of_ne_nil hne
  rw [List.length_cons] at hlen
  dsimp only at he
  split at he
  · cases he
    refine ⟨?_, by omega⟩
    simp only [ArrayToken.cost]
    omega
  · rename_i hcond
    cases he
    refine ⟨?_, by omega⟩
    simp only [ArrayToken.cost, List.length_map]
    split
    · omega
    · rename_i hbare
      by_contra hlt
      have hcount : chars.countP Prod.snd = 0 := by omega
      have hlast : (truncated chars).length = chars.length := by omega
      have hsame : truncated chars = chars :=
        (List.rdropWhile_prefix _ _).eq_of_length hlast
      have hesc : chars.all (fun p => !p.2) = true := by
        simpa [List.countP_eq_zero] using hcount
      rw [hsame] at hbare hcond
      exact hbare (bare_of_read hc hread hesc hsame fun hnull => hcond ⟨hesc, hnull⟩)

theorem isspace_of_dropWhile {s rest : Str} {c : Char} (h : s.dropWhile isspace = c :: rest) :
    isspace c = false ∧ rest.length + 1 ≤ s.length := by
  have hne : s.dropWhile isspace ≠ [] := by simp [h]
  have hhead := List.head_dropWhile_not isspace hne
  have hle : (s.dropWhile isspace).length ≤ s.length := List.length_dropWhile_le _ _
  simp only [h, List.head_cons] at hhead
  rw [h, List.length_cons] at hle
  exact ⟨hhead, hle⟩

theorem ReadArrayToken_cost {s rest : Str} {token : ArrayToken}
    (h : ReadArrayToken s = some (token, rest)) :
    token.cost + rest.length ≤ s.length ∧ rest.length < s.length := by
  unfold ReadArrayToken at h
  split at h
  · cases h
  · rename_i c tail hdrop
    obtain ⟨hc, hle⟩ := isspace_of_dropWhile hdrop
    split at h
    · cases h
      exact ⟨by simp only [ArrayToken.cost]; omega, by omega⟩
    split at h
    · cases h
      exact ⟨by simp only [ArrayToken.cost]; omega, by omega⟩
    split at h
    · obtain ⟨⟨text, rest'⟩, hq, he⟩ := Option.map_eq_some_iff.mp h
      have hlen := quoted_element_length hq
      cases he
      refine ⟨?_, by dsimp only; omega⟩
      simp only [ArrayToken.cost]
      split <;> omega
    split at h
    · cases h
      exact ⟨by simp only [ArrayToken.cost]; omega, by omega⟩
    · rename_i hopen hclose hquote hdelim
      have hcost := unquoted_element_cost hc (not_or.mpr ⟨hdelim, hclose⟩) h
      omega

/-! ### The elements -/

/-- Where `ReadArrayStr` stands: the open levels with their counts, the innermost first, and the
length of each dimension once its first level is closed. -/
structure ArrayState where
  nelems : List ℕ
  ndim : ℕ
  dim : List (Option ℕ)
  ndim_frozen : Bool
  expect_delim : Bool
  values : List (Option Str)
  deriving DecidableEq, Repr

namespace ArrayState

/-- Six dimensions at most. -/
def start : ArrayState := ⟨[], 0, List.replicate 6 none, false, false, []⟩

/-- An element counts in the innermost level, which is at full depth. -/
def push (st : ArrayState) (value : Option Str) : Option ArrayState :=
  if st.expect_delim ∨ st.nelems.length ≠ st.ndim then none
  else some { st with
    nelems := st.nelems.modifyHead (· + 1)
    ndim_frozen := true
    expect_delim := true
    values := st.values ++ [value] }

def step (st : ArrayState) : ArrayToken → Option ArrayState
  | .level_start =>
      if st.expect_delim ∨ 6 ≤ st.nelems.length ∨
          st.ndim ≤ st.nelems.length ∧ st.ndim_frozen then none
      else some { st with
        nelems := 0 :: st.nelems
        ndim := max st.ndim (st.nelems.length + 1) }
  | .level_end =>
      match st.nelems with
      | [] => none
      | n :: outer =>
          if 0 < n ∧ st.expect_delim = false then none
          else
            match st.dim.getD outer.length none with
            | some m =>
                if m = n then some { st with
                  nelems := outer.modifyHead (· + 1)
                  expect_delim := true }
                else none
            | none => some { st with
                nelems := outer.modifyHead (· + 1)
                dim := st.dim.set outer.length (some n)
                expect_delim := true }
  | .delim => if st.expect_delim then some { st with expect_delim := false } else none
  | .elem text => st.push (some text)
  | .elem_null => st.push none

end ArrayState

/-- Tokens up to the brace that closes the outermost level. -/
def ReadArrayStr (st : ArrayState) (s : Str) : Option (ArrayState × Str) :=
  match _h : ReadArrayToken s with
  | none => none
  | some (token, rest) =>
      (st.step token).bind fun st =>
        if st.nelems = [] then some (st, rest) else ReadArrayStr st rest
termination_by s.length
decreasing_by exact (ReadArrayToken_cost _h).2

/-- An array: the length of each dimension, and the elements, `none` for NULL. -/
structure PgArray where
  dims : List ℕ
  elements : List (Option Str)
  deriving DecidableEq, Repr

/-- What `text[]` reads in a C string that starts with a brace; only blanks may follow the array.
The empty array has no dimensions. -/
def array_in (literal : Str) : Option PgArray :=
  let s := (c_str literal).dropWhile isspace
  if s.head? ≠ some '{' then none
  else
    (ReadArrayStr .start s).bind fun r =>
      if r.2.all isspace = false then none
      else if r.1.values = [] then some ⟨[], []⟩
      else some ⟨(r.1.dim.take r.1.ndim).reduceOption, r.1.values⟩

example : array_in "\x7b a b ,\"null\",null\x7d".toList =
    some ⟨[3], [some "a b".toList, some "null".toList, none]⟩ := by decide +kernel

example : array_in "\x7b\x7b1,2\x7d,\x7b3,4\x7d\x7d".toList =
    some ⟨[2, 2], ["1", "2", "3", "4"].map fun e => some e.toList⟩ := by decide +kernel

/-! ### Counting characters -/

/-- What the elements so far took at least, each with a delimiter behind it. -/
noncomputable def weight : List (Option Str) → ℕ
  | [] => 0
  | v :: values => (v.map fun text => (ArrayToken.elem text).cost + 1).getD 0 + weight values

theorem weight_snoc (values : List (Option Str)) (v : Option Str) :
    weight (values ++ [v]) =
      weight values + (v.map fun text => (ArrayToken.elem text).cost + 1).getD 0 := by
  induction values with
  | nil => simp [weight]
  | cons w values ih =>
    rw [List.cons_append, weight, weight, ih]
    omega

namespace ArrayState

variable {st st' : ArrayState}

theorem push_weight {v : Option Str} (h : st.push v = some st') :
    st.expect_delim = false ∧ st'.expect_delim = true ∧ st'.values = st.values ++ [v] ∧
      (st.nelems ≠ [] → st'.nelems ≠ []) := by
  unfold push at h
  split at h
  · cases h
  · rename_i hcond
    cases h
    refine ⟨by simpa using (not_or.mp hcond).1, rfl, rfl, fun hne => ?_⟩
    obtain ⟨n, outer, he⟩ := List.exists_cons_of_ne_nil hne
    simp [he]

/-- The elements of a level are paid for by the characters read, but for a delimiter still to
come. -/
theorem step_weight {token : ArrayToken} (h : st.step token = some st') :
    weight st'.values + st.expect_delim.toNat ≤
      weight st.values + st'.expect_delim.toNat + token.cost := by
  cases token with
  | level_start =>
    simp only [step] at h
    split at h
    · cases h
    · cases h
      simp
  | level_end =>
    have hflag := Bool.toNat_le st.expect_delim
    simp only [step] at h
    split at h
    · cases h
    · split at h
      · cases h
      · split at h
        · split at h
          · cases h
            simp only [ArrayToken.cost, Bool.toNat_true]
            omega
          · cases h
        · cases h
          simp only [ArrayToken.cost, Bool.toNat_true]
          omega
  | delim =>
    simp only [step] at h
    split at h
    · rename_i hexpect
      cases h
      simp [hexpect, ArrayToken.cost]
    · cases h
  | elem text =>
    obtain ⟨hbefore, hafter, hvalues, -⟩ := push_weight h
    rw [hbefore, hafter, hvalues, weight_snoc]
    simp only [Option.map_some, Option.getD_some, Bool.toNat_true, Bool.toNat_false]
    omega
  | elem_null =>
    obtain ⟨hbefore, hafter, hvalues, -⟩ := push_weight h
    rw [hbefore, hafter, hvalues, weight_snoc]
    simp only [Option.map_none, Option.getD_none, Bool.toNat_true, Bool.toNat_false]
    omega

/-- Only a brace that closes the outermost level ends the array. -/
theorem step_last {token : ArrayToken} (h : st.step token = some st') (hopen : st.nelems ≠ [])
    (hlast : st'.nelems = []) : st'.values = st.values := by
  cases token with
  | level_start =>
    simp only [step] at h
    split at h
    · cases h
    · cases h
      cases hlast
  | level_end =>
    simp only [step] at h
    split at h
    · cases h
    · split at h
      · cases h
      · split at h
        · split at h <;> cases h
          rfl
        · cases h
          rfl
  | delim =>
    simp only [step] at h
    split at h
    · cases h
      rfl
    · cases h
  | elem text => exact absurd hlast ((push_weight h).2.2.2 hopen)
  | elem_null => exact absurd hlast ((push_weight h).2.2.2 hopen)

end ArrayState

/-- One round of the loop. -/
theorem ReadArrayStr_eq (st : ArrayState) (s : Str) :
    ReadArrayStr st s = (ReadArrayToken s).bind fun r => (st.step r.1).bind fun st =>
      if st.nelems = [] then some (st, r.2) else ReadArrayStr st r.2 := by
  rw [ReadArrayStr]
  split
  · rename_i hnone
    rw [hnone, Option.bind_none]
  · rename_i token rest hsome
    rw [hsome, Option.bind_some]

theorem ReadArrayStr_step {st next : ArrayState} {s rest : Str} {token : ArrayToken}
    (htoken : ReadArrayToken s = some (token, rest)) (hstep : st.step token = some next)
    (hopen : next.nelems ≠ []) : ReadArrayStr st s = ReadArrayStr next rest := by
  rw [ReadArrayStr_eq, htoken, Option.bind_some, hstep, Option.bind_some, if_neg hopen]

/-- The whole array takes at least as many characters as its elements and their delimiters. -/
theorem ReadArrayStr_weight {st st' : ArrayState} {s rest : Str} (hopen : st.nelems ≠ [])
    (h : ReadArrayStr st s = some (st', rest)) :
    weight st'.values + st.expect_delim.toNat + rest.length ≤ weight st.values + s.length := by
  induction hn : s.length using Nat.strong_induction_on generalizing s st with
  | _ n ih =>
    subst hn
    rw [ReadArrayStr_eq] at h
    obtain ⟨⟨token, tail⟩, htoken, h⟩ := Option.bind_eq_some_iff.mp h
    obtain ⟨next, hstep, h⟩ := Option.bind_eq_some_iff.mp h
    dsimp only at hstep h
    obtain ⟨hcost, hlt⟩ := ReadArrayToken_cost htoken
    have hweight := ArrayState.step_weight hstep
    split at h
    · rename_i hlast
      cases h
      have hflag := Bool.toNat_le st.expect_delim
      rw [ArrayState.step_last hstep hopen hlast]
      omega
    · rename_i hmore
      have hrest := ih tail.length hlt hmore h rfl
      omega

/-! ### Literals of `SQLBuilder` -/

/-- Inside a one-dimensional array with `n` elements so far. -/
def flat (n : ℕ) (expect_delim : Bool) (values : List (Option Str)) : ArrayState :=
  ⟨[n], 1, List.replicate 6 none, decide (0 < n), expect_delim, values⟩

theorem ReadArrayStr_start (s : Str) :
    ReadArrayStr .start ('{' :: s) = ReadArrayStr (flat 0 false []) s :=
  ReadArrayStr_step rfl rfl (List.cons_ne_nil _ _)

theorem join_cons_cons (x y : Str) (xs : List Str) :
    join (x :: y :: xs) = x ++ ',' :: join (y :: xs) := by
  simp [join]

open Classical in
/-- The elements of a literal take all of it, and one character more for each that is not bare. -/
theorem weight_arrayToPg {xs : List Str} (hne : xs ≠ []) :
    weight (xs.map some) + 1 = (arrayToPg xs).length + xs.countP (fun x => ¬ Bare x) := by
  have hjoin : weight (xs.map some) = (join xs).length + 1 + xs.countP (fun x => ¬ Bare x) := by
    induction xs with
    | nil => exact absurd rfl hne
    | cons x xs ih =>
      have hcons : weight ((x :: xs).map some) =
          x.length + (if Bare x then 0 else 1) + 1 + weight (xs.map some) := by
        simp [weight, ArrayToken.cost]
      have hcount : (x :: xs).countP (fun x => ¬ Bare x) =
          xs.countP (fun x => ¬ Bare x) + if Bare x then 0 else 1 := by
        rw [List.countP_cons]
        by_cases hx : Bare x <;> simp [hx]
      rw [hcons, hcount]
      cases xs with
      | nil =>
        simp [weight, join]
        omega
      | cons y xs =>
        rw [ih (by simp), join_cons_cons, List.length_append, List.length_cons]
        omega
  simp only [arrayToPg, List.length_cons, List.length_append, List.length_nil]
  omega

/-- Nothing but bare elements, and no NUL byte, is read back. -/
theorem bare_of_array_in {xs : List Str} {dims : List ℕ} (hne : xs ≠ [])
    (h : array_in (arrayToPg xs) = some ⟨dims, xs.map some⟩) :
    '\x00' ∉ arrayToPg xs ∧ ∀ x ∈ xs, Bare x := by
  classical
  have hstart : (c_str (arrayToPg xs)).dropWhile isspace = '{' :: c_str (join xs ++ ['}']) := rfl
  have hcstr : (c_str (arrayToPg xs)).length = (c_str (join xs ++ ['}'])).length + 1 := rfl
  have hle : (c_str (arrayToPg xs)).length ≤ (arrayToPg xs).length :=
    (List.takeWhile_prefix _).length_le
  have hweight := weight_arrayToPg hne
  unfold array_in at h
  dsimp only at h
  rw [hstart, if_neg (by simp)] at h
  obtain ⟨⟨st, rest⟩, hread, h⟩ := Option.bind_eq_some_iff.mp h
  rw [ReadArrayStr_start] at hread
  have hopened := ReadArrayStr_weight (List.cons_ne_nil _ _) hread
  have hvalues : st.values = xs.map some := by
    dsimp only at h
    split at h
    · cases h
    split at h
    · exact absurd (congrArg PgArray.elements (Option.some.inj h)).symm (by simp [hne])
    · exact congrArg PgArray.elements (Option.some.inj h)
  rw [hvalues] at hopened
  have hzero : weight (flat 0 false []).values = 0 := rfl
  have hcount : xs.countP (fun x => ¬ Bare x) = 0 := by omega
  have hlength : (c_str (arrayToPg xs)).length = (arrayToPg xs).length := by omega
  constructor
  · intro hnul
    have hself : c_str (arrayToPg xs) = arrayToPg xs :=
      (List.takeWhile_prefix _).eq_of_length hlength
    have hchar := List.takeWhile_eq_self_iff.mp hself _ hnul
    simp at hchar
  · simpa [List.countP_eq_zero] using hcount

/-! ### Bare elements are read as they stand -/

theorem unquoted_chars_bare {x rest : Str} {d : Char} (hx : ∀ c ∈ x, special c = false)
    (hd : d = ',' ∨ d = '}') :
    unquoted_chars (x ++ d :: rest) = some (x.map fun c => (c, false), d :: rest) := by
  induction x with
  | nil =>
    rw [List.nil_append, unquoted_chars.eq_def]
    simp [hd]
  | cons c x ih =>
    have hc := hx c List.mem_cons_self
    simp only [special, Bool.or_eq_false_iff, decide_eq_false_iff_not] at hc
    rw [List.cons_append, unquoted_chars.eq_def]
    simp [hc, ih fun e he => hx e (List.mem_cons_of_mem c he)]

theorem ReadArrayToken_bare {x rest : Str} {d : Char} (hne : x ≠ []) (hx : Bare x)
    (hd : d = ',' ∨ d = '}') :
    ReadArrayToken (x ++ d :: rest) = some (.elem x, d :: rest) := by
  obtain ⟨c, y, rfl⟩ := List.exists_cons_of_ne_nil hne
  have hblank : isspace c = false := hx.head c rfl
  have hc := hx.ordinary c List.mem_cons_self
  simp only [special, Bool.or_eq_false_iff, decide_eq_false_iff_not] at hc
  have hkept : truncated ((c :: y).map fun e => (e, false)) = (c :: y).map fun e => (e, false) := by
    refine List.rdropWhile_eq_self_iff.mpr fun hl => ?_
    rw [List.getLast_map]
    simp [hx.last _ (List.getLast?_eq_some_getLast hne)]
  have hfst : ((c :: y).map fun e => (e, false)).map Prod.fst = c :: y := by
    simp [Function.comp_def]
  have hdrop : ((c :: y) ++ d :: rest).dropWhile isspace = c :: (y ++ d :: rest) := by
    simp [hblank]
  unfold ReadArrayToken
  rw [hdrop]
  simp only [hc, if_false]
  rw [← List.cons_append, unquoted_element, unquoted_chars_bare hx.ordinary hd]
  simp only [Option.map_some, hkept, hfst, hx.not_null, and_false, if_false]

theorem ReadArrayStr_bare {xs : List Str} (hne : xs ≠ [])
    (hxs : ∀ x ∈ xs, x ≠ [] ∧ Bare x) (n : ℕ) (values : List (Option Str)) :
    ReadArrayStr (flat n false values) (join xs ++ ['}']) =
      some (⟨[], 1, (List.replicate 6 none).set 0 (some (n + xs.length)), true, true,
        values ++ xs.map some⟩, []) := by
  induction xs generalizing n values with
  | nil => exact absurd rfl hne
  | cons x xs ih =>
    obtain ⟨hx, hbare⟩ := hxs x List.mem_cons_self
    have hpush : (flat n false values).step (.elem x) =
        some (flat (n + 1) true (values ++ [some x])) := by
      simp [ArrayState.step, ArrayState.push, flat]
    have hopen : (flat (n + 1) true (values ++ [some x])).nelems ≠ [] := List.cons_ne_nil _ _
    cases xs with
    | nil =>
      have hlast : join [x] ++ ['}'] = x ++ '}' :: [] := by simp [join]
      rw [hlast, ReadArrayStr_step (ReadArrayToken_bare hx hbare (.inr rfl)) hpush hopen,
        ReadArrayStr_eq]
      rfl
    | cons y xs =>
      have hnext := ih (by simp) (fun z hz => hxs z (List.mem_cons_of_mem x hz)) (n + 1)
        (values ++ [some x])
      have htoken (s : Str) : ReadArrayToken (',' :: s) = some (.delim, s) := rfl
      have hdelim : (flat (n + 1) true (values ++ [some x])).step .delim =
          some (flat (n + 1) false (values ++ [some x])) := rfl
      rw [join_cons_cons, List.append_assoc, List.cons_append,
        ReadArrayStr_step (ReadArrayToken_bare hx hbare (.inl rfl)) hpush hopen,
        ReadArrayStr_step (htoken _) hdelim (List.cons_ne_nil _ _), hnext]
      simp [Nat.add_assoc, Nat.add_comm 1]

theorem array_in_bare {xs : List Str} (hne : xs ≠ []) (hnul : '\x00' ∉ arrayToPg xs)
    (hxs : ∀ x ∈ xs, x ≠ [] ∧ Bare x) :
    array_in (arrayToPg xs) = some ⟨[xs.length], xs.map some⟩ := by
  have hread := ReadArrayStr_bare hne hxs 0 []
  have hblank : (arrayToPg xs).dropWhile isspace = '{' :: (join xs ++ ['}']) := rfl
  unfold array_in
  dsimp only
  have hvalues : [] ++ xs.map some ≠ [] := by simpa using hne
  rw [c_str_eq_self hnul, hblank, if_neg (by simp), ReadArrayStr_start, hread, Option.bind_some,
    if_neg (by simp), if_neg hvalues, Nat.zero_add, List.nil_append]
  rfl

/-! ### Lists of usernames from a query -/

/-- A list that some query value sets for `username__in`; `whereAny` writes no literal for the
empty one. -/
def FromQuery (xs : List Str) : Prop :=
  xs ≠ [] ∧ ∃ filter query value result, Dict.find query "username__in".toList = some value ∧
    parseRequestQuery filter query = .ok result ∧ result.username__in = some xs

theorem username_list_of_parse {filter result : UserListFilter} {query : Dict Str} {value : Str}
    (hvalue : query.find "username__in".toList = some value)
    (h : parseRequestQuery filter query = .ok result) :
    result.username__in = some (parseStrings value) := by
  unfold parseRequestQuery at h
  cases hlimit : number query "limit".toList with
  | error e =>
    rw [hlimit] at h
    cases h
  | ok limit =>
    cases hoffset : number query "offset".toList with
    | error e =>
      rw [hlimit, hoffset] at h
      cases h
    | ok offset =>
      cases hid : number query "id".toList with
      | error e =>
        rw [hlimit, hoffset, hid] at h
        cases h
      | ok id =>
        rw [hlimit, hoffset, hid, hvalue] at h
        cases h
        rfl

theorem parseStrings_join {xs : List Str} (hxs : ∀ x ∈ xs, x ≠ [] ∧ ',' ∉ x) :
    parseStrings (join xs) = xs := by
  cases xs with
  | nil => rfl
  | cons x xs =>
    have hsplit := List.splitOn_intercalate ',' (fun y hy => (hxs y hy).2) (List.cons_ne_nil x xs)
    unfold parseStrings tokens
    rw [join, hsplit]
    exact List.filter_eq_self.mpr fun y hy => by simpa using (hxs y hy).1

/-- Exactly the lists of non-empty texts without commas. -/
theorem fromQuery_iff (xs : List Str) :
    FromQuery xs ↔ xs ≠ [] ∧ ∀ x ∈ xs, x ≠ [] ∧ ',' ∉ x := by
  constructor
  · rintro ⟨hne, filter, query, value, result, hvalue, hparse, hresult⟩
    rw [username_list_of_parse hvalue hparse] at hresult
    cases hresult
    refine ⟨hne, fun x hx => ?_⟩
    obtain ⟨hsplit, hx⟩ := List.mem_filter.mp hx
    exact ⟨by simpa using hx, not_mem_of_mem_splitOn hsplit⟩
  · rintro ⟨hne, hxs⟩
    exact ⟨hne, ⟨none, none, none, none, none, none, none⟩, [("username__in".toList, join xs)],
      join xs, _, rfl, rfl, congrArg some (parseStrings_join hxs)⟩

/-- No braces, quotes, backslashes or NUL bytes, no blank at an end, and not the word NULL. -/
def Plain (x : Str) : Prop :=
  (∀ c ∈ x, c ≠ '{' ∧ c ≠ '}' ∧ c ≠ '"' ∧ c ≠ '\\' ∧ c ≠ '\x00') ∧
    (∀ c ∈ x.head?, isspace c = false) ∧ (∀ c ∈ x.getLast?, isspace c = false) ∧
    toLower x ≠ "null".toList

instance (x : Str) : Decidable (Plain x) :=
  @instDecidableAnd _ _ (List.decidableBAll _ x)
    (@instDecidableAnd _ _ (Option.decidableForallMem x.head?)
      (@instDecidableAnd _ _ (Option.decidableForallMem x.getLast?) inferInstance))

theorem plain_iff {x : Str} (hcomma : ',' ∉ x) : Plain x ↔ '\x00' ∉ x ∧ Bare x := by
  constructor
  · rintro ⟨hchars, hhead, hlast, hnull⟩
    refine ⟨fun h => (hchars _ h).2.2.2.2 rfl, fun c hc => ?_, hhead, hlast, hnull⟩
    have hne : c ≠ ',' := fun e => hcomma (e ▸ hc)
    simp [special, hne, hchars c hc]
  · rintro ⟨hnul, hbare⟩
    refine ⟨fun c hc => ?_, hbare.head, hbare.last, hbare.not_null⟩
    have hord := hbare.ordinary c hc
    have hne : c ≠ '\x00' := fun e => hnul (e ▸ hc)
    simp only [special, Bool.or_eq_false_iff, decide_eq_false_iff_not] at hord
    exact ⟨hord.1.1.1.2, hord.1.1.2, hord.1.2, hord.2, hne⟩

theorem nul_arrayToPg (xs : List Str) : '\x00' ∈ arrayToPg xs ↔ ∃ x ∈ xs, '\x00' ∈ x := by
  induction xs with
  | nil => simp [arrayToPg, join]
  | cons x xs ih =>
    cases xs with
    | nil => simp [arrayToPg, join]
    | cons y xs =>
      simp [arrayToPg, join_cons_cons] at ih ⊢
      rw [ih]

/-- The list that stands in the literal is the list that PostgreSQL compares with, if and only if
all its texts are plain. -/
theorem array_literal_iff {xs : List Str} (h : FromQuery xs) (qb : SQLBuilder) (expr cast : Str) :
    (∃ literal, (qb.whereAny expr cast xs).params = qb.params ++ [some literal] ∧
        array_in literal = some ⟨[xs.length], xs.map some⟩) ↔ ∀ x ∈ xs, Plain x := by
  obtain ⟨hne, hxs⟩ := (fromQuery_iff xs).mp h
  have hparams : (qb.whereAny expr cast xs).params = qb.params ++ [some (arrayToPg xs)] := by
    rw [SQLBuilder.whereAny, if_neg hne]
  constructor
  · rintro ⟨literal, hliteral, hread⟩ x hx
    rw [hparams] at hliteral
    obtain rfl : arrayToPg xs = literal := by simpa using hliteral
    obtain ⟨hnul, hbare⟩ := bare_of_array_in hne hread
    exact (plain_iff (hxs x hx).2).mpr
      ⟨fun hmem => hnul ((nul_arrayToPg xs).mpr ⟨x, hx, hmem⟩), hbare x hx⟩
  · intro hplain
    refine ⟨arrayToPg xs, hparams, array_in_bare hne (fun hmem => ?_) fun x hx => ?_⟩
    · obtain ⟨x, hx, hmem⟩ := (nul_arrayToPg xs).mp hmem
      exact ((plain_iff (hxs x hx).2).mp (hplain x hx)).1 hmem
    · exact ⟨(hxs x hx).1, ((plain_iff (hxs x hx).2).mp (hplain x hx)).2⟩

theorem array_literal_two :
    ∃ literal, ((SQLBuilder.create "users".toList).whereAny "username".toList "text".toList
        ["ann".toList, "bob lee".toList]).params = [] ++ [some literal] ∧
      array_in literal = some ⟨[2], [some "ann".toList, some "bob lee".toList]⟩ :=
  (array_literal_iff ((fromQuery_iff ["ann".toList, "bob lee".toList]).mpr
    ⟨List.cons_ne_nil _ _, by simp⟩) (SQLBuilder.create "users".toList) "username".toList
      "text".toList).mpr fun x hx => by
        rcases List.mem_pair.mp hx with rfl | rfl <;> decide

/-- `username__in=null` compares with the null element. -/
theorem array_literal_null :
    FromQuery ["null".toList] ∧ array_in (arrayToPg ["null".toList]) = some ⟨[1], [none]⟩ ∧
      ¬ ∃ literal, ((SQLBuilder.create "users".toList).whereAny "username".toList "text".toList
          ["null".toList]).params = [some literal] ∧
        array_in literal = some ⟨[1], [some "null".toList]⟩ := by
  have hread : array_in (arrayToPg ["null".toList]) = some ⟨[1], [none]⟩ := by decide +kernel
  refine ⟨(fromQuery_iff _).mpr ⟨List.cons_ne_nil _ _, by simp⟩, hread, ?_⟩
  rintro ⟨literal, hliteral, hback⟩
  obtain rfl : arrayToPg ["null".toList] = literal := by
    simpa [SQLBuilder.whereAny, SQLBuilder.create] using hliteral
  rw [hread] at hback
  simp at hback

end AdequateApi.PostgresArray
