import AdequateApi.UserFilters

/-! Which texts `BaseFilter::parseIds` reads as the list of ids that stands in them. A token is
converted by `stoull`, which reads a number at its start, and the result is narrowed to 64 bits
with a sign. -/
namespace AdequateApi.IdListParsing
open StdString UserFilters

section filterMap

variable {α β : Type} {f s : α → Option β}

/-- A list that selects less is no longer. -/
theorem filterMap_length_le (h : ∀ x, s x = none ∨ f x = s x) (l : List α) :
    (l.filterMap s).length ≤ (l.filterMap f).length := by
  induction l with
  | nil => simp
  | cons x l ih =>
    rcases h x with hx | hx
    · cases hf : f x <;> simp only [List.filterMap_cons, hx, hf, List.length_cons] <;> omega
    · cases hs : s x <;> simp only [List.filterMap_cons, hx, hs, List.length_cons] <;> omega

/-- Where one selection only ever adds to another, the results are equal when it adds nothing. -/
theorem filterMap_eq_iff (h : ∀ x, s x = none ∨ f x = s x) (l : List α) :
    l.filterMap f = l.filterMap s ↔ ∀ x ∈ l, f x = s x := by
  induction l with
  | nil => simp
  | cons x l ih =>
    have hle := filterMap_length_le h l
    rw [List.forall_mem_cons, ← ih]
    rcases h x with hx | hx
    · cases hf : f x with
      | none => simp [hx, hf]
      | some b =>
        simp only [List.filterMap_cons, hx, hf, reduceCtorEq, false_and, iff_false]
        intro heq
        have hlength := congrArg List.length heq
        rw [List.length_cons] at hlength
        omega
    · cases hs : s x <;> simp [hx, hs]

end filterMap

/-! ### One token -/

/-- What `parseIds` makes of one token. -/
def tokenId (token : Str) : Option Int64 :=
  match stoull token with
  | .ok n => some (Int64.ofNat n)
  | .error _ => none

/-- The number that a token should stand for. -/
def wholeId (token : Str) : Option ℕ := (decimal token).filter (· < 9223372036854775808)

/-- No number stands at the start of the token, or one that has no 64 bits. -/
def Refused (token : Str) : Prop :=
  ∀ n, leadingNumber token = some n → 18446744073709551616 ≤ n.natAbs

theorem parseIds_eq (input : Str) : parseIds input = (tokens input).filterMap tokenId := rfl

theorem tokenId_whole {token : Str} {n : ℕ} (h : wholeId token = some n) :
    (tokenId token).map Int64.toInt = some (n : ℤ) := by
  obtain ⟨hread, hn⟩ := Option.filter_eq_some_iff.mp h
  have hsmall : n < 9223372036854775808 := by simpa using hn
  have hvalue : (Int64.ofNat n).toInt = n := Int64.toInt_ofNat_of_lt hsmall
  have hstoull : stoull token = .ok n := by
    simp only [stoull, leadingNumber_decimal hread, Int.natAbs_natCast]
    rw [if_pos (by omega)]
    congr 1
    omega
  simp [tokenId, hstoull, hvalue]

theorem tokenId_eq_none (token : Str) : tokenId token = none ↔ Refused token := by
  unfold tokenId stoull Refused
  cases h : leadingNumber token with
  | none => simp
  | some n =>
    by_cases hn : n.natAbs < 18446744073709551616
    · simp [hn]
    · simp only [if_neg hn, Option.some.injEq, forall_eq', true_iff]
      omega

/-- A token is right when it is a complete numeral or skipped. -/
theorem tokenId_eq_wholeId (token : Str) :
    (tokenId token).map Int64.toInt = (wholeId token).map Int.ofNat ↔
      (wholeId token).isSome ∨ Refused token := by
  cases h : wholeId token with
  | none => simp [← tokenId_eq_none]
  | some n => simp [tokenId_whole h]

/-! ### The list -/

/-- The ids are the numbers that stand in the input as whole tokens, in their order. -/
structure ParsedExactly (input : Str) : Prop where
  ids : (parseIds input).map Int64.toInt = ((tokens input).filterMap wholeId).map Int.ofNat
  whole : ∀ id ∈ parseIds input, ∃ token ∈ input.splitOn ',', ∃ n,
    decimal token = some n ∧ n < 9223372036854775808 ∧ id.toInt = n

/-- Every token is a complete numeral of an id, or is refused by the conversion. -/
theorem ids_exact_iff (input : Str) :
    ParsedExactly input ↔ ∀ token ∈ tokens input, (wholeId token).isSome ∨ Refused token := by
  have hselects : ∀ token, (wholeId token).map Int.ofNat = none ∨
      (tokenId token).map Int64.toInt = (wholeId token).map Int.ofNat := by
    intro token
    cases h : wholeId token with
    | none => exact .inl rfl
    | some n => exact .inr (tokenId_whole h)
  have hids : (parseIds input).map Int64.toInt = ((tokens input).filterMap wholeId).map Int.ofNat ↔
      ∀ token ∈ tokens input, (wholeId token).isSome ∨ Refused token := by
    rw [parseIds_eq, List.map_filterMap, List.map_filterMap, filterMap_eq_iff hselects]
    exact forall₂_congr fun token _ => tokenId_eq_wholeId token
  refine ⟨fun h => hids.mp h.ids, fun h => ⟨hids.mpr h, fun id hid => ?_⟩⟩
  have hmem : id.toInt ∈ ((tokens input).filterMap wholeId).map Int.ofNat := by
    rw [← hids.mpr h]
    exact List.mem_map_of_mem hid
  obtain ⟨n, hn, hvalue⟩ := List.mem_map.mp hmem
  obtain ⟨token, htoken, hwhole⟩ := List.mem_filterMap.mp hn
  obtain ⟨hread, hsmall⟩ := Option.filter_eq_some_iff.mp hwhole
  exact ⟨token, (List.mem_filter.mp htoken).1, n, hread, by simpa using hsmall, hvalue.symm⟩

/-- An id with other text behind it, one with a minus sign, and one beyond the signed range. -/
theorem partial_tokens_are_ids :
    parseIds "7abc,-1,9223372036854775808".toList = [7, -1, -9223372036854775808] ∧
      ¬ ParsedExactly "7abc,-1,9223372036854775808".toList := by
  refine ⟨by decide +kernel, fun h => ?_⟩
  have hnone : (tokens "7abc,-1,9223372036854775808".toList).filterMap wholeId = [] := by
    decide +kernel
  have hids := h.ids
  rw [hnone] at hids
  exact absurd hids (by decide +kernel)

end AdequateApi.IdListParsing
