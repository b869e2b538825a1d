import Mathlib.Data.List.Chain
import Mathlib.Data.List.Infix
import Mathlib.Order.Lattice

/-! Reading a sorted collection page by page while it changes: keys may go at any time, and new
keys come behind all that ever were. -/
namespace AdequateApi.PagedWalk

variable {κ : Type*} [LinearOrder κ]

/-- Keys in order, all of them before the bound. -/
structure Keys (κ : Type*) [LinearOrder κ] where
  keys : List κ
  bound : κ
  sorted : keys.Pairwise (· < ·)
  below : ∀ k ∈ keys, k < bound

/-- Some keys are gone, and the new ones are not before the bound. -/
structure Grown (s t : Keys κ) : Prop where
  bound : s.bound ≤ t.bound
  keys : ∃ kept new, t.keys = kept ++ new ∧ kept.Sublist s.keys ∧ ∀ k ∈ new, s.bound ≤ k

/-- None is gone. -/
structure Extended (s t : Keys κ) : Prop where
  keys : s.keys <+: t.keys

theorem Grown.refl (s : Keys κ) : Grown s s :=
  ⟨le_refl _, s.keys, [], (List.append_nil _).symm, List.Sublist.refl _, by simp⟩

theorem Grown.trans {s t u : Keys κ} (h : Grown s t) (h' : Grown t u) : Grown s u := by
  obtain ⟨kept, new, hsplit, hkept, hnew⟩ := h.keys
  obtain ⟨kept', new', hsplit', hkept', hnew'⟩ := h'.keys
  refine ⟨h.bound.trans h'.bound, ?_⟩
  rw [hsplit] at hkept'
  obtain ⟨l, r, rfl, hl, hr⟩ := List.sublist_append_iff.mp hkept'
  refine ⟨l, r ++ new', by rw [hsplit', List.append_assoc], hl.trans hkept, fun k hk => ?_⟩
  rcases List.mem_append.mp hk with hk | hk
  · exact hnew k (hr.subset hk)
  · exact h.bound.trans (hnew' k hk)

theorem Extended.refl (s : Keys κ) : Extended s s := ⟨List.prefix_rfl⟩

theorem Extended.trans {s t u : Keys κ} (h : Extended s t) (h' : Extended t u) : Extended s u :=
  ⟨h.keys.trans h'.keys⟩

/-- The page with this number, of `n` keys. -/
def page (n i : ℕ) (s : Keys κ) : List κ := (s.keys.drop (i * n)).take n

/-- The pages from the `i`th on, each of the collection as it is then. -/
def walk (n : ℕ) : ℕ → List (Keys κ) → List κ
  | _, [] => []
  | i, s :: later => page n i s ++ walk n (i + 1) later

/-! ### No key twice -/

/-- What is behind a page comes from behind it, or is new. -/
theorem Grown.behind {s t : Keys κ} (h : Grown s t) {m : ℕ} {k : κ} (hk : k ∈ t.keys.drop m) :
    k ∈ s.keys.drop m ∨ s.bound ≤ k := by
  obtain ⟨kept, new, hsplit, hkept, hnew⟩ := h.keys
  rw [hsplit, List.drop_append] at hk
  rcases List.mem_append.mp hk with hk | hk
  · exact .inl ((hkept.drop m).subset hk)
  · exact .inr (hnew k (List.mem_of_mem_drop hk))

/-- The keys of a page come before those behind the page, also after the collection grew. -/
theorem page_before {s t : Keys κ} (h : Grown s t) {n i : ℕ} {j k : κ} (hj : j ∈ page n i s)
    (hk : k ∈ t.keys.drop ((i + 1) * n)) : j < k := by
  have hmem : j ∈ s.keys := List.mem_of_mem_drop (List.mem_of_mem_take hj)
  rcases h.behind hk with hk | hk
  · have hsorted : (s.keys.drop (i * n)).Pairwise (· < ·) :=
      s.sorted.sublist (List.drop_sublist _ _)
    rw [← List.take_append_drop n (s.keys.drop (i * n)), List.pairwise_append] at hsorted
    rw [Nat.succ_mul, ← List.drop_drop] at hk
    exact hsorted.2.2 j hj k hk
  · exact (s.below j hmem).trans_le hk

/-- A walk shows later keys only. -/
theorem walk_behind {n i : ℕ} {s : Keys κ} {later : List (Keys κ)}
    (h : (s :: later).IsChain Grown) {k : κ} (hk : k ∈ walk n i (s :: later)) :
    k ∈ s.keys.drop (i * n) ∨ s.bound ≤ k := by
  induction later generalizing s i with
  | nil =>
    rw [walk, walk, List.append_nil] at hk
    exact .inl (List.mem_of_mem_take hk)
  | cons t later ih =>
    obtain ⟨hst, hlater⟩ := List.isChain_cons_cons.mp h
    rw [walk, List.mem_append] at hk
    rcases hk with hk | hk
    · exact .inl (List.mem_of_mem_take hk)
    · rcases ih hlater hk with hk | hk
      · have hbehind := hst.behind hk
        rw [Nat.succ_mul, ← List.drop_drop] at hbehind
        exact hbehind.imp_left List.mem_of_mem_drop
      · exact .inr (hst.bound.trans hk)

/-- Whatever happens between the pages, no key is shown twice, and they are shown in order. -/
theorem walk_sorted {n i : ℕ} {states : List (Keys κ)} (h : states.IsChain Grown) :
    (walk n i states).Pairwise (· < ·) := by
  induction states generalizing i with
  | nil => exact .nil
  | cons s later ih =>
    have hlater : later.IsChain Grown := h.tail
    rw [walk, List.pairwise_append]
    refine ⟨s.sorted.sublist ((List.take_sublist _ _).trans (List.drop_sublist _ _)), ih hlater,
      fun j hj k hk => ?_⟩
    cases later with
    | nil => cases hk
    | cons t later =>
      obtain ⟨hst, htlater⟩ := List.isChain_cons_cons.mp h
      rcases walk_behind htlater hk with hk | hk
      · exact page_before hst hj hk
      · have hmem : j ∈ s.keys := List.mem_of_mem_drop (List.mem_of_mem_take hj)
        exact (s.below j hmem).trans_le (hst.bound.trans hk)

/-! ### No key missed -/

/-- While nothing goes, a walk shows what was there at its start, in order and first. -/
theorem walk_complete {n i : ℕ} {s : Keys κ} {later : List (Keys κ)}
    (h : (s :: later).IsChain Extended) :
    (s.keys.drop (i * n)).take ((later.length + 1) * n) <+: walk n i (s :: later) := by
  induction later generalizing s i with
  | nil =>
    rw [walk, walk, List.append_nil, List.length_nil, Nat.zero_add, Nat.one_mul]
    exact List.prefix_rfl
  | cons t later ih =>
    obtain ⟨hst, hlater⟩ := List.isChain_cons_cons.mp h
    have hrest : (s.keys.drop ((i + 1) * n)).take ((later.length + 1) * n) <+:
        walk n (i + 1) (t :: later) :=
      ((hst.keys.drop _).take _).trans (ih hlater)
    rw [walk, List.length_cons, Nat.succ_mul (later.length + 1), Nat.add_comm, List.take_add,
      List.drop_drop, ← Nat.succ_mul]
    exact List.prefix_append_right_inj _ |>.mpr hrest

end AdequateApi.PagedWalk
