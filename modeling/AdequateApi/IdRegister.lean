import Mathlib.Data.List.Basic
import Mathlib.Logic.Function.Basic

/-! Entries under numbers that are given out in order. A number may be given out for nothing,
and the number of an entry that was struck is not given out again. -/
namespace AdequateApi.IdRegister

variable {α β : Type*}

/-- No number from `next` on has an entry yet. -/
structure Register (α : Type*) where
  next : ℕ
  entries : ℕ → Option α
  fresh : ∀ n, next ≤ n → entries n = none

inductive Op (α : Type*)
  | enter (a : α)
  | skip
  | revise (n : ℕ) (f : α → α)
  | strike (n : ℕ)

/-- The operation leaves `g` of every entry as it is. -/
def Op.Keeps (g : α → β) : Op α → Prop
  | .revise _ f => ∀ a, g (f a) = g a
  | _ => True

namespace Register

def enter (r : Register α) (a : α) : Register α where
  next := r.next + 1
  entries := Function.update r.entries r.next (some a)
  fresh := fun n hn => by
    rw [Function.update_of_ne (by omega)]
    exact r.fresh n (by omega)

def skip (r : Register α) : Register α where
  next := r.next + 1
  entries := r.entries
  fresh := fun n hn => r.fresh n (by omega)

def revise (r : Register α) (n : ℕ) (f : α → α) : Register α where
  next := r.next
  entries := Function.update r.entries n ((r.entries n).map f)
  fresh := fun k hk => by
    by_cases h : k = n
    · subst h
      rw [Function.update_self, r.fresh k hk, Option.map_none]
    · rw [Function.update_of_ne h]
      exact r.fresh k hk

def strike (r : Register α) (n : ℕ) : Register α where
  next := r.next
  entries := Function.update r.entries n none
  fresh := fun k hk => by
    by_cases h : k = n
    · subst h
      rw [Function.update_self]
    · rw [Function.update_of_ne h]
      exact r.fresh k hk

def apply (r : Register α) : Op α → Register α
  | .enter a => r.enter a
  | .skip => r.skip
  | .revise n f => r.revise n f
  | .strike n => r.strike n

def run (r : Register α) (ops : List (Op α)) : Register α := ops.foldl apply r

/-- The numbers under which the operations enter something, in order. -/
def numbers : Register α → List (Op α) → List ℕ
  | _, [] => []
  | r, .enter a :: ops => r.next :: numbers (r.enter a) ops
  | r, op :: ops => numbers (r.apply op) ops

theorem run_append (r : Register α) (ops ops' : List (Op α)) :
    r.run (ops ++ ops') = (r.run ops).run ops' := List.foldl_append

theorem numbers_append (r : Register α) (ops ops' : List (Op α)) :
    r.numbers (ops ++ ops') = r.numbers ops ++ (r.run ops).numbers ops' := by
  induction ops generalizing r with
  | nil => rfl
  | cons op ops ih =>
    cases op with
    | enter a => exact congrArg (r.next :: ·) (ih (r.enter a))
    | skip => exact ih _
    | revise n f => exact ih _
    | strike n => exact ih _

/-! ### Numbers are given out once -/

theorem next_le_apply (r : Register α) (op : Op α) : r.next ≤ (r.apply op).next := by
  cases op with
  | enter a => exact Nat.le_succ _
  | skip => exact Nat.le_succ _
  | revise n f => exact Nat.le_refl _
  | strike n => exact Nat.le_refl _

theorem next_le_run (r : Register α) (ops : List (Op α)) : r.next ≤ (r.run ops).next := by
  induction ops generalizing r with
  | nil => exact Nat.le_refl _
  | cons op ops ih => exact Nat.le_trans (next_le_apply r op) (ih _)

theorem numbers_bounds {r : Register α} {ops : List (Op α)} {n : ℕ} (h : n ∈ r.numbers ops) :
    r.next ≤ n ∧ n < (r.run ops).next := by
  induction ops generalizing r with
  | nil => cases h
  | cons op ops ih =>
    have hlater : ∀ r' : Register α, r'.next = r.next ∨ r'.next = r.next + 1 →
        n ∈ r'.numbers ops → r.next ≤ n ∧ n < (r'.run ops).next := fun r' hn hmem =>
      ⟨by have := (ih hmem).1; omega, (ih hmem).2⟩
    cases op with
    | enter a =>
      rcases List.mem_cons.mp h with rfl | h
      · exact ⟨Nat.le_refl _, next_le_run (r.enter a) ops⟩
      · exact hlater _ (.inr rfl) h
    | skip => exact hlater _ (.inr rfl) h
    | revise k f => exact hlater _ (.inl rfl) h
    | strike k => exact hlater _ (.inl rfl) h

theorem numbers_increasing (r : Register α) (ops : List (Op α)) :
    (r.numbers ops).Pairwise (· < ·) := by
  induction ops generalizing r with
  | nil => exact .nil
  | cons op ops ih =>
    cases op with
    | enter a => exact .cons (fun n hn => (numbers_bounds hn).1) (ih _)
    | skip => exact ih _
    | revise n f => exact ih _
    | strike n => exact ih _

/-! ### What becomes of one entry -/

section entry
variable {r : Register α} {n : ℕ}

theorem apply_keeps {g : α → β} {op : Op α} {b : α} (hn : n < r.next) (hop : op.Keeps g)
    (h : (r.apply op).entries n = some b) : ∃ a, r.entries n = some a ∧ g a = g b := by
  cases op with
  | enter a =>
    have hsame : (r.enter a).entries n = r.entries n := Function.update_of_ne (Nat.ne_of_lt hn) _ _
    exact ⟨b, hsame ▸ h, rfl⟩
  | skip => exact ⟨b, h, rfl⟩
  | revise k f =>
    change Function.update r.entries k ((r.entries k).map f) n = some b at h
    by_cases hk : n = k
    · subst hk
      rw [Function.update_self] at h
      obtain ⟨a, ha, rfl⟩ := Option.map_eq_some_iff.mp h
      exact ⟨a, ha, (hop a).symm⟩
    · rw [Function.update_of_ne hk] at h
      exact ⟨b, h, rfl⟩
  | strike k =>
    change Function.update r.entries k none n = some b at h
    by_cases hk : n = k
    · subst hk
      rw [Function.update_self] at h
      cases h
    · rw [Function.update_of_ne hk] at h
      exact ⟨b, h, rfl⟩

/-- An entry that is there at the end was there all along, with the same `g`. -/
theorem run_keeps {g : α → β} {ops : List (Op α)} {b : α} (hn : n < r.next)
    (hops : ∀ op ∈ ops, op.Keeps g) (h : (r.run ops).entries n = some b) :
    ∃ a, r.entries n = some a ∧ g a = g b := by
  induction ops generalizing r with
  | nil => exact ⟨b, h, rfl⟩
  | cons op ops ih =>
    obtain ⟨hop, hops⟩ := List.forall_mem_cons.mp hops
    obtain ⟨a', ha', hg'⟩ := ih (Nat.lt_of_lt_of_le hn (next_le_apply r op)) hops h
    obtain ⟨a, ha, hg⟩ := apply_keeps hn hop ha'
    exact ⟨a, ha, hg.trans hg'⟩

end entry

end Register
end AdequateApi.IdRegister
