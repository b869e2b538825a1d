import AdequateApi.LoggedAction

/-! What a program does to its state, as a relation between the states before and after, with one
rule for each way of composing programs. -/
namespace AdequateApi.LoggedAction.Action

variable {ω σ ε α β : Type}

/-- The states before and after are in the relation, however the program ends. -/
def Effect (R : σ → σ → Prop) (x : Action ω σ ε α) : Prop := ∀ s, R s (x s).state

/-- A relation between states that programs may go through one after another. -/
structure Composes (R : σ → σ → Prop) : Prop where
  refl : ∀ s, R s s
  trans : ∀ {s t u}, R s t → R t u → R s u

variable {R : σ → σ → Prop}

theorem composes_eq : Composes (Eq : σ → σ → Prop) := ⟨fun _ => rfl, Eq.trans⟩

theorem effect_pure (hR : Composes R) (a : α) : Effect R (pure a : Action ω σ ε α) := hR.refl

theorem effect_fail (hR : Composes R) (e : ε) : Effect R (fail e : Action ω σ ε α) := hR.refl

theorem effect_record (hR : Composes R) (w : ω) : Effect R (record w : Action ω σ ε Unit) :=
  hR.refl

theorem effect_lift (hR : Composes R) (e : Except ε α) :
    Effect R (lift e : Action ω σ ε α) := hR.refl

theorem effect_change {f : σ → σ × Except ε α} (h : ∀ s, R s (f s).1) :
    Effect R (change f : Action ω σ ε α) := h

theorem Effect.bind (hR : Composes R) {x : Action ω σ ε α} {f : α → Action ω σ ε β}
    (hx : Effect R x) (hf : ∀ a, Effect R (f a)) : Effect R (x >>= f) := by
  intro s
  have hs := hx s
  generalize hr : x s = r at hs
  obtain ⟨log, t, result⟩ := r
  cases result with
  | error e =>
    rw [bind_error hr]
    exact hs
  | ok a =>
    rw [bind_ok hr]
    exact hR.trans hs (hf a t)

theorem Effect.rescue (hR : Composes R) {x : Action ω σ ε α}
    {handler : ε → Option (Action ω σ ε α)} (hx : Effect R x)
    (hh : ∀ e, ∀ y ∈ handler e, Effect R y) : Effect R (rescue x handler) := by
  intro s
  have hs := hx s
  generalize hr : x s = r at hs
  obtain ⟨log, t, result⟩ := r
  cases result with
  | ok a =>
    rw [rescue_ok hr]
    exact hs
  | error e =>
    cases hy : handler e with
    | none =>
      rw [rescue_passed hr hy]
      exact hs
    | some y =>
      rw [rescue_taken hr hy]
      exact hR.trans hs (hh e y hy t)

/-! ### What a program ends with -/

/-- Every value of the program has the property. -/
def Ends (p : α → Prop) (x : Action ω σ ε α) : Prop := ∀ s a, (x s).result = .ok a → p a

section ends
variable {p : β → Prop}

theorem ends_pure {b : β} (h : p b) : Ends p (pure b : Action ω σ ε β) := by
  intro s a ha
  cases ha
  exact h

theorem Ends.bind_of {q : α → Prop} {x : Action ω σ ε α} {f : α → Action ω σ ε β} (hx : Ends q x)
    (hf : ∀ a, q a → Ends p (f a)) : Ends p (x >>= f) := by
  intro s b hb
  have hq := hx s
  generalize hr : x s = r at hq
  obtain ⟨log, t, result⟩ := r
  cases result with
  | error e =>
    rw [bind_error hr] at hb
    cases hb
  | ok a =>
    rw [bind_ok hr] at hb
    exact hf a (hq a rfl) t b hb

theorem Ends.bind {x : Action ω σ ε α} {f : α → Action ω σ ε β} (hf : ∀ a, Ends p (f a)) :
    Ends p (x >>= f) := bind_of (fun _ _ _ => trivial) fun a _ => hf a

end ends

/-! ### How a program came to its value -/

variable {x : Action ω σ ε α} {f : α → Action ω σ ε β} {s : σ}

theorem result_bind_ok {b : β} :
    ((x >>= f) s).result = .ok b ↔
      ∃ a, (x s).result = .ok a ∧ (f a (x s).state).result = .ok b := by
  generalize hr : x s = r
  obtain ⟨log, t, result⟩ := r
  cases result with
  | error e =>
    rw [bind_error hr]
    simp
  | ok a =>
    rw [bind_ok hr, Ran.after_result]
    simp

theorem result_rescue_ok {handler : ε → Option (Action ω σ ε α)} {a : α} :
    (rescue x handler s).result = .ok a ↔
      (x s).result = .ok a ∨ ∃ e y, (x s).result = .error e ∧ handler e = some y ∧
        (y (x s).state).result = .ok a := by
  generalize hr : x s = r
  obtain ⟨log, t, result⟩ := r
  cases result with
  | ok b =>
    rw [rescue_ok hr]
    simp
  | error e =>
    cases hy : handler e with
    | none =>
      rw [rescue_passed hr hy]
      simp [hy]
    | some y =>
      rw [rescue_taken hr hy, Ran.after_result]
      simp [hy]

end AdequateApi.LoggedAction.Action
