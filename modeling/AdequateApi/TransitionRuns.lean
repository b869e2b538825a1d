import Mathlib.Data.List.Basic

/-! Finite runs of a partial step function, under a side condition on each step.
`run` executes a schedule; `Runs` is the relation the invariant rules induct on. -/
namespace AdequateApi.TransitionRuns

variable {σ ι : Type*}

/-- Execute a schedule; `none` as soon as one event is not enabled. -/
def run (step : σ → ι → Option σ) : σ → List ι → Option σ
  | s, [] => some s
  | s, e :: es => (step s e).bind fun t => run step t es

/-- Schedules from `s₀` whose every step is enabled and meets `ok` in the state it leaves. -/
inductive Runs (step : σ → ι → Option σ) (ok : σ → ι → Prop) (s₀ : σ) : List ι → σ → Prop
  | start : Runs step ok s₀ [] s₀
  | snoc {es : List ι} {s t : σ} {e : ι}
      (prior : Runs step ok s₀ es s)
      (allowed : ok s e)
      (next : step s e = some t) : Runs step ok s₀ (es ++ [e]) t

variable {step : σ → ι → Option σ} {ok weaker : σ → ι → Prop} {s₀ s t u : σ}

theorem Runs.single {e : ι} (h : step s e = some t) (ha : ok s e) : Runs step ok s [e] t :=
  .snoc .start ha h

theorem Runs.append {es fs : List ι} (h : Runs step ok s es t) (k : Runs step ok t fs u) :
    Runs step ok s (es ++ fs) u := by
  induction k with
  | start => simpa using h
  | snoc _ ha hn ih =>
    rw [← List.append_assoc]
    exact .snoc ih ha hn

/-- Invariant rule: what holds at the start and survives every allowed step holds throughout. -/
theorem Runs.invariant {Inv : σ → Prop} {es : List ι} (h : Runs step ok s₀ es s)
    (base : Inv s₀) (preserve : ∀ s e t, Inv s → ok s e → step s e = some t → Inv t) :
    Inv s := by
  induction h with
  | start => exact base
  | snoc _ ha hn ih => exact preserve _ _ _ ih ha hn

/-- Consequence rule: a side condition may be traded for one that follows from it in every
state that meets the invariant. -/
theorem Runs.consequence {Inv : σ → Prop} {es : List ι} (h : Runs step ok s₀ es s)
    (base : Inv s₀) (preserve : ∀ s e t, Inv s → ok s e → step s e = some t → Inv t)
    (imp : ∀ s e t, Inv s → ok s e → step s e = some t → weaker s e) :
    Runs step weaker s₀ es s := by
  induction h with
  | start => exact .start
  | snoc prior ha hn ih =>
    exact .snoc ih (imp _ _ _ (prior.invariant base preserve) ha hn) hn

theorem Runs.mono {es : List ι} (h : Runs step ok s₀ es s)
    (imp : ∀ s e t, ok s e → step s e = some t → weaker s e) : Runs step weaker s₀ es s := by
  induction h with
  | start => exact .start
  | snoc _ ha hn ih => exact .snoc ih (imp _ _ _ ha hn) hn

/-- A step function that refuses what the side condition refuses. -/
def guarded (step : σ → ι → Option σ) (ok : σ → ι → Prop) [∀ s, DecidablePred (ok s)]
    (s : σ) (e : ι) : Option σ :=
  if ok s e then step s e else none

/-- A schedule that executes under the guard is a run. -/
theorem runs_of_guarded [∀ s, DecidablePred (ok s)] {es : List ι}
    (h : run (guarded step ok) s es = some t) : Runs step ok s es t := by
  induction es generalizing s with
  | nil =>
    simp only [run, Option.some.injEq] at h
    exact h ▸ .start
  | cons e es ih =>
    obtain ⟨m, hm, hr⟩ := Option.bind_eq_some_iff.mp h
    simp only [guarded, Option.ite_none_right_eq_some] at hm
    exact (Runs.single hm.2 hm.1).append (ih hr)

end AdequateApi.TransitionRuns
