/-! Programs that change a state, may fail, and keep records while they run. -/
namespace AdequateApi.LoggedAction

variable {ω σ ε α β : Type}

/-- How a program ended: its records in order, the state it left, and its result. -/
structure Ran (ω σ ε α : Type) where
  log : List ω
  state : σ
  result : Except ε α

/-- The same end after earlier records. -/
def Ran.after (r : Ran ω σ ε α) (log : List ω) : Ran ω σ ε α := { r with log := log ++ r.log }

@[simp] theorem Ran.after_log (r : Ran ω σ ε α) (log : List ω) :
    (r.after log).log = log ++ r.log := rfl

@[simp] theorem Ran.after_state (r : Ran ω σ ε α) (log : List ω) :
    (r.after log).state = r.state := rfl

@[simp] theorem Ran.after_result (r : Ran ω σ ε α) (log : List ω) :
    (r.after log).result = r.result := rfl

@[simp] theorem Ran.after_mk (log log' : List ω) (s : σ) (e : Except ε α) :
    Ran.after ⟨log', s, e⟩ log = ⟨log ++ log', s, e⟩ := rfl

theorem Ran.after_after (r : Ran ω σ ε α) (log log' : List ω) :
    (r.after log').after log = r.after (log ++ log') := by
  simp [Ran.after]

def Action (ω σ ε α : Type) := σ → Ran ω σ ε α

namespace Action

def ret (a : α) : Action ω σ ε α := fun s => ⟨[], s, .ok a⟩

def andThen (x : Action ω σ ε α) (f : α → Action ω σ ε β) : Action ω σ ε β := fun s =>
  match (x s).result with
  | .ok a => (f a (x s).state).after (x s).log
  | .error e => ⟨(x s).log, (x s).state, .error e⟩

instance : Monad (Action ω σ ε) where
  pure := ret
  bind := andThen

def fail (e : ε) : Action ω σ ε α := fun s => ⟨[], s, .error e⟩

def record (w : ω) : Action ω σ ε Unit := fun s => ⟨[w], s, .ok ()⟩

def lift (x : Except ε α) : Action ω σ ε α := fun s => ⟨[], s, x⟩

/-- A change of the state, which may fail. -/
def change (f : σ → σ × Except ε α) : Action ω σ ε α := fun s => ⟨[], (f s).1, (f s).2⟩

/-- A change whose own records depend on the state it finds. -/
def traced (log : σ → List ω) (f : σ → σ × Except ε α) : Action ω σ ε α := fun s =>
  ⟨log s, (f s).1, (f s).2⟩

/-- `try` and `catch`; a failure that no handler takes goes on. -/
def rescue (x : Action ω σ ε α) (handler : ε → Option (Action ω σ ε α)) : Action ω σ ε α := fun s =>
  match (x s).result with
  | .ok a => ⟨(x s).log, (x s).state, .ok a⟩
  | .error e =>
      match handler e with
      | some y => (y (x s).state).after (x s).log
      | none => ⟨(x s).log, (x s).state, .error e⟩

/-! ### Running a program step by step -/

@[simp] theorem run_pure (a : α) (s : σ) :
    (pure a : Action ω σ ε α) s = ⟨[], s, .ok a⟩ := rfl

@[simp] theorem run_fail (e : ε) (s : σ) :
    (fail e : Action ω σ ε α) s = ⟨[], s, .error e⟩ := rfl

@[simp] theorem run_record (w : ω) (s : σ) :
    (record w : Action ω σ ε Unit) s = ⟨[w], s, .ok ()⟩ := rfl

@[simp] theorem run_lift (x : Except ε α) (s : σ) :
    (lift x : Action ω σ ε α) s = ⟨[], s, x⟩ := rfl

@[simp] theorem run_change (f : σ → σ × Except ε α) (s : σ) :
    (change f : Action ω σ ε α) s = ⟨[], (f s).1, (f s).2⟩ := rfl

@[simp] theorem run_traced (log : σ → List ω) (f : σ → σ × Except ε α) (s : σ) :
    (traced log f : Action ω σ ε α) s = ⟨log s, (f s).1, (f s).2⟩ := rfl

theorem bind_ok {x : Action ω σ ε α} {s t : σ} {log : List ω} {a : α} (h : x s = ⟨log, t, .ok a⟩)
    (f : α → Action ω σ ε β) : (x >>= f) s = (f a t).after log := by
  change andThen x f s = _
  rw [andThen, h]

theorem bind_error {x : Action ω σ ε α} {s t : σ} {log : List ω} {e : ε}
    (h : x s = ⟨log, t, .error e⟩) (f : α → Action ω σ ε β) :
    (x >>= f) s = ⟨log, t, .error e⟩ := by
  change andThen x f s = _
  rw [andThen, h]

@[simp] theorem record_bind (w : ω) (f : Unit → Action ω σ ε β) (s : σ) :
    (record w >>= f) s = (f () s).after [w] := bind_ok (run_record w s) f

@[simp] theorem lift_ok_bind (a : α) (f : α → Action ω σ ε β) (s : σ) :
    (lift (.ok a) >>= f) s = f a s := bind_ok (run_lift (.ok a) s) f

@[simp] theorem lift_error_bind (e : ε) (f : α → Action ω σ ε β) (s : σ) :
    (lift (.error e) >>= f) s = ⟨[], s, .error e⟩ := bind_error (run_lift (.error e) s) f

theorem change_ok_bind {change' : σ → σ × Except ε α} {s t : σ} {a : α}
    (h : change' s = (t, .ok a)) (f : α → Action ω σ ε β) :
    (change change' >>= f) s = f a t := by
  have hx : (change change' : Action ω σ ε α) s = ⟨[], t, .ok a⟩ := by rw [run_change, h]
  rw [bind_ok hx]
  rfl

theorem change_error_bind {change' : σ → σ × Except ε α} {s t : σ} {e : ε}
    (h : change' s = (t, .error e)) (f : α → Action ω σ ε β) :
    (change change' >>= f) s = ⟨[], t, .error e⟩ :=
  bind_error (by rw [run_change, h]) f

theorem traced_ok_bind {log : σ → List ω} {change' : σ → σ × Except ε α} {s t : σ} {a : α}
    (h : change' s = (t, .ok a)) (f : α → Action ω σ ε β) :
    (traced log change' >>= f) s = (f a t).after (log s) :=
  bind_ok (by rw [run_traced, h]) f

theorem traced_error_bind {log : σ → List ω} {change' : σ → σ × Except ε α} {s t : σ} {e : ε}
    (h : change' s = (t, .error e)) (f : α → Action ω σ ε β) :
    (traced log change' >>= f) s = ⟨log s, t, .error e⟩ :=
  bind_error (by rw [run_traced, h]) f

theorem rescue_ok {x : Action ω σ ε α} {s t : σ} {log : List ω} {a : α} (h : x s = ⟨log, t, .ok a⟩)
    (handler : ε → Option (Action ω σ ε α)) : rescue x handler s = ⟨log, t, .ok a⟩ := by
  rw [rescue, h]

theorem rescue_taken {x y : Action ω σ ε α} {s t : σ} {log : List ω} {e : ε}
    {handler : ε → Option (Action ω σ ε α)} (h : x s = ⟨log, t, .error e⟩)
    (hy : handler e = some y) : rescue x handler s = (y t).after log := by
  rw [rescue, h]
  simp only [hy]

theorem rescue_passed {x : Action ω σ ε α} {s t : σ} {log : List ω} {e : ε}
    {handler : ε → Option (Action ω σ ε α)} (h : x s = ⟨log, t, .error e⟩)
    (hn : handler e = none) : rescue x handler s = ⟨log, t, .error e⟩ := by
  rw [rescue, h]
  simp only [hn]

/-! ### Programs that only keep records -/

/-- The program leaves the state as it is and ends with `e` from every state. -/
def Yields (x : Action ω σ ε α) (e : Except ε α) : Prop :=
  ∀ s, (x s).state = s ∧ (x s).result = e

theorem yields_lift (e : Except ε α) : Yields (lift e : Action ω σ ε α) e := fun _ => ⟨rfl, rfl⟩

theorem yields_pure (a : α) : Yields (pure a : Action ω σ ε α) (.ok a) := fun _ => ⟨rfl, rfl⟩

theorem yields_fail (e : ε) : Yields (fail e : Action ω σ ε α) (.error e) := fun _ => ⟨rfl, rfl⟩

theorem Yields.run {x : Action ω σ ε α} {e : Except ε α} (h : Yields x e) (s : σ) :
    x s = ⟨(x s).log, s, e⟩ := by
  obtain ⟨hs, he⟩ := h s
  calc x s = ⟨(x s).log, (x s).state, (x s).result⟩ := rfl
    _ = ⟨(x s).log, s, e⟩ := by rw [hs, he]

theorem Yields.bind {x : Action ω σ ε α} {e : Except ε α} {f : α → Action ω σ ε β}
    {g : α → Except ε β} (hx : Yields x e) (hf : ∀ a, Yields (f a) (g a)) :
    Yields (x >>= f) (e >>= g) := by
  intro s
  cases e with
  | error e => rw [bind_error (hx.run s)]; exact ⟨rfl, rfl⟩
  | ok a =>
    rw [bind_ok (hx.run s)]
    exact hf a s

theorem Yields.after_record {f : Unit → Action ω σ ε β} {e : Except ε β} (w : ω)
    (h : Yields (f ()) e) : Yields (record w >>= f) e := by
  intro s
  rw [record_bind]
  exact h s

/-! ### Earlier records -/

theorem bind_after {x y : Action ω σ ε α} {s : σ} {log : List ω} (h : x s = (y s).after log)
    (f : α → Action ω σ ε β) : (x >>= f) s = ((y >>= f) s).after log := by
  generalize hy : y s = r at h
  obtain ⟨log', t, e⟩ := r
  cases e with
  | error e => rw [bind_error h, bind_error hy, Ran.after_mk]
  | ok a => rw [bind_ok h, bind_ok hy, Ran.after_after]

theorem rescue_after {x y : Action ω σ ε α} {s : σ} {log : List ω} (h : x s = (y s).after log)
    (handler : ε → Option (Action ω σ ε α)) :
    rescue x handler s = (rescue y handler s).after log := by
  generalize hy : y s = r at h
  obtain ⟨log', t, e⟩ := r
  cases e with
  | ok a => rw [rescue_ok h, rescue_ok hy, Ran.after_mk]
  | error e =>
    cases hh : handler e with
    | none => rw [rescue_passed h hh, rescue_passed hy hh, Ran.after_mk]
    | some z => rw [rescue_taken h hh, rescue_taken hy hh, Ran.after_after]

end Action

/-! ### Two runs side by side -/

/-- The same failure, or two values in the relation. -/
inductive Results {α β : Type} (R : α → β → Prop) : Except ε α → Except ε β → Prop
  | error (e : ε) : Results R (.error e) (.error e)
  | ok {a : α} {b : β} (h : R a b) : Results R (.ok a) (.ok b)

theorem Results.mapError {α β ε' : Type} {R : α → β → Prop} {e : Except ε α} {e' : Except ε β}
    (h : Results R e e') (f : ε → ε') : Results R (e.mapError f) (e'.mapError f) := by
  cases h with
  | error e => exact .error _
  | ok h => exact .ok h

/-- Both runs leave the same records; nothing is said of the states. -/
structure Matches {α β : Type} (R : α → β → Prop) (r : Ran ω σ ε α) (r' : Ran ω σ ε β) : Prop where
  log : r.log = r'.log
  results : Results R r.result r'.result

namespace Matches
open AdequateApi.LoggedAction.Action

variable {α' β' : Type} {R : α → α' → Prop} {Q : β → β' → Prop} {s t : σ}

/-- A run beside itself: the two values are one, and it is the run's result. -/
theorem self (r : Ran ω σ ε α) : Matches (fun a b => a = b ∧ r.result = .ok a) r r := by
  refine ⟨rfl, ?_⟩
  cases r.result with
  | error e => exact .error e
  | ok a => exact .ok ⟨rfl, rfl⟩

theorem after {r : Ran ω σ ε α} {r' : Ran ω σ ε α'} (h : Matches R r r') (log : List ω) :
    Matches R (r.after log) (r'.after log) :=
  ⟨by rw [Ran.after_log, Ran.after_log, h.log], h.results⟩

theorem bind {x : Action ω σ ε α} {y : Action ω σ ε α'} {f : α → Action ω σ ε β}
    {g : α' → Action ω σ ε β'} (hx : Matches R (x s) (y t))
    (hf : ∀ a b, R a b → ∀ u v, Matches Q (f a u) (g b v)) :
    Matches Q ((x >>= f) s) ((y >>= g) t) := by
  generalize hr : x s = r at hx
  generalize hr' : y t = r' at hx
  obtain ⟨log, u, e⟩ := r
  obtain ⟨log', v, e'⟩ := r'
  obtain ⟨rfl, hresults⟩ := hx
  cases hresults with
  | error e =>
    rw [bind_error hr, bind_error hr']
    exact ⟨rfl, .error e⟩
  | ok h =>
    rw [bind_ok hr, bind_ok hr']
    exact (hf _ _ h u v).after log

theorem rescue {x : Action ω σ ε α} {y : Action ω σ ε α'} {handler : ε → Option (Action ω σ ε α)}
    {handler' : ε → Option (Action ω σ ε α')} (hx : Matches R (x s) (y t))
    (hh : ∀ e, (handler e = none ∧ handler' e = none) ∨
      ∃ z z', handler e = some z ∧ handler' e = some z' ∧ ∀ u v, Matches R (z u) (z' v)) :
    Matches R (rescue x handler s) (rescue y handler' t) := by
  generalize hr : x s = r at hx
  generalize hr' : y t = r' at hx
  obtain ⟨log, u, e⟩ := r
  obtain ⟨log', v, e'⟩ := r'
  obtain ⟨rfl, hresults⟩ := hx
  cases hresults with
  | ok h =>
    rw [rescue_ok hr, rescue_ok hr']
    exact ⟨rfl, .ok h⟩
  | error e =>
    rcases hh e with ⟨hn, hn'⟩ | ⟨z, z', hz, hz', hsome⟩
    · rw [rescue_passed hr hn, rescue_passed hr' hn']
      exact ⟨rfl, .error e⟩
    · rw [rescue_taken hr hz, rescue_taken hr' hz']
      exact (hsome u v).after log

end Matches
end AdequateApi.LoggedAction
