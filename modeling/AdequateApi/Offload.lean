import AdequateApi.TransitionRuns

/-! `async_offload`: a task on the blocking pool, cancellation signals and the completions they
post to the io executor, one access to the shared flags at a time. -/
namespace AdequateApi.Offload
open TransitionRuns

/-- Whether the function returns a value or `void`. -/
inductive Variant
  | void
  | value
  deriving DecidableEq, Repr

/-- The task on the blocking pool: waiting, past its test of `cancelled` with `func` running or
left out, with the outcome written, and with its completion posted. -/
inductive Worker
  | queued
  | running
  | aborting
  | written
  | posted
  deriving DecidableEq, Repr

/-- The completion posted by the task; it takes the handler after it has won the exchange. -/
inductive Completion
  | absent
  | posted
  | taking
  | done
  deriving DecidableEq, Repr

/-- The arguments of one call of the handler. -/
structure Invocation (E R : Type*) where
  ep : Option E
  result : Option R

/-- The shared state, the tasks that hold it, and what has been observed: `signals` counts the
signals that have set `cancelled` and not yet posted, `cancels` and `takers` the completions
they posted, before and after a won exchange. -/
structure OffloadState (E R : Type*) where
  h : Bool
  cancelled : Bool
  completed : Bool
  ep : Option E
  result : Option R
  worker : Worker
  completion : Completion
  signals : ℕ
  cancels : ℕ
  takers : ℕ
  invoked : List (Invocation E R)
  signalled : Bool
  -- an empty `std::optional` was dereferenced
  fault : Bool

inductive Event
  | signal
  | postCancel
  | load
  | finish
  | post
  | exchangeCancel
  | takeCancel
  | exchangeCompletion
  | takeCompletion
  deriving DecidableEq, Repr

variable {E R : Type*}

def start : OffloadState E R where
  h := true
  cancelled := false
  completed := false
  ep := none
  result := none
  worker := .queued
  completion := .absent
  signals := 0
  cancels := 0
  takers := 0
  invoked := []
  signalled := false
  fault := false

namespace OffloadState

/-- Every task that was posted has ended. -/
def Settled (s : OffloadState E R) : Prop :=
  s.worker = .posted ∧ s.completion = .done ∧ s.cancels = 0 ∧ s.takers = 0

/-- Somebody still holds the state; otherwise `wst.lock()` fails. -/
def Held (s : OffloadState E R) : Prop := ¬ s.Settled ∨ 0 < s.signals

instance (s : OffloadState E R) : Decidable s.Settled := by
  unfold Settled
  infer_instance

instance (s : OffloadState E R) : Decidable s.Held := by
  unfold Held
  infer_instance

/-- Move the handler out and call it. -/
def invoke (s : OffloadState E R) (ep : Option E) (result : Option R) : OffloadState E R :=
  { s with h := false, invoked := s.invoked ++ [⟨ep, result⟩] }

end OffloadState

/-- `func()` has ended. -/
def record (variant : Variant) (s : OffloadState E R) : Except E R → OffloadState E R
  | .ok r => { s with worker := .written, result := if variant = .value then some r else none }
  | .error e => { s with worker := .written, ep := some e }

section step
variable (variant : Variant) (func : Except E R) (aborted : E)

def step (s : OffloadState E R) : Event → Option (OffloadState E R)
  | .signal =>
      if s.Held then
        some { s with cancelled := true, signalled := true, signals := s.signals + 1 }
      else some s
  | .postCancel =>
      if 0 < s.signals then some { s with signals := s.signals - 1, cancels := s.cancels + 1 }
      else none
  | .load =>
      if s.worker = .queued then
        some { s with worker := if s.cancelled then .aborting else .running }
      else none
  | .finish =>
      if s.worker = .running then some (record variant s func)
      else if s.worker = .aborting then some { s with worker := .written, ep := some aborted }
      else none
  | .post =>
      if s.worker = .written then some { s with worker := .posted, completion := .posted }
      else none
  | .exchangeCancel =>
      if 0 < s.cancels then
        if s.completed then some { s with cancels := s.cancels - 1 }
        else some { s with cancels := s.cancels - 1, completed := true, takers := s.takers + 1 }
      else none
  | .takeCancel =>
      if 0 < s.takers then
        let s := { s with takers := s.takers - 1 }
        -- just in case
        if s.h then some (s.invoke (some aborted) none) else some s
      else none
  | .exchangeCompletion =>
      if s.completion = .posted then
        if s.completed then some { s with completion := .done }
        else some { s with completion := .taking, completed := true }
      else none
  | .takeCompletion =>
      if s.completion = .taking then
        let s := { s with completion := .done }
        if s.h then some (s.invoke s.ep s.result) else some { s with fault := true }
      else none

end step

variable {s t : OffloadState E R} {variant : Variant} {func : Except E R} {aborted : E}

/-- The transitions, one constructor for each way a step can go. -/
inductive Step (variant : Variant) (func : Except E R) (aborted : E) (s : OffloadState E R) :
    Event → OffloadState E R → Prop
  | signalled (held : s.Held) :
      Step variant func aborted s .signal
        { s with cancelled := true, signalled := true, signals := s.signals + 1 }
  | unheard (gone : ¬ s.Held) : Step variant func aborted s .signal s
  | postCancel (signal : 0 < s.signals) :
      Step variant func aborted s .postCancel
        { s with signals := s.signals - 1, cancels := s.cancels + 1 }
  | load (queued : s.worker = .queued) :
      Step variant func aborted s .load
        { s with worker := if s.cancelled then .aborting else .running }
  | finish (running : s.worker = .running) :
      Step variant func aborted s .finish (record variant s func)
  | abort (aborting : s.worker = .aborting) :
      Step variant func aborted s .finish { s with worker := .written, ep := some aborted }
  | post (written : s.worker = .written) :
      Step variant func aborted s .post { s with worker := .posted, completion := .posted }
  | lostCancel (cancel : 0 < s.cancels) (taken : s.completed = true) :
      Step variant func aborted s .exchangeCancel { s with cancels := s.cancels - 1 }
  | wonCancel (cancel : 0 < s.cancels) (free : s.completed = false) :
      Step variant func aborted s .exchangeCancel
        { s with cancels := s.cancels - 1, completed := true, takers := s.takers + 1 }
  | takeCancel (taker : 0 < s.takers) (handler : s.h = true) :
      Step variant func aborted s .takeCancel
        (OffloadState.invoke { s with takers := s.takers - 1 } (some aborted) none)
  | nothingLeft (taker : 0 < s.takers) (gone : s.h = false) :
      Step variant func aborted s .takeCancel { s with takers := s.takers - 1 }
  | lostCompletion (posted : s.completion = .posted) (taken : s.completed = true) :
      Step variant func aborted s .exchangeCompletion { s with completion := .done }
  | wonCompletion (posted : s.completion = .posted) (free : s.completed = false) :
      Step variant func aborted s .exchangeCompletion
        { s with completion := .taking, completed := true }
  | takeCompletion (taking : s.completion = .taking) (handler : s.h = true) :
      Step variant func aborted s .takeCompletion
        (OffloadState.invoke { s with completion := .done } s.ep s.result)
  | fault (taking : s.completion = .taking) (gone : s.h = false) :
      Step variant func aborted s .takeCompletion { s with completion := .done, fault := true }

theorem step_of {e : Event} (hs : step variant func aborted s e = some t) :
    Step variant func aborted s e t := by
  cases e with
  | signal =>
    simp only [step] at hs
    split at hs <;> rename_i hheld <;> cases hs
    · exact .signalled hheld
    · exact .unheard hheld
  | postCancel =>
    simp only [step, Option.ite_none_right_eq_some, Option.some.injEq] at hs
    exact hs.2 ▸ .postCancel hs.1
  | load =>
    simp only [step, Option.ite_none_right_eq_some, Option.some.injEq] at hs
    exact hs.2 ▸ .load hs.1
  | finish =>
    simp only [step] at hs
    split at hs
    · rename_i hrunning
      cases hs
      exact .finish hrunning
    · simp only [Option.ite_none_right_eq_some, Option.some.injEq] at hs
      exact hs.2 ▸ .abort hs.1
  | post =>
    simp only [step, Option.ite_none_right_eq_some, Option.some.injEq] at hs
    exact hs.2 ▸ .post hs.1
  | exchangeCancel =>
    simp only [step, Option.ite_none_right_eq_some] at hs
    obtain ⟨hcancel, hs⟩ := hs
    split at hs <;> rename_i hc <;> cases hs
    · exact .lostCancel hcancel hc
    · exact .wonCancel hcancel (by simpa using hc)
  | takeCancel =>
    simp only [step, Option.ite_none_right_eq_some] at hs
    obtain ⟨htaker, hs⟩ := hs
    split at hs <;> rename_i hh <;> cases hs
    · exact .takeCancel htaker hh
    · exact .nothingLeft htaker (by simpa using hh)
  | exchangeCompletion =>
    simp only [step, Option.ite_none_right_eq_some] at hs
    obtain ⟨hposted, hs⟩ := hs
    split at hs <;> rename_i hc <;> cases hs
    · exact .lostCompletion hposted hc
    · exact .wonCompletion hposted (by simpa using hc)
  | takeCompletion =>
    simp only [step, Option.ite_none_right_eq_some] at hs
    obtain ⟨htaking, hs⟩ := hs
    split at hs <;> rename_i hh <;> cases hs
    · exact .takeCompletion htaking hh
    · exact .fault htaking (by simpa using hh)

/-! ### Who takes the handler -/

/-- Each won exchange of `completed` has its taker or its call of the handler, and only one
exchange is won. -/
structure Exclusive (s : OffloadState E R) : Prop where
  taken : s.takers + (if s.completion = .taking then 1 else 0) + s.invoked.length =
    if s.completed then 1 else 0
  engaged : s.h = true ↔ s.invoked = []
  exchanged : s.completion = .taking ∨ s.completion = .done → s.completed = true
  posting : s.completion = .absent ↔ s.worker ≠ .posted
  sound : s.fault = false

theorem exclusive_start : Exclusive (start : OffloadState E R) where
  taken := rfl
  engaged := ⟨fun _ => rfl, fun _ => rfl⟩
  exchanged := fun h => by simp [start] at h
  posting := ⟨fun _ => by simp [start], fun _ => rfl⟩
  sound := rfl

/-- A taker finds the handler: nobody has been before it. -/
theorem Exclusive.free (h : Exclusive s) (htaker : 0 < s.takers ∨ s.completion = .taking) :
    s.h = true ∧ s.invoked = [] ∧ s.completed = true := by
  have htaken := h.taken
  have hcompleted : s.completed = true := by
    by_contra hc
    rw [if_neg hc] at htaken
    rcases htaker with ht | ht
    · omega
    · rw [if_pos ht] at htaken
      omega
  have hnone : s.invoked = [] := by
    rw [if_pos hcompleted] at htaken
    apply List.eq_nil_of_length_eq_zero
    rcases htaker with ht | ht
    · omega
    · rw [if_pos ht] at htaken
      omega
  exact ⟨h.engaged.mpr hnone, hnone, hcompleted⟩

/-- The completion is posted only after the worker is done. -/
theorem Exclusive.posted (h : Exclusive s) (hc : s.completion ≠ .absent) : s.worker = .posted := by
  by_contra hw
  exact hc (h.posting.mpr hw)

theorem Exclusive.step (h : Exclusive s) {e : Event} (hs : Step variant func aborted s e t) :
    Exclusive t := by
  have htaken := h.taken
  cases hs with
  | signalled | postCancel => exact ⟨h.taken, h.engaged, h.exchanged, h.posting, h.sound⟩
  | unheard => exact h
  | load hw =>
    refine ⟨h.taken, h.engaged, h.exchanged, ?_, h.sound⟩
    have habsent := h.posting.mpr (by simp [hw])
    dsimp only
    split <;> simp [habsent]
  | finish hw =>
    have habsent := h.posting.mpr (by simp [hw])
    cases func with
    | ok r => exact ⟨h.taken, h.engaged, h.exchanged, by simp [record, habsent], h.sound⟩
    | error e => exact ⟨h.taken, h.engaged, h.exchanged, by simp [record, habsent], h.sound⟩
  | abort hw =>
    have habsent := h.posting.mpr (by simp [hw])
    exact ⟨h.taken, h.engaged, h.exchanged, by simp [habsent], h.sound⟩
  | post hw =>
    have habsent := h.posting.mpr (by simp [hw])
    simp only [habsent, reduceCtorEq, if_false] at htaken
    exact ⟨by simpa using htaken, h.engaged, by simp, by simp, h.sound⟩
  | lostCancel => exact ⟨h.taken, h.engaged, h.exchanged, h.posting, h.sound⟩
  | wonCancel _ hc =>
    simp only [hc, Bool.false_eq_true, if_false] at htaken
    refine ⟨?_, h.engaged, fun _ => rfl, h.posting, h.sound⟩
    dsimp only
    rw [if_pos rfl]
    omega
  | takeCancel ht =>
    obtain ⟨_, hnone, _⟩ := h.free (.inl ht)
    refine ⟨?_, by simp [OffloadState.invoke], h.exchanged, h.posting, h.sound⟩
    simp only [OffloadState.invoke, hnone, List.nil_append, List.length_singleton]
    rw [hnone, List.length_nil] at htaken
    omega
  | nothingLeft ht gone =>
    rw [(h.free (.inl ht)).1] at gone
    cases gone
  | lostCompletion hp hc =>
    have hposted := h.posted (by simp [hp])
    simp only [hp, reduceCtorEq, if_false] at htaken
    exact ⟨by simpa using htaken, h.engaged, fun _ => hc, by simp [hposted], h.sound⟩
  | wonCompletion hp hc =>
    have hposted := h.posted (by simp [hp])
    simp only [hp, reduceCtorEq, if_false, hc] at htaken
    refine ⟨?_, h.engaged, fun _ => rfl, by simp [hposted], h.sound⟩
    dsimp only
    rw [if_pos rfl, if_pos rfl]
    omega
  | takeCompletion ht =>
    obtain ⟨_, hnone, hc⟩ := h.free (.inr ht)
    have hposted := h.posted (by simp [ht])
    rw [if_pos ht, hnone, List.length_nil] at htaken
    refine ⟨?_, by simp [OffloadState.invoke], fun _ => hc, by simp [OffloadState.invoke, hposted],
      h.sound⟩
    simp only [OffloadState.invoke, hnone, List.nil_append, List.length_singleton, reduceCtorEq,
      if_false]
    omega
  | fault ht gone =>
    rw [(h.free (.inr ht)).1] at gone
    cases gone

/-! ### What the handler is told -/

/-- A null exception comes with what the function returned; any other is the function's own, or
reports a cancellation that was signalled. -/
def Faithful (variant : Variant) (func : Except E R) (aborted : E) (signalled : Bool)
    (i : Invocation E R) : Prop :=
  match i.ep with
  | none => ∃ r, func = .ok r ∧ (variant = .value → i.result = some r)
  | some e => func = .error e ∨ (e = aborted ∧ signalled = true)

theorem Faithful.mono {signalled signalled' : Bool} {i : Invocation E R}
    (h : Faithful variant func aborted signalled i) (hle : signalled = true → signalled' = true) :
    Faithful variant func aborted signalled' i := by
  unfold Faithful at h ⊢
  split at h
  · exact h
  · exact h.imp_right fun ⟨he, hs⟩ => ⟨he, hle hs⟩

/-- The outcome is complete once it is written, and was not touched before. -/
structure Recorded (variant : Variant) (func : Except E R) (aborted : E) (s : OffloadState E R) :
    Prop where
  flag : s.cancelled = true → s.signalled = true
  aborting : s.worker = .aborting → s.signalled = true
  tasks : 0 < s.signals ∨ 0 < s.cancels ∨ 0 < s.takers → s.signalled = true
  blank : s.worker = .queued ∨ s.worker = .running ∨ s.worker = .aborting →
    s.ep = none ∧ s.result = none
  written : s.worker = .written ∨ s.worker = .posted →
    Faithful variant func aborted s.signalled ⟨s.ep, s.result⟩
  told : ∀ i ∈ s.invoked, Faithful variant func aborted s.signalled i

theorem recorded_start : Recorded variant func aborted (start : OffloadState E R) where
  flag := fun h => by cases h
  aborting := fun h => by cases h
  tasks := fun h => by simp [start] at h
  blank := fun _ => ⟨rfl, rfl⟩
  written := fun h => by simp [start] at h
  told := fun i hi => by cases hi

theorem Recorded.step (h : Recorded variant func aborted s) (hx : Exclusive s) {e : Event}
    (hs : Step variant func aborted s e t) : Recorded variant func aborted t := by
  cases hs with
  | signalled =>
    exact ⟨fun _ => rfl, fun _ => rfl, fun _ => rfl, h.blank,
      fun hw => (h.written hw).mono fun _ => rfl, fun i hi => (h.told i hi).mono fun _ => rfl⟩
  | unheard => exact h
  | postCancel hsignal =>
    exact ⟨h.flag, h.aborting, fun _ => h.tasks (.inl hsignal), h.blank, h.written, h.told⟩
  | load hw =>
    refine ⟨h.flag, fun ha => ?_, h.tasks, fun _ => h.blank (.inl hw), fun hn => ?_, h.told⟩
    · apply h.flag
      by_contra hc
      simp [hc] at ha
    · dsimp only at hn
      split at hn <;> simp at hn
  | finish hw =>
    obtain ⟨hep, hresult⟩ := h.blank (.inr (.inl hw))
    cases func with
    | ok r =>
      refine ⟨h.flag, by simp [record], h.tasks, by simp [record], fun _ => ?_, h.told⟩
      simp only [Faithful, record, hep]
      exact ⟨r, rfl, fun hv => if_pos hv⟩
    | error e =>
      exact ⟨h.flag, by simp [record], h.tasks, by simp [record], fun _ => .inl rfl, h.told⟩
  | abort hw =>
    exact ⟨h.flag, by simp, h.tasks, by simp, fun _ => .inr ⟨rfl, h.aborting hw⟩, h.told⟩
  | post hw => exact ⟨h.flag, by simp, h.tasks, by simp, fun _ => h.written (.inl hw), h.told⟩
  | lostCancel hcancel | wonCancel hcancel =>
    have hsignalled := h.tasks (.inr (.inl hcancel))
    exact ⟨h.flag, h.aborting, fun _ => hsignalled, h.blank, h.written, h.told⟩
  | takeCancel ht =>
    have hsignalled := h.tasks (.inr (.inr ht))
    obtain ⟨_, hnone, _⟩ := hx.free (.inl ht)
    refine ⟨h.flag, h.aborting, fun _ => hsignalled, h.blank, h.written, fun i hi => ?_⟩
    simp only [OffloadState.invoke, hnone, List.nil_append, List.mem_singleton] at hi
    rw [hi]
    exact .inr ⟨rfl, hsignalled⟩
  | nothingLeft ht =>
    have hsignalled := h.tasks (.inr (.inr ht))
    exact ⟨h.flag, h.aborting, fun _ => hsignalled, h.blank, h.written, h.told⟩
  | lostCompletion | wonCompletion | fault =>
    exact ⟨h.flag, h.aborting, h.tasks, h.blank, h.written, h.told⟩
  | takeCompletion ht =>
    obtain ⟨_, hnone, _⟩ := hx.free (.inr ht)
    refine ⟨h.flag, h.aborting, h.tasks, h.blank, h.written, fun i hi => ?_⟩
    simp only [OffloadState.invoke, hnone, List.nil_append, List.mem_singleton] at hi
    rw [hi]
    exact h.written (.inr (hx.posted (by simp [ht])))

/-! ### Every interleaving -/

theorem exclusive_recorded {es : List Event}
    (h : Runs (step variant func aborted) (fun _ _ => True) start es s) :
    Exclusive s ∧ Recorded variant func aborted s := by
  induction h with
  | start => exact ⟨exclusive_start, recorded_start⟩
  | snoc _ _ next ih =>
    obtain ⟨hx, hr⟩ := ih
    exact ⟨hx.step (step_of next), hr.step hx (step_of next)⟩

/-- The handler is called at most once, exactly once when every task has ended, and is told
the truth. -/
theorem completes_exactly_once (variant : Variant) (func : Except E R) (aborted : E)
    {es : List Event} {s : OffloadState E R}
    (h : Runs (step variant func aborted) (fun _ _ => True) start es s) :
    s.invoked.length ≤ 1 ∧ (s.Settled → s.invoked.length = 1) ∧ s.fault = false ∧
      ∀ i ∈ s.invoked, Faithful variant func aborted s.signalled i := by
  obtain ⟨hx, hr⟩ := exclusive_recorded h
  have htaken := hx.taken
  refine ⟨?_, fun hsettled => ?_, hx.sound, hr.told⟩
  · split at htaken <;> split at htaken <;> omega
  · obtain ⟨_, hdone, _, htakers⟩ := hsettled
    rw [if_neg (by simp [hdone]), if_pos (hx.exchanged (.inr hdone)), htakers] at htaken
    omega

/-- Until then some task can go on. -/
theorem task_enabled (hx : Exclusive s) (h : ¬ s.Settled) :
    ∃ e, e ≠ .signal ∧ e ≠ .postCancel ∧ (step variant func aborted s e).isSome = true := by
  by_cases hcancels : 0 < s.cancels
  · refine ⟨.exchangeCancel, by simp, by simp, ?_⟩
    rw [Offload.step, if_pos hcancels]
    split <;> rfl
  by_cases htakers : 0 < s.takers
  · refine ⟨.takeCancel, by simp, by simp, ?_⟩
    rw [Offload.step, if_pos htakers]
    dsimp only
    split <;> rfl
  cases hw : s.worker with
  | queued => exact ⟨.load, by simp, by simp, by simp [Offload.step, hw]⟩
  | running => exact ⟨.finish, by simp, by simp, by simp [Offload.step, hw]⟩
  | aborting => exact ⟨.finish, by simp, by simp, by simp [Offload.step, hw]⟩
  | written => exact ⟨.post, by simp, by simp, by simp [Offload.step, hw]⟩
  | posted =>
    cases hc : s.completion with
    | absent => exact absurd hw (hx.posting.mp hc)
    | posted =>
      refine ⟨.exchangeCompletion, by simp, by simp, ?_⟩
      rw [Offload.step, if_pos hc]
      split <;> rfl
    | taking =>
      refine ⟨.takeCompletion, by simp, by simp, ?_⟩
      rw [Offload.step, if_pos hc]
      dsimp only
      split <;> rfl
    | done => exact absurd ⟨hw, hc, by omega, by omega⟩ h

/-- The function returns after a cancellation was signalled, and both completions are posted. -/
def raced : List Event :=
  [.load, .signal, .finish, .postCancel, .post, .exchangeCompletion, .exchangeCancel,
    .takeCompletion]

theorem completes_exactly_once_raced :
    ∃ s : OffloadState Unit ℕ, s.Settled ∧ s.invoked.length = 1 := by
  have hrun : ∃ s, run (guarded (step .value (.ok 7) ()) fun _ _ => True) start raced = some s ∧
      s.Settled := by
    refine ⟨_, rfl, ?_⟩
    decide
  obtain ⟨s, hrun, hsettled⟩ := hrun
  have h := completes_exactly_once .value (.ok 7) () (runs_of_guarded hrun)
  exact ⟨s, hsettled, h.2.1 hsettled⟩

end AdequateApi.Offload
