import Mathlib.Data.List.Induction
import AdequateApi.PoolBreaker

/-! The breaker in machine words, against the history of calls made on it. What it answers
is read off the history alone: how many failures were reported since the last success, and
when the latest of them was. Its fields are a summary of that history, except that
`open_until` may have overflowed. -/
namespace AdequateApi.PoolBreaker

/-- What `steady_clock` can read, and what a duration can be. -/
abbrev Tick := { t : ℤ // -9223372036854775808 ≤ t ∧ t < 9223372036854775808 }

inductive BreakerCall
  | allow (now : Tick)
  | on_success
  | on_failure (now : Tick)
  deriving DecidableEq, Repr

namespace BreakerCall

def succeeds : BreakerCall → Bool
  | on_success => true
  | _ => false

def failedAt : BreakerCall → Option Tick
  | on_failure now => some now
  | _ => none

/-- Both kinds of report end the wait for the outcome of a probe. -/
def reports (c : BreakerCall) : Bool := c.succeeds || c.failedAt.isSome

end BreakerCall

/-- Failures reported since the last success, or since the start. -/
def failuresSince (cs : List BreakerCall) : ℕ :=
  (cs.reverse.takeWhile fun c => !c.succeeds).countP fun c => c.failedAt.isSome

def lastFailure (cs : List BreakerCall) : Option Tick :=
  cs.reverse.findSome? BreakerCall.failedAt

@[simp]
theorem failuresSince_allow (cs : List BreakerCall) (now : Tick) :
    failuresSince (cs ++ [.allow now]) = failuresSince cs := by
  simp [failuresSince, BreakerCall.succeeds, BreakerCall.failedAt]

@[simp]
theorem failuresSince_on_success (cs : List BreakerCall) :
    failuresSince (cs ++ [.on_success]) = 0 := by
  simp [failuresSince, BreakerCall.succeeds]

@[simp]
theorem failuresSince_on_failure (cs : List BreakerCall) (now : Tick) :
    failuresSince (cs ++ [.on_failure now]) = failuresSince cs + 1 := by
  simp [failuresSince, BreakerCall.succeeds, BreakerCall.failedAt]

@[simp]
theorem lastFailure_allow (cs : List BreakerCall) (now : Tick) :
    lastFailure (cs ++ [.allow now]) = lastFailure cs := by
  simp [lastFailure, List.findSome?_cons, BreakerCall.failedAt]

@[simp]
theorem lastFailure_on_failure (cs : List BreakerCall) (now : Tick) :
    lastFailure (cs ++ [.on_failure now]) = some now := by
  simp [lastFailure, List.findSome?_cons, BreakerCall.failedAt]

theorem failuresSince_le (cs : List BreakerCall) :
    failuresSince cs ≤ cs.countP fun c => c.failedAt.isSome := by
  unfold failuresSince
  calc _ ≤ cs.reverse.countP fun c => c.failedAt.isSome :=
        (List.takeWhile_sublist _).countP_le
    _ = _ := List.countP_reverse

/-- The sum of two readings falls short of the exact one only beyond the last tick. -/
theorem le_bmod_iff {t : ℤ} : t ≤ t.bmod 18446744073709551616 ↔ t < 9223372036854775808 := by
  have hlow : -9223372036854775808 ≤ t.bmod 18446744073709551616 := Int.le_bmod (by decide)
  have hhigh : t.bmod 18446744073709551616 < 9223372036854775808 := Int.bmod_lt (by decide)
  constructor
  · omega
  · intro h
    by_cases ht : -9223372036854775808 ≤ t
    · rw [Int.bmod_eq_of_le (by omega) (by omega)]
    · omega

namespace CircuitBreaker

def fresh (failure_threshold : ℕ) (open_duration : Tick) : CircuitBreaker :=
  { failure_threshold, open_duration }

def perform (b : CircuitBreaker) : BreakerCall → CircuitBreaker
  | .allow now => (b.allow now).2
  | .on_success => b.on_success
  | .on_failure now => b.on_failure_word now

def after (b : CircuitBreaker) (cs : List BreakerCall) : CircuitBreaker := cs.foldl perform b

@[simp] theorem after_nil (b : CircuitBreaker) : b.after [] = b := rfl

@[simp]
theorem after_cons (b : CircuitBreaker) (c : BreakerCall) (cs : List BreakerCall) :
    b.after (c :: cs) = (b.perform c).after cs := rfl

@[simp]
theorem after_append (b : CircuitBreaker) (cs ds : List BreakerCall) :
    b.after (cs ++ ds) = (b.after cs).after ds := List.foldl_append

/-- The failure counts up to the threshold, or is that of a probe: it sets `open_until`. -/
def Opens (b : CircuitBreaker) : Prop :=
  b.state = .HalfOpen ∨
    b.failure_threshold ≤ (b.consecutive_failures + 1) % 18446744073709551616

/-- A failure reported now keeps the breaker closed to callers for a whole `open_duration`:
either it sets `open_until` and the clock can count that far, or, where the count has wrapped
around its word, the `open_until` that stays is late enough. -/
structure OpensInTime (b : CircuitBreaker) (now : Tick) : Prop where
  fits : b.Opens → (now + b.open_duration : ℤ) < 9223372036854775808
  stays : ¬ b.Opens → b.state = .Open → (now + b.open_duration : ℤ) ≤ b.open_until

/-- The fields as a summary of the history `cs` of a breaker built with these parameters. -/
structure Summarises (threshold : ℕ) (duration : Tick) (cs : List BreakerCall)
    (b : CircuitBreaker) : Prop where
  threshold_eq : b.failure_threshold = threshold
  duration_eq : b.open_duration = duration
  closed_iff : b.state = .Closed ↔ failuresSince cs < threshold
  counted : b.state = .Closed → b.consecutive_failures = failuresSince cs
  bounded : b.consecutive_failures ≤ failuresSince cs
  tripped : b.state ≠ .Closed →
    threshold ≤ b.consecutive_failures ∨ 18446744073709551616 ≤ failuresSince cs
  ticks : -9223372036854775808 ≤ b.open_until ∧ b.open_until < 9223372036854775808
  probing : b.state = .HalfOpen → b.half_open_probe_inflight = true

/-- `open_until` is the end of the latest failure's `open_duration`, or later. -/
def Timely (duration : Tick) (cs : List BreakerCall) (b : CircuitBreaker) : Prop :=
  b.state = .Open → ∃ t ∈ lastFailure cs, (t + duration : ℤ) ≤ b.open_until

/-- What the breaker is to answer after the calls `cs`: Closed is decided by the failures
since the last success. A Closed breaker admits; one that is not admits after the latest
failure's `open_duration`, and then, until an outcome is reported, nobody else. -/
structure FollowsHistory (threshold : ℕ) (duration : Tick) (cs : List BreakerCall) : Prop where
  closed_iff : ((fresh threshold duration).after cs).state = .Closed ↔
    failuresSince cs < threshold
  admits : ((fresh threshold duration).after cs).state = .Closed →
    ∀ now : Tick, (((fresh threshold duration).after cs).allow now).1 = true
  waits : ((fresh threshold duration).after cs).state ≠ .Closed →
    ∀ now : Tick, (((fresh threshold duration).after cs).allow now).1 = true →
      ∃ t ∈ lastFailure cs, (t + duration : ℤ) ≤ now
  once : ((fresh threshold duration).after cs).state ≠ .Closed →
    ∀ now : Tick, (((fresh threshold duration).after cs).allow now).1 = true →
      ∀ asks : List BreakerCall, (∀ c ∈ asks, c.reports = false) → ∀ later : Tick,
        (((fresh threshold duration).after (cs ++ .allow now :: asks)).allow later).1 = false

variable {threshold : ℕ} {duration : Tick} {cs : List BreakerCall} {b : CircuitBreaker}

theorem summarises_fresh (ht : 1 ≤ threshold) :
    Summarises threshold duration [] (fresh threshold duration) where
  threshold_eq := rfl
  duration_eq := rfl
  closed_iff := by simp [fresh, failuresSince, show 0 < threshold from ht]
  counted _ := by simp [fresh, failuresSince]
  ticks := by simp [fresh]
  bounded := by simp [fresh]
  tripped h := absurd rfl h
  probing h := by cases h

/-- An admission by a breaker that is not Closed comes from Open, after `open_until`. -/
theorem Summarises.admitted (h : Summarises threshold duration cs b) {now : ℤ}
    (hs : b.state ≠ .Closed) (ha : (b.allow now).1 = true) :
    b.state = .Open ∧ b.open_until ≤ now := by
  cases hb : b.state with
  | Closed => exact absurd hb hs
  | Open =>
    refine ⟨rfl, ?_⟩
    by_contra hn
    simp [allow_open hb (not_le.mp hn)] at ha
  | HalfOpen =>
    have inflight := h.probing hb
    simp [allow, hb, admitProbe, inflight] at ha

/-- With the probe in flight nobody else is admitted, whatever the clock says. -/
theorem allow_inflight {now : ℤ} (hs : b.state = .HalfOpen)
    (hi : b.half_open_probe_inflight = true) : b.allow now = (false, b) := by
  simp [allow, hs, admitProbe, hi]

theorem allow_admits {now : ℤ} (hs : b.state = .Open) (hn : b.open_until ≤ now) :
    b.allow now = (true, { b with state := .HalfOpen, half_open_probe_inflight := true }) := by
  simp [allow, hs, admitProbe, not_lt.mpr hn]

theorem Summarises.allow (h : Summarises threshold duration cs b) (now : Tick) :
    Summarises threshold duration (cs ++ [.allow now]) (b.allow now).2 := by
  have same : Summarises threshold duration (cs ++ [.allow now]) b :=
    { h with
      closed_iff := by simpa using h.closed_iff
      counted := by simpa using h.counted
      bounded := by simpa using h.bounded
      tripped := by simpa using h.tripped }
  rcases b.allow_cases now with ⟨_, ha⟩ | ⟨_, ha⟩ | ⟨ha, _, _, hs⟩
  · rw [ha]
    exact same
  · rw [ha]
    exact same
  · -- the probe leaves Open, and keeps the counter and `open_until`
    obtain ⟨ho, hn⟩ := h.admitted hs ha
    rw [allow_admits ho hn]
    exact {
      threshold_eq := h.threshold_eq
      duration_eq := h.duration_eq
      closed_iff := by simpa [ho] using h.closed_iff
      counted := by simp
      bounded := by simpa using h.bounded
      tripped := fun _ => by simpa using h.tripped hs
      ticks := h.ticks
      probing := fun _ => rfl }

theorem Summarises.on_success (h : Summarises threshold duration cs b) (ht : 1 ≤ threshold) :
    Summarises threshold duration (cs ++ [.on_success]) b.on_success where
  threshold_eq := h.threshold_eq
  duration_eq := h.duration_eq
  closed_iff := by simp [CircuitBreaker.on_success, show 0 < threshold from ht]
  counted _ := by simp [CircuitBreaker.on_success]
  bounded := by simp [CircuitBreaker.on_success]
  tripped hs := absurd rfl hs
  ticks := h.ticks
  probing hs := by cases hs

theorem on_failure_word_opens {b : CircuitBreaker} (h : b.Opens) (now : ℤ) :
    (b.on_failure_word now).state = .Open ∧
      (b.on_failure_word now).open_until =
        (now + b.open_duration).bmod 18446744073709551616 := by
  unfold on_failure_word
  split
  · exact ⟨rfl, rfl⟩
  · rename_i hs
    dsimp only
    rw [if_pos (h.resolve_left hs)]
    exact ⟨rfl, rfl⟩

/-- What it has counted then: the threshold, set for a probe, or one more than before. -/
theorem on_failure_word_count {b : CircuitBreaker} (h : b.Opens) (now : ℤ) :
    b.failure_threshold ≤ (b.on_failure_word now).consecutive_failures ∧
      ((b.on_failure_word now).consecutive_failures = b.failure_threshold ∨
        (b.on_failure_word now).consecutive_failures ≤ b.consecutive_failures + 1) := by
  unfold on_failure_word
  split
  · exact ⟨Nat.le_refl _, .inl rfl⟩
  · rename_i hs
    dsimp only
    rw [if_pos (h.resolve_left hs)]
    exact ⟨h.resolve_left hs, .inr (Nat.mod_le _ _)⟩

/-- A failure below the threshold is only counted. -/
theorem on_failure_word_counts {b : CircuitBreaker} (h : ¬ b.Opens) (now : ℤ) :
    b.on_failure_word now =
      { b with consecutive_failures :=
                 (b.consecutive_failures + 1) % 18446744073709551616 } := by
  unfold on_failure_word
  rw [if_neg fun hs => h (.inl hs)]
  dsimp only
  rw [if_neg fun ht => h (.inr ht)]

theorem on_failure_word_keeps (b : CircuitBreaker) (now : ℤ) :
    (b.on_failure_word now).failure_threshold = b.failure_threshold ∧
      (b.on_failure_word now).open_duration = b.open_duration := by
  unfold on_failure_word
  split
  · exact ⟨rfl, rfl⟩
  · dsimp only
    split <;> exact ⟨rfl, rfl⟩

/-- A Closed breaker counts below a threshold that is itself a word: its count does not
wrap, and reaches the threshold with the failure that makes it `threshold` many. -/
theorem Summarises.opens_iff (h : Summarises threshold duration cs b)
    (hw : threshold < 18446744073709551616) (hs : b.state = .Closed) :
    b.Opens ↔ threshold ≤ failuresSince cs + 1 := by
  have hbelow := h.closed_iff.mp hs
  have hword : (failuresSince cs + 1) % 18446744073709551616 = failuresSince cs + 1 :=
    Nat.mod_eq_of_lt (by omega)
  simp [Opens, hs, h.threshold_eq, h.counted hs, hword]

theorem Summarises.on_failure (h : Summarises threshold duration cs b)
    (hw : threshold < 18446744073709551616) (now : Tick) :
    Summarises threshold duration (cs ++ [.on_failure now]) (b.on_failure_word now) := by
  obtain ⟨hthreshold, hduration⟩ := b.on_failure_word_keeps now
  by_cases ho : b.Opens
  · obtain ⟨hs, hu⟩ := on_failure_word_opens ho now
    obtain ⟨hcount, hmost⟩ := on_failure_word_count ho now
    rw [h.threshold_eq] at hcount hmost
    have hbefore := h.bounded
    have hreached : threshold ≤ failuresSince cs + 1 := by
      by_cases hc : b.state = .Closed
      · exact (h.opens_iff hw hc).mp ho
      · have := h.closed_iff.not.mp hc
        omega
    exact {
      threshold_eq := hthreshold.trans h.threshold_eq
      duration_eq := hduration.trans h.duration_eq
      closed_iff := by
        simp only [hs, failuresSince_on_failure, reduceCtorEq, false_iff]
        omega
      counted := by simp [hs]
      bounded := by
        rw [failuresSince_on_failure]
        omega
      tripped := fun _ => .inl hcount
      ticks := by
        rw [hu]
        exact ⟨Int.le_bmod (by decide), Int.bmod_lt (by decide)⟩
      probing := by simp [hs] }
  · rw [on_failure_word_counts ho now]
    exact {
      threshold_eq := h.threshold_eq
      duration_eq := h.duration_eq
      closed_iff := by
        by_cases hc : b.state = .Closed
        · have := (h.opens_iff hw hc).not.mp ho
          simp only [hc, failuresSince_on_failure, true_iff]
          omega
        · have := h.closed_iff.not.mp hc
          simp only [hc, failuresSince_on_failure, false_iff]
          omega
      counted := fun hc => by
        have := h.closed_iff.mp hc
        simp only [h.counted hc, failuresSince_on_failure]
        exact Nat.mod_eq_of_lt (by omega)
      bounded := by
        rw [failuresSince_on_failure]
        exact Nat.le_trans (Nat.mod_le _ _) (Nat.succ_le_succ h.bounded)
      tripped := fun hc => by
        -- an open breaker that only counts has wrapped
        have hbefore := h.tripped hc
        have hbounded := h.bounded
        have hbelow : (b.consecutive_failures + 1) % 18446744073709551616 < threshold := by
          rw [← h.threshold_eq]
          exact Nat.lt_of_not_le fun hle => ho (.inr hle)
        rw [failuresSince_on_failure]
        omega
      ticks := h.ticks
      probing := fun hs => absurd (.inl hs) ho }

theorem Summarises.perform (h : Summarises threshold duration cs b) (ht : 1 ≤ threshold)
    (hw : threshold < 18446744073709551616) (c : BreakerCall) :
    Summarises threshold duration (cs ++ [c]) (b.perform c) := by
  cases c with
  | allow now => exact h.allow now
  | on_success => exact h.on_success ht
  | on_failure now => exact h.on_failure hw now

/-- Over whole histories, by adding one call at the end. -/
theorem summarises_after (ht : 1 ≤ threshold) (hw : threshold < 18446744073709551616)
    (duration : Tick) (cs : List BreakerCall) :
    Summarises threshold duration cs ((fresh threshold duration).after cs) := by
  induction cs using List.reverseRecOn with
  | nil => exact summarises_fresh ht
  | append_singleton cs c ih =>
    rw [after_append]
    exact ih.perform ht hw c

/-! ### The end of an open time -/

/-- A failure leaves a timely `open_until` exactly if it is reported in time. -/
theorem timely_on_failure_iff (h : Summarises threshold duration cs b) (now : Tick) :
    Timely duration (cs ++ [.on_failure now]) (b.on_failure_word now) ↔ b.OpensInTime now := by
  have hlast (u : ℤ) : (∃ t ∈ lastFailure (cs ++ [.on_failure now]), (t + duration : ℤ) ≤ u) ↔
      (now + duration : ℤ) ≤ u := by simp
  unfold Timely
  rw [hlast]
  by_cases ho : b.Opens
  · obtain ⟨hs, hu⟩ := on_failure_word_opens ho now
    rw [hs, hu, h.duration_eq]
    constructor
    · intro ht
      exact ⟨fun _ => h.duration_eq ▸ le_bmod_iff.mp (ht rfl), fun hn => absurd ho hn⟩
    · intro hin _
      exact le_bmod_iff.mpr (h.duration_eq ▸ hin.fits ho)
  · rw [on_failure_word_counts ho now]
    constructor
    · intro ht
      exact ⟨fun hn => absurd hn ho, fun _ hs => h.duration_eq ▸ ht hs⟩
    · intro hin hs
      exact h.duration_eq ▸ hin.stays ho hs

theorem Timely.allow (h : Timely duration cs b) (now : Tick) :
    Timely duration (cs ++ [.allow now]) (b.allow now).2 := by
  intro hs
  rw [lastFailure_allow]
  rcases b.allow_cases now with ⟨_, ha⟩ | ⟨_, ha⟩ | ⟨_, hhalf, _, _⟩
  · rw [ha] at hs ⊢
    exact h hs
  · rw [ha] at hs ⊢
    exact h hs
  · rw [hhalf] at hs
    cases hs

/-- A HalfOpen breaker with its probe in flight stays as it is until somebody reports. -/
theorem after_inflight (hs : b.state = .HalfOpen) (hi : b.half_open_probe_inflight = true)
    {asks : List BreakerCall} (quiet : ∀ c ∈ asks, c.reports = false) : b.after asks = b := by
  induction asks with
  | nil => rfl
  | cons c asks ih =>
    have hc := quiet c (by simp)
    have rest := ih fun d hd => quiet d (by simp [hd])
    cases c with
    | allow now => simpa [CircuitBreaker.perform, allow_inflight hs hi] using rest
    | on_success => cases hc
    | on_failure now => cases hc

theorem followsHistory_of_timely (ht : 1 ≤ threshold) (hw : threshold < 18446744073709551616)
    (timely : Timely duration cs ((fresh threshold duration).after cs)) :
    FollowsHistory threshold duration cs where
  closed_iff := (summarises_after ht hw duration cs).closed_iff
  admits hs now := by simp [CircuitBreaker.allow, hs]
  waits hs now ha := by
    obtain ⟨ho, hn⟩ := (summarises_after ht hw duration cs).admitted hs ha
    obtain ⟨t, hlast, hu⟩ := timely ho
    exact ⟨t, hlast, Int.le_trans hu hn⟩
  once hs now ha asks quiet later := by
    obtain ⟨ho, hn⟩ := (summarises_after ht hw duration cs).admitted hs ha
    -- the admission leaves HalfOpen with its probe in flight, and asking changes nothing
    rw [after_append, after_cons, perform, allow_admits ho hn, after_inflight rfl rfl quiet,
      allow_inflight rfl rfl]

/-- Asked at `open_until` itself, an Open breaker admits. -/
theorem FollowsHistory.timely (ht : 1 ≤ threshold) (hw : threshold < 18446744073709551616)
    (h : FollowsHistory threshold duration cs) :
    Timely duration cs ((fresh threshold duration).after cs) := fun hs => by
  have hticks := (summarises_after ht hw duration cs).ticks
  have hopen : ((fresh threshold duration).after cs).state ≠ .Closed := by simp [hs]
  exact h.waits hopen ⟨_, hticks⟩ (by rw [allow_admits hs (le_refl _)])

/-- The breaker follows its history as long as every failure is reported in time. -/
theorem timely_after (ht : 1 ≤ threshold) (hw : threshold < 18446744073709551616)
    (inTime : ∀ ds now, ds ++ [.on_failure now] <+: cs →
      ((fresh threshold duration).after ds).OpensInTime now) :
    Timely duration cs ((fresh threshold duration).after cs) := by
  induction cs using List.reverseRecOn with
  | nil => exact fun h => by cases h
  | append_singleton cs c ih =>
    have before := ih fun ds now hd => inTime ds now (hd.trans (List.prefix_append cs [c]))
    rw [after_append]
    cases c with
    | allow now => exact before.allow now
    | on_success => exact fun h => by cases h
    | on_failure now =>
      exact (timely_on_failure_iff (summarises_after ht hw duration cs) now).mpr
        (inTime cs now List.prefix_rfl)

/-- Fewer failures than the counter can count, and none too late for the clock. -/
theorem opensInTime_of_fits (ht : 1 ≤ threshold) (hw : threshold < 18446744073709551616)
    (short : (cs.countP fun c => c.failedAt.isSome) < 18446744073709551616)
    (fits : ∀ now : Tick, .on_failure now ∈ cs → (now + duration : ℤ) < 9223372036854775808)
    (ds : List BreakerCall) (now : Tick) (hd : ds ++ [.on_failure now] <+: cs) :
    ((fresh threshold duration).after ds).OpensInTime now := by
  have h := summarises_after ht hw duration ds
  have hcount : failuresSince ds + 1 < 18446744073709551616 := by
    rw [← failuresSince_on_failure ds now]
    calc _ ≤ (ds ++ [BreakerCall.on_failure now]).countP fun c => c.failedAt.isSome :=
          failuresSince_le _
      _ ≤ cs.countP fun c => c.failedAt.isSome := hd.sublist.countP_le
      _ < _ := short
  have hnow := fits now (hd.subset (by simp))
  refine ⟨fun _ => h.duration_eq ▸ hnow, fun ho hs => ?_⟩
  -- an open breaker is at its threshold, and its count does not wrap
  have hbounded := h.bounded
  have htripped := h.tripped (by simp [hs])
  refine absurd (.inr ?_) ho
  rw [h.threshold_eq]
  omega

/-- The breaker follows its history at every moment exactly when no failure that opens it
overflows the clock; a failure that meets a wrapped count must not outlast the `open_until`
that it leaves. -/
theorem breaker_follows_iff (ht : 1 ≤ threshold) (hw : threshold < 18446744073709551616)
    (duration : Tick) (cs : List BreakerCall) :
    (∀ ds, ds <+: cs → FollowsHistory threshold duration ds) ↔
      ∀ ds now, ds ++ [.on_failure now] <+: cs →
        ((fresh threshold duration).after ds).OpensInTime now := by
  constructor
  · intro follows ds now hd
    have timely := (follows _ hd).timely ht hw
    rw [after_append] at timely
    exact (timely_on_failure_iff (summarises_after ht hw duration ds) now).mp timely
  · intro inTime ds hd
    exact followsHistory_of_timely ht hw
      (timely_after ht hw fun es now he => inTime es now (he.trans hd))

/-- One failure trips this breaker; at its `open_until` one of two callers is the probe. -/
theorem breaker_follows_iff_probe :
    FollowsHistory 1 ⟨3, by decide⟩ [.on_failure ⟨0, by decide⟩, .allow ⟨3, by decide⟩] := by
  refine (breaker_follows_iff (Nat.le_refl 1) (by decide) ⟨3, by decide⟩ _).mpr
    (opensInTime_of_fits (Nat.le_refl 1) (by decide) (by decide) fun now hnow => ?_) _
      List.prefix_rfl
  have h0 : now = ⟨0, by decide⟩ := by simpa using hnow
  subst h0
  decide

/-- With the longest of all durations a breaker that trips at tick 1 is open until the first
tick of the clock, and admits in the same instant. -/
theorem breaker_admits_at_once :
    ((fresh 1 ⟨9223372036854775807, by decide⟩).after [.on_failure ⟨1, by decide⟩]).state =
        .Open ∧
      (((fresh 1 ⟨9223372036854775807, by decide⟩).after
          [.on_failure ⟨1, by decide⟩]).allow 1).1 = true ∧
      ¬ FollowsHistory 1 ⟨9223372036854775807, by decide⟩ [.on_failure ⟨1, by decide⟩] := by
  refine ⟨by decide, by decide, fun h => ?_⟩
  obtain ⟨t, hlast, hwait⟩ := h.waits (by decide) ⟨1, by decide⟩ (by decide)
  have ht : t = ⟨1, by decide⟩ := by
    simpa [lastFailure, BreakerCall.failedAt] using hlast.symm
  subst ht
  exact absurd hwait (by decide)

/-- The calls on a breaker whose counter and clock have no bound. -/
def perform_exact (b : CircuitBreaker) : BreakerCall → CircuitBreaker
  | .on_failure now => b.on_failure now
  | c => b.perform c

/-- While nothing overflows, the machine's breaker is the one with exact arithmetic. The pool,
with its three seconds, is within these bounds for the first 292 years of its clock. -/
theorem after_exact (ht : 1 ≤ threshold) (hw : threshold < 18446744073709551616)
    (short : (cs.countP fun c => c.failedAt.isSome) < 18446744073709551616)
    (fits : ∀ now : Tick, .on_failure now ∈ cs →
      -9223372036854775808 ≤ (now + duration : ℤ) ∧
        (now + duration : ℤ) < 9223372036854775808) :
    cs.foldl perform_exact (fresh threshold duration) = (fresh threshold duration).after cs := by
  induction cs using List.reverseRecOn with
  | nil => rfl
  | append_singleton cs c ih =>
    rw [List.countP_append] at short
    rw [List.foldl_append, ih (by omega) fun now hn => fits now (by simp [hn]), after_append]
    cases c with
    | allow now => rfl
    | on_success => rfl
    | on_failure now =>
      have h := summarises_after ht hw duration cs
      have hcount := failuresSince_le cs
      have hbounded := h.bounded
      have hone : ([BreakerCall.on_failure now].countP fun c => c.failedAt.isSome) = 1 := rfl
      obtain ⟨hlow, hhigh⟩ := fits now (by simp)
      rw [← h.duration_eq] at hlow hhigh
      exact (on_failure_word_eq (by omega) hlow hhigh).symm

end CircuitBreaker
end AdequateApi.PoolBreaker
