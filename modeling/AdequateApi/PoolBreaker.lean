import Mathlib.Data.Int.Order.Basic

/-! `PgPool::CircuitBreaker`. Clock readings and durations are integers, in nanoseconds;
nothing is assumed about the order in which readings come. The counter and the clock of
`on_failure` are unbounded; `on_failure_word` is the same function in machine words, from
which it differs only where one of them overflows (`on_failure_word_eq`). -/
namespace AdequateApi.PoolBreaker

inductive BreakerState
  | Closed
  | Open
  | HalfOpen
  deriving DecidableEq, Repr

structure CircuitBreaker where
  state : BreakerState := .Closed
  consecutive_failures : ℕ := 0
  failure_threshold : ℕ := 5
  open_duration : ℤ := 3000000000
  open_until : ℤ := 0
  half_open_probe_inflight : Bool := false
  deriving DecidableEq, Repr

namespace CircuitBreaker

/-- HalfOpen admits one probe, until somebody reports an outcome. -/
def admitProbe (b : CircuitBreaker) : Bool × CircuitBreaker :=
  if b.half_open_probe_inflight then (false, b)
  else (true, { b with half_open_probe_inflight := true })

def allow (b : CircuitBreaker) (now : ℤ) : Bool × CircuitBreaker :=
  match b.state with
  | .Closed => (true, b)
  | .Open =>
      if now < b.open_until then (false, b)
      else admitProbe { b with state := .HalfOpen, half_open_probe_inflight := false }
  | .HalfOpen => admitProbe b

def on_success (b : CircuitBreaker) : CircuitBreaker :=
  { b with state := .Closed, consecutive_failures := 0, half_open_probe_inflight := false }

def on_failure (b : CircuitBreaker) (now : ℤ) : CircuitBreaker :=
  if b.state = .HalfOpen then
    { b with state := .Open, open_until := now + b.open_duration,
             consecutive_failures := b.failure_threshold, half_open_probe_inflight := false }
  else
    let b := { b with consecutive_failures := b.consecutive_failures + 1 }
    if b.failure_threshold ≤ b.consecutive_failures then
      { b with state := .Open, open_until := now + b.open_duration,
               half_open_probe_inflight := false }
    else b

/-- `on_failure` in machine words: the count is a `size_t`, and `open_until` counts the ticks
of `steady_clock`, nanoseconds in 64 bits. -/
def on_failure_word (b : CircuitBreaker) (now : ℤ) : CircuitBreaker :=
  if b.state = .HalfOpen then
    { b with state := .Open, open_until := (now + b.open_duration).bmod 18446744073709551616,
             consecutive_failures := b.failure_threshold, half_open_probe_inflight := false }
  else
    let b := { b with consecutive_failures :=
                        (b.consecutive_failures + 1) % 18446744073709551616 }
    if b.failure_threshold ≤ b.consecutive_failures then
      { b with state := .Open, open_until := (now + b.open_duration).bmod 18446744073709551616,
               half_open_probe_inflight := false }
    else b

/-- Some clock reading from which on the next `allow` admits. -/
def Recovers (b : CircuitBreaker) : Prop := ∃ T, ∀ now, T ≤ now → (b.allow now).1 = true

theorem on_failure_word_eq {b : CircuitBreaker} {now : ℤ}
    (hcount : b.consecutive_failures + 1 < 18446744073709551616)
    (hlow : -9223372036854775808 ≤ now + b.open_duration)
    (hhigh : now + b.open_duration < 9223372036854775808) :
    b.on_failure_word now = b.on_failure now := by
  have hsum : (now + b.open_duration).bmod 18446744073709551616 = now + b.open_duration :=
    Int.bmod_eq_of_le (by omega) (by omega)
  simp only [on_failure_word, on_failure, Nat.mod_eq_of_lt hcount, hsum]

theorem on_failure_state (b : CircuitBreaker) (now : ℤ) :
    (b.on_failure now).state ≠ .HalfOpen := by
  unfold on_failure
  split
  · simp
  · rename_i h
    dsimp only
    split
    · simp
    · simpa using h

/-- A failure opens the breaker for a whole `open_duration`, or only counts. -/
theorem on_failure_cases (b : CircuitBreaker) (now : ℤ) :
    (b.on_failure now).open_duration = b.open_duration ∧
      ((b.on_failure now).state = .Open ∧
          (b.on_failure now).open_until = now + b.open_duration ∨
        (b.on_failure now).state = b.state ∧ (b.on_failure now).open_until = b.open_until) := by
  unfold on_failure
  split
  · simp
  · dsimp only
    split <;> simp

/-- `allow` moves to HalfOpen only by admitting, and then a probe is in flight. -/
theorem allow_cases (b : CircuitBreaker) (now : ℤ) :
    (b.state = .Closed ∧ b.allow now = (true, b)) ∨
    (b.allow now).1 = false ∧ (b.allow now).2 = b ∨
    ((b.allow now).1 = true ∧ (b.allow now).2.state = .HalfOpen ∧
      (b.allow now).2.half_open_probe_inflight = true ∧ b.state ≠ .Closed) := by
  unfold allow
  cases hs : b.state with
  | Closed => simp
  | Open =>
    dsimp only
    split
    · simp
    · simp [admitProbe]
  | HalfOpen =>
    cases hi : b.half_open_probe_inflight <;> simp [admitProbe, hi, hs]

theorem allow_open {b : CircuitBreaker} {now : ℤ} (hs : b.state = .Open)
    (hn : now < b.open_until) : b.allow now = (false, b) := by
  simp [allow, hs, hn]

theorem allow_open_duration (b : CircuitBreaker) (now : ℤ) :
    (b.allow now).2.open_duration = b.open_duration := by
  unfold allow admitProbe
  split <;> (try split) <;> (try split) <;> rfl

/-- Outside HalfOpen the breaker recovers by the passing of time alone. -/
theorem recovers_of_not_halfOpen {b : CircuitBreaker} (h : b.state ≠ .HalfOpen) : b.Recovers := by
  refine ⟨b.open_until, fun now hn => ?_⟩
  unfold allow
  cases hs : b.state with
  | Closed => rfl
  | Open =>
    dsimp only
    rw [if_neg (by omega)]
    rfl
  | HalfOpen => exact absurd hs h

/-- With a probe marked in flight HalfOpen refuses everybody, at all times. -/
theorem not_recovers_of_inflight {b : CircuitBreaker} (hs : b.state = .HalfOpen)
    (hi : b.half_open_probe_inflight = true) : ¬ b.Recovers := by
  rintro ⟨T, h⟩
  have hT := h T le_rfl
  simp [allow, hs, admitProbe, hi] at hT

end CircuitBreaker
end AdequateApi.PoolBreaker
