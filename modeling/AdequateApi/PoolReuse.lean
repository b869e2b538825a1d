import AdequateApi.PoolOwnership

/-! Whether an acquire dials while a connection is at hand. `release` puts a connection into
the channel's buffer first; `make_or_wait` looks into `idle_` and then at `created_at_`, and
reads the channel only when the pool is full. So a buffered connection is found as long as
`created_at_` stays at the pool's size, and nothing below says that it does. -/
namespace AdequateApi.PoolModel
open ChannelQueue DbConnection DbTransaction PoolBreaker TransitionRuns StdString State

variable {ε : Type}

/-- The step starts a connect, with a new object. -/
def Dials (s t : State ε) : Prop :=
  ∃ holder, t.connecting = ⟨s.tickets, holder, s.next⟩ :: s.connecting

/-- A released connection that nobody waits for comes back to a full pool; one that is
dropped leaves the pool full, if a connection is buffered. -/
def StaysFull (s : State ε) : Event ε → Prop
  | .released c =>
      if (s.heap c).healthy then s.channel.waiting = [] → s.size ≤ s.created_at
      else s.channel.buffer ≠ [] → s.size < s.created_at
  | _ => True

instance (s : State ε) : DecidablePred (StaysFull s)
  | .released c =>
      if h : (s.heap c).healthy then
        decidable_of_iff (s.channel.waiting = [] → s.size ≤ s.created_at) (by simp [StaysFull, h])
      else
        decidable_of_iff (s.channel.buffer ≠ [] → s.size < s.created_at) (by simp [StaysFull, h])
  | .acquire .. | .connected .. | .received .. | .queried .. | .begun .. | .statement ..
  | .commit .. | .rollback .. | .abandon .. | .release .. | .shutdown => .isTrue trivial

/-- The pool is full whenever its channel holds a connection. -/
structure ReusesFirst (s : State ε) : Prop where
  running : s.stopping = false
  full : s.channel.buffer ≠ [] → s.size ≤ s.created_at

theorem reusesFirst_init (size : ℕ) : ReusesFirst (init ε size) :=
  ⟨rfl, fun h => absurd rfl h⟩

theorem Event.ofQuery.ne_shutdown {e : Event ε} (h : e.ofQuery) : e ≠ .shutdown := by
  rintro rfl
  exact h

theorem ReusesFirst.step {s t : State ε} {e : Event ε} (hb : ReusesFirst s)
    (hq : e.ofQuery) (hf : StaysFull s e) (h : Step s e t) : ReusesFirst t := by
  refine ⟨(h.stopping hq.ne_shutdown).trans hb.running, ?_⟩
  cases h with
  | take _ _ _ _ full => exact fun _ => full
  | wait _ _ _ _ full => exact fun _ => full
  | dialed => exact fun h => (hb.full h).trans (Nat.le_succ _)
  | @dropped c mem broken =>
    have hc : (s.heap c).healthy = false := broken.resolve_left (by simp [hb.running])
    have full : s.channel.buffer ≠ [] → s.size < s.created_at := by
      simpa [StaysFull, hc] using hf
    exact fun h => Nat.le_sub_one_of_lt (full h)
  | delivered _ _ _ _ _ empty' => exact fun h => absurd empty' h
  | @buffered c ch _ _ healthy nobody =>
    have full : s.channel.waiting = [] → s.size ≤ s.created_at := by
      simpa [StaysFull, healthy] using hf
    exact fun _ => full nobody
  | begun | beginFailed | statement | abandon | release | shutdown => exact hq.elim
  | ended _ _ _ call =>
    rcases call with ⟨a, rfl, _⟩ | ⟨a, rfl, _⟩
    · exact hq.elim
    · exact hq.elim
  | commitFailed => exact hq.elim
  | _ => exact hb.full

/-- What an acquire that dials has found. -/
theorem Step.dials {s t : State ε} {e : Event ε} (h : Step s e t) (hd : Dials s t) :
    s.idle = [] ∧ s.created_at < s.size := by
  obtain ⟨holder, hd⟩ := hd
  have longer := congrArg List.length hd
  rw [List.length_cons] at longer
  cases h with
  | dial _ _ _ none_idle room => exact ⟨none_idle, room⟩
  | @dialed ℓ | @dialFailed ℓ =>
    have := List.length_erase_le (a := ℓ) (l := s.connecting)
    simp only [] at longer
    omega
  | _ =>
    simp [State.enter, State.store, State.destroy, State.shutdown] at longer

/-- In a pool that stays full a connect starts only when nothing is parked or buffered. -/
theorem dials_with_nothing_parked {size : ℕ} {es : List (Event ε)} {s t : State ε} {e : Event ε}
    (h : Runs step (fun s e => e.ofQuery ∧ StaysFull s e) (init ε size) es s)
    (hs : step s e = some t) (hd : Dials s t) : s.idle = [] ∧ s.channel.buffer = [] := by
  have inv : ReusesFirst s := h.invariant (reusesFirst_init size) fun _ _ _ hb hok hs =>
    hb.step hok.1 hok.2 (step_of hs)
  obtain ⟨none_idle, room⟩ := (step_of hs).dials hd
  refine ⟨none_idle, ?_⟩
  by_contra hne
  exact absurd (inv.full hne) (Nat.not_le.mpr room)

/-- Two queries in a pool of two: the first has not released when the second acquires. -/
theorem dials_with_nothing_parked_second :
    ∃ s t, Runs step (fun s e => e.ofQuery ∧ StaysFull s e) (init ℕ 2) [.acquire .query 0] s ∧
      step s (.acquire .query 0) = some t ∧ Dials s t ∧ s.idle = [] ∧ s.channel.buffer = [] := by
  obtain ⟨s, hs, hn⟩ := Option.bind_eq_some_iff.mp (show (run
    (guarded step fun s e => e.ofQuery ∧ StaysFull s e) (init ℕ 2) [.acquire .query 0]).bind
      (fun s => (step s (.acquire .query 0)).map fun t =>
        (t.connecting, s.connecting, s.tickets, s.next)) =
      some ([⟨1, .query, 1⟩, ⟨0, .query, 0⟩], [⟨0, .query, 0⟩], 1, 1) by decide +kernel)
  obtain ⟨t, ht, hd⟩ := Option.map_eq_some_iff.mp hn
  simp only [Prod.mk.injEq] at hd
  obtain ⟨hdial, hconn, htick, hnext⟩ := hd
  have hruns := runs_of_guarded hs
  have dials : Dials s t := ⟨.query, by rw [hdial, hconn, htick, hnext]⟩
  exact ⟨s, t, hruns, ht, dials, dials_with_nothing_parked hruns ht dials⟩

/-- In a pool of two a query runs and releases its connection, which is buffered. -/
def oneQuery : List (Event ℕ) :=
  [.acquire .query 0, .connected ⟨0, .query, 0⟩ .reached 0,
    .queried ⟨0, .query, 0⟩ ⟨"INSERT".toList, .data [7]⟩ [] .completed 0, .released 0]

/-- The next query dials, beside the connection that waits in the channel. -/
theorem dials_beside_buffered :
    ∃ s t, Runs step (fun _ e => e.ofQuery) (init ℕ 2) oneQuery s ∧
      step s (.acquire .query 0) = some t ∧ Dials s t ∧
      ¬ (s.idle = [] ∧ s.channel.buffer = []) := by
  obtain ⟨s, hs, hn⟩ := Option.bind_eq_some_iff.mp (show (run
    (guarded step fun _ e => e.ofQuery) (init ℕ 2) oneQuery).bind
      (fun s => (step s (.acquire .query 0)).map fun t =>
        (s.channel.buffer, t.connecting, s.connecting, s.tickets, s.next)) =
      some ([0], [⟨1, .query, 1⟩], [], 1, 1) by decide +kernel)
  obtain ⟨t, ht, hd⟩ := Option.map_eq_some_iff.mp hn
  simp only [Prod.mk.injEq] at hd
  obtain ⟨hbuf, hdial, hconn, htick, hnext⟩ := hd
  refine ⟨s, t, runs_of_guarded hs, ht, ⟨.query, ?_⟩, ?_⟩
  · rw [hdial, hconn, htick, hnext]
  · simp [hbuf]

/-! ### A release that leaves room -/

theorem step_capacity {s t : State ε} {e : Event ε} (h : step s e = some t) :
    t.channel.capacity = s.channel.capacity := by
  cases e with
  | acquire holder now =>
    simp only [step, Option.ite_none_left_eq_some, Option.some.injEq] at h
    obtain ⟨_, rfl⟩ := h
    have hcap := s.channel.async_receive_capacity ⟨s.tickets, holder⟩
    unfold make_or_wait
    split
    · rfl
    dsimp only
    split
    · rfl
    split
    · rfl
    split
    · rfl
    simp only [enter_channel]
    split <;> rename_i hr <;> rw [hr] at hcap <;> exact hcap
  | released c =>
    simp only [step, Option.ite_none_right_eq_some, Option.some.injEq] at h
    obtain ⟨_, rfl⟩ := h
    have hcap := s.channel.try_send_capacity c
    unfold State.release
    dsimp only
    split
    · rfl
    split
    · rfl
    split <;> rename_i hr <;> rw [hr] at hcap <;> exact hcap
  | shutdown =>
    simp only [step, Option.some.injEq] at h
    exact h ▸ rfl
  | _ => cases step_of h <;> rfl

/-- A connection is parked in `idle_` only when the channel's buffer has no place. -/
structure Spills (s : State ε) : Prop where
  capacity : s.size ≤ s.channel.capacity
  closed : s.channel.closed = false
  running : s.stopping = false
  spill : s.idle ≠ [] → s.channel.capacity ≤ s.channel.buffer.length

theorem spills_init (size : ℕ) : Spills (init ε size) := by
  refine ⟨?_, rfl, rfl, fun h => absurd rfl h⟩
  show size ≤ if size = 0 then 1 else size
  split <;> omega

theorem Spills.step {s t : State ε} {e : Event ε} (hp : Spills s) (hq : e.ofQuery)
    (hs : PoolModel.step s e = some t) : Spills t := by
  have h := step_of hs
  have hcap := step_capacity hs
  refine ⟨by rw [h.size, hcap]; exact hp.capacity,
    (h.channel_closed hq.ne_shutdown).trans hp.closed,
    (h.stopping hq.ne_shutdown).trans hp.running, ?_⟩
  rw [hcap]
  cases h with
  | reuse _ _ _ parked => exact fun _ => hp.spill (by simp [parked])
  | take _ _ _ none_idle => exact fun h => absurd none_idle h
  | wait _ _ _ none_idle => exact fun h => absurd none_idle h
  | delivered _ _ _ _ empty empty' =>
    intro h
    have := hp.spill h
    rw [empty] at this
    rwa [empty']
  | buffered _ _ _ _ _ _ buffer =>
    intro h
    have := hp.spill h
    rw [buffer, List.length_append]
    omega
  | parked _ _ _ refused =>
    intro _
    rcases refused with hc | hb
    · rw [hp.closed] at hc
      cases hc
    · exact hb.2
  | shutdown => exact hq.elim
  | _ => exact hp.spill

/-- After a release that leaves room beside a buffered connection, the next acquire that the
breaker admits dials. -/
theorem release_with_room_dials {size : ℕ} {es : List (Event ε)} {s t : State ε} {c : ConnId}
    {now : ℤ} (h : Runs step (fun _ e => e.ofQuery) (init ε size) es s)
    (hs : step s (.released c) = some t) (room : ¬ StaysFull s (.released c))
    (admitted : (t.breaker.allow now).1 = true) :
    ∃ u, step t (.acquire .query now) = some u ∧ Dials t u ∧ t.channel.buffer ≠ [] := by
  have hp : Spills s := h.invariant (spills_init size) fun _ _ _ hp hq hs => hp.step hq hs
  have hp' : Spills t := hp.step (e := .released c) trivial hs
  have count : s.created_at = s.held.length := by
    obtain ⟨perm, total⟩ := accounted_of_runs (fun _ _ he => he) h
    rw [total, perm.length_eq]
  simp only [held, List.length_append, List.length_map] at count
  have hcap := hp.capacity
  -- nothing is parked, since a full buffer alone would leave no room
  have after : t.idle = [] ∧ t.channel.buffer ≠ [] ∧ t.created_at < t.size := by
    cases step_of hs with
    | dropped mem broken =>
      have hc : (s.heap c).healthy = false := broken.resolve_left (by simp [hp.running])
      simp only [StaysFull, hc, Bool.false_eq_true, if_false, not_forall, not_lt] at room
      obtain ⟨hbuf, hfew⟩ := room
      have hone := List.length_pos_of_mem mem
      refine ⟨?_, hbuf, by dsimp only [destroy]; omega⟩
      by_contra hidle
      have := hp.spill hidle
      have := List.length_pos_of_ne_nil hidle
      omega
    | delivered _ _ healthy queue =>
      simp [StaysFull, healthy, queue] at room
    | buffered mem _ healthy _ _ _ buffer =>
      simp only [StaysFull, healthy, if_true, not_forall, not_le] at room
      obtain ⟨_, hfew⟩ := room
      refine ⟨?_, by simp [buffer], hfew⟩
      by_contra hidle
      have := hp.spill hidle
      omega
    | parked mem _ healthy refused =>
      simp only [StaysFull, healthy, if_true, not_forall, not_le] at room
      obtain ⟨_, hfew⟩ := room
      rcases refused with hc | hb
      · rw [hp.closed] at hc
        cases hc
      · omega
    | ended _ _ _ call =>
      rcases call with ⟨a, he, _⟩ | ⟨a, he, _⟩
      · cases he
      · cases he
  obtain ⟨none_idle, hbuf, hroom⟩ := after
  refine ⟨(t.make_or_wait .query now).2, rfl, ?_, hbuf⟩
  have next := @make_or_wait_step ε t .query now (by decide)
  generalize (t.make_or_wait .query now).2 = u at next
  cases next with
  | turnedAway stopping => simp [hp'.running] at stopping
  | circuitOpen _ refused => simp [admitted] at refused
  | reuse _ _ _ parked => simp [none_idle] at parked
  | dial => exact ⟨.query, rfl⟩
  | take _ _ _ _ full => omega
  | wait _ _ _ _ full => omega
  | channelClosed _ closed => simp [hp'.closed] at closed
  | ended _ _ _ call =>
    rcases call with ⟨a, he, _⟩ | ⟨a, he, _⟩
    · cases he
    · cases he

end AdequateApi.PoolModel
