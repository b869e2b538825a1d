import AdequateApi.PoolModel

/-! The transitions of the pool, one constructor for each way a step can go. Every
invariant of the pool is proved by cases on `Step`. -/
namespace AdequateApi.PoolModel
open ChannelQueue DbConnection DbTransaction PoolBreaker TransitionRuns StdString State

variable {ε : Type}

namespace State

@[simp] theorem enter_channel (s : State ε) (now : ℤ) : (s.enter now).channel = s.channel := rfl

/-- Outcomes of a finished command, as the breaker sees them. -/
def report (s : State ε) (result : Except PgError PgResult) (now : ℤ) : CircuitBreaker :=
  match result with
  | .ok _ => s.breaker.on_success
  | .error (.db _ _) => s.breaker
  | .error (.infra _) => s.breaker.on_failure now

end State

/-- `Step s e t`: event `e` takes `s` to `t`. -/
inductive Step (s : State ε) : Event ε → State ε → Prop
  | turnedAway {holder now} (stopping : s.stopping = true) : Step s (.acquire holder now) s
  | circuitOpen {holder now} (running : s.stopping = false)
      (refused : (s.breaker.allow now).1 = false) : Step s (.acquire holder now) (s.enter now)
  | reuse {holder now c rest} (kind : holder ≠ .transaction) (running : s.stopping = false)
      (admitted : (s.breaker.allow now).1 = true) (parked : s.idle = c :: rest) :
      Step s (.acquire holder now)
        { s.enter now with idle := rest, leased := ⟨s.tickets, holder, c⟩ :: s.leased }
  | dial {holder now} (kind : holder ≠ .transaction) (running : s.stopping = false)
      (admitted : (s.breaker.allow now).1 = true) (none_idle : s.idle = [])
      (room : s.created_at < s.size) :
      Step s (.acquire holder now)
        { s.enter now with
          connecting := ⟨s.tickets, holder, s.next⟩ :: s.connecting
          heap := Function.update s.heap s.next .create
          next := s.next + 1 }
  | take {holder now ch c} (kind : holder ≠ .transaction) (running : s.stopping = false)
      (admitted : (s.breaker.allow now).1 = true) (none_idle : s.idle = [])
      (full : s.size ≤ s.created_at) (buffered : s.channel.buffer = c :: ch.buffer)
      (nobody : ch.waiting = []) (same : ch.closed = s.channel.closed) :
      Step s (.acquire holder now)
        { s.enter now with channel := ch, handed := ⟨s.tickets, holder, c⟩ :: s.handed }
  | wait {holder now ch} (kind : holder ≠ .transaction) (running : s.stopping = false)
      (admitted : (s.breaker.allow now).1 = true) (none_idle : s.idle = [])
      (full : s.size ≤ s.created_at) (empty : s.channel.buffer = []) (empty' : ch.buffer = [])
      (queue : ch.waiting = s.channel.waiting ++ [⟨s.tickets, holder⟩])
      (same : ch.closed = s.channel.closed) :
      Step s (.acquire holder now) { s.enter now with channel := ch }
  | channelClosed {holder now} (running : s.stopping = false)
      (closed : s.channel.closed = true) : Step s (.acquire holder now) (s.enter now)
  | dialed {ℓ a now k} (mem : ℓ ∈ s.connecting)
      (call : (s.heap ℓ.conn).connect a = (.ok (), k)) :
      Step s (.connected ℓ a now)
        { s.store ℓ.conn k s.db with
          connecting := s.connecting.erase ℓ
          created_at := s.created_at + 1
          breaker := s.breaker.on_success
          leased := ℓ :: s.leased
          existing := ℓ.conn :: s.existing }
  | dialFailed {ℓ a now k e} (mem : ℓ ∈ s.connecting)
      (call : (s.heap ℓ.conn).connect a = (.error e, k)) :
      Step s (.connected ℓ a now)
        { s.store ℓ.conn k.close s.db with
          connecting := s.connecting.erase ℓ
          breaker := s.breaker.on_failure now }
  | received {ℓ} (mem : ℓ ∈ s.handed) :
      Step s (.received ℓ) { s with handed := s.handed.erase ℓ, leased := ℓ :: s.leased }
  | queried {ℓ sql params a now} (mem : ℓ ∈ s.leased) (kind : ℓ.holder = .query)
      (r : Exec ε PgResult) (call : (s.heap ℓ.conn).execParams s.db sql params a = r) :
      Step s (.queried ℓ sql params a now)
        { s.store ℓ.conn r.conn r.db with
          leased := s.leased.erase ℓ
          releasing := ℓ.conn :: s.releasing
          breaker := s.report r.result now }
  | begun {ℓ a out} (mem : ℓ ∈ s.leased) (kind : ℓ.holder = .opening) (r : Exec ε PgResult)
      (call : Transaction.begin (s.heap ℓ.conn) s.db a = r) (success : r.result = .ok out) :
      Step s (.begun ℓ a)
        { s.store ℓ.conn r.conn r.db with
          leased := { ℓ with holder := .transaction } :: s.leased.erase ℓ }
  | beginFailed {ℓ a e} (mem : ℓ ∈ s.leased) (kind : ℓ.holder = .opening) (r : Exec ε PgResult)
      (call : Transaction.begin (s.heap ℓ.conn) s.db a = r) (failure : r.result = .error e) :
      Step s (.begun ℓ a) { (s.store ℓ.conn r.conn r.db).destroy ℓ.conn with
        leased := s.leased.erase ℓ }
  | statement {ℓ q} (mem : ℓ ∈ s.leased) (kind : ℓ.holder = .transaction ∨ ℓ.holder = .caller)
      (r : Exec ε PgResult) (call : q.run (s.heap ℓ.conn) s.db = r) :
      Step s (.statement ℓ q) (s.store ℓ.conn r.conn r.db)
  | ended {ℓ e} (mem : ℓ ∈ s.leased) (kind : ℓ.holder = .transaction) (r : Ended ε)
      (call : (∃ a, e = .commit ℓ a ∧ Transaction.commit (s.heap ℓ.conn) s.db a = r) ∨
        ∃ a, e = .rollback ℓ a ∧ Transaction.rollback (s.heap ℓ.conn) s.db a = r)
      (returned : r.released = true) :
      Step s e
        { s.store ℓ.conn r.conn r.db with
          leased := s.leased.erase ℓ, releasing := ℓ.conn :: s.releasing }
  | commitFailed {ℓ a} (mem : ℓ ∈ s.leased) (kind : ℓ.holder = .transaction) (r : Ended ε)
      (call : Transaction.commit (s.heap ℓ.conn) s.db a = r) (threw : r.released = false) :
      Step s (.commit ℓ a) (s.store ℓ.conn r.conn r.db)
  | abandon {ℓ} (mem : ℓ ∈ s.leased) (kind : ℓ.holder = .transaction ∨ ℓ.holder = .caller) :
      Step s (.abandon ℓ) { s.destroy ℓ.conn with leased := s.leased.erase ℓ }
  | release {ℓ} (mem : ℓ ∈ s.leased) (kind : ℓ.holder = .caller) :
      Step s (.release ℓ)
        { s with leased := s.leased.erase ℓ, releasing := ℓ.conn :: s.releasing }
  | dropped {c} (mem : c ∈ s.releasing)
      (broken : s.stopping = true ∨ (s.heap c).healthy = false) :
      Step s (.released c)
        { s.destroy c with
          releasing := s.releasing.erase c, created_at := s.created_at - 1 }
  | delivered {c ch t} (mem : c ∈ s.releasing) (running : s.stopping = false)
      (healthy : (s.heap c).healthy = true) (queue : s.channel.waiting = t :: ch.waiting)
      (empty : s.channel.buffer = []) (empty' : ch.buffer = [])
      (same : ch.closed = s.channel.closed) :
      Step s (.released c)
        { s with releasing := s.releasing.erase c, channel := ch,
                 handed := ⟨t.ticket, t.holder, c⟩ :: s.handed }
  | buffered {c ch} (mem : c ∈ s.releasing) (running : s.stopping = false)
      (healthy : (s.heap c).healthy = true) (nobody : s.channel.waiting = [])
      (nobody' : ch.waiting = []) (room : s.channel.buffer.length < s.channel.capacity)
      (buffer : ch.buffer = s.channel.buffer ++ [c]) (same : ch.closed = s.channel.closed) :
      Step s (.released c) { s with releasing := s.releasing.erase c, channel := ch }
  | parked {c} (mem : c ∈ s.releasing) (running : s.stopping = false)
      (healthy : (s.heap c).healthy = true)
      (refused : s.channel.closed = true ∨
        s.channel.waiting = [] ∧ s.channel.capacity ≤ s.channel.buffer.length) :
      Step s (.released c) { s with releasing := s.releasing.erase c, idle := c :: s.idle }
  | shutdown : Step s .shutdown s.shutdown

theorem make_or_wait_step {s : State ε} {holder : Holder} {now : ℤ}
    (hk : holder ≠ .transaction) :
    Step s (.acquire holder now) (s.make_or_wait holder now).2 := by
  unfold make_or_wait
  split
  · rename_i hs
    exact .turnedAway hs
  rename_i hs
  have hrun : s.stopping = false := by simpa using hs
  dsimp only
  cases ha : (s.breaker.allow now).1 with
  | false => exact .circuitOpen hrun ha
  | true =>
    simp only [Bool.not_true, Bool.false_eq_true, if_false]
    split
    · rename_i c rest hidle
      exact .reuse hk hrun ha hidle
    rename_i hidle
    split
    · rename_i hroom
      exact .dial hk hrun ha hidle hroom
    rename_i hfull
    have hfull' : s.size ≤ s.created_at := Nat.le_of_not_lt hfull
    have hclosed := s.channel.async_receive_closed ⟨s.tickets, holder⟩
    simp only [enter_channel]
    rcases s.channel.async_receive_cases ⟨s.tickets, holder⟩ with
      ⟨c, ch, hr, hb, _, hw'⟩ | ⟨ch, hr, hb, hb', hw, _⟩ | ⟨hr, hc⟩
    · rw [hr] at hclosed ⊢
      exact .take hk hrun ha hidle hfull' hb hw' hclosed
    · rw [hr] at hclosed ⊢
      exact .wait hk hrun ha hidle hfull' hb hb' hw hclosed
    · rw [hr]
      exact .channelClosed hrun hc

theorem finish_connect_step {s : State ε} {ℓ : Lease} {a : ConnectAnswers} {now : ℤ}
    (hm : ℓ ∈ s.connecting) : Step s (.connected ℓ a now) (s.finish_connect ℓ a now) := by
  unfold finish_connect
  dsimp only
  rcases h : (s.heap ℓ.conn).connect a with ⟨e | _, k⟩
  · exact .dialFailed hm h
  · exact .dialed hm h

theorem finish_query_step {s : State ε} {ℓ : Lease} {sql : Sql ε} {params : List (Option Str)}
    {a : ExecAnswers} {now : ℤ} (hm : ℓ ∈ s.leased) (hk : ℓ.holder = .query) :
    Step s (.queried ℓ sql params a now) (s.finish_query ℓ sql params a now) := by
  have h : Step s (.queried ℓ sql params a now) _ :=
    .queried hm hk _ (Eq.refl ((s.heap ℓ.conn).execParams s.db sql params a))
  unfold finish_query
  unfold report at h
  dsimp only
  split <;> rename_i hr <;> rw [hr] at h <;> exact h

theorem finish_begin_step {s : State ε} {ℓ : Lease} {a : ExecAnswers}
    (hm : ℓ ∈ s.leased) (hk : ℓ.holder = .opening) : Step s (.begun ℓ a) (s.finish_begin ℓ a) := by
  unfold finish_begin
  dsimp only
  split
  · rename_i hr
    exact .begun hm hk _ rfl hr
  · rename_i hr
    exact .beginFailed hm hk _ rfl hr

theorem release_step {s : State ε} {c : ConnId} (hm : c ∈ s.releasing) :
    Step s (.released c) (s.release c) := by
  unfold State.release
  dsimp only
  split
  · rename_i hs
    exact .dropped hm (.inl hs)
  rename_i hs
  have hrun : s.stopping = false := by simpa using hs
  split
  · rename_i hh
    exact .dropped hm (.inr (by simpa using hh))
  rename_i hh
  have hheal : (s.heap c).healthy = true := by simpa using hh
  have hclosed := s.channel.try_send_closed c
  rcases s.channel.try_send_cases c with
    ⟨t, ch, hr, hw, hb, hb', _⟩ | ⟨ch, hr, hw, hw', hroom, hb, _⟩ | ⟨hr, hf⟩
  · rw [hr] at hclosed ⊢
    exact .delivered hm hrun hheal hw hb hb' hclosed
  · rw [hr] at hclosed ⊢
    exact .buffered hm hrun hheal hw hw' hroom hb hclosed
  · rw [hr]
    exact .parked hm hrun hheal hf

theorem step_of {s t : State ε} {e : Event ε} (h : step s e = some t) : Step s e t := by
  cases e with
  | acquire holder now =>
    simp only [step, Option.ite_none_left_eq_some, Option.some.injEq] at h
    exact h.2 ▸ make_or_wait_step h.1
  | connected ℓ a now =>
    simp only [step, Option.ite_none_right_eq_some, Option.some.injEq] at h
    exact h.2 ▸ finish_connect_step h.1
  | received ℓ =>
    simp only [step, Option.ite_none_right_eq_some, Option.some.injEq] at h
    exact h.2 ▸ .received h.1
  | queried ℓ sql params a now =>
    simp only [step, Option.ite_none_right_eq_some, Option.some.injEq] at h
    exact h.2 ▸ finish_query_step h.1.1 h.1.2
  | begun ℓ a =>
    simp only [step, Option.ite_none_right_eq_some, Option.some.injEq] at h
    exact h.2 ▸ finish_begin_step h.1.1 h.1.2
  | statement ℓ q =>
    simp only [step, Option.ite_none_right_eq_some, Option.some.injEq] at h
    exact h.2 ▸ .statement h.1.1 h.1.2 _ rfl
  | commit ℓ a =>
    simp only [step, Option.ite_none_right_eq_some, Option.some.injEq] at h
    obtain ⟨⟨hm, hk⟩, rfl⟩ := h
    unfold finish_transaction
    dsimp only
    split
    · rename_i hr
      exact .ended hm hk _ (.inl ⟨a, rfl, rfl⟩) hr
    · rename_i hr
      exact .commitFailed hm hk _ rfl (by simpa using hr)
  | rollback ℓ a =>
    simp only [step, Option.ite_none_right_eq_some, Option.some.injEq] at h
    obtain ⟨⟨hm, hk⟩, rfl⟩ := h
    exact .ended hm hk _ (.inr ⟨a, rfl, rfl⟩) rfl
  | abandon ℓ =>
    simp only [step, Option.ite_none_right_eq_some, Option.some.injEq] at h
    exact h.2 ▸ .abandon h.1.1 h.1.2
  | release ℓ =>
    simp only [step, Option.ite_none_right_eq_some, Option.some.injEq] at h
    exact h.2 ▸ .release h.1.1 h.1.2
  | released c =>
    simp only [step, Option.ite_none_right_eq_some, Option.some.injEq] at h
    exact h.2 ▸ release_step h.1
  | shutdown =>
    simp only [step, Option.some.injEq] at h
    exact h ▸ .shutdown

theorem Step.size {s t : State ε} {e : Event ε} (h : Step s e t) : t.size = s.size := by
  cases h <;> rfl

theorem Step.channel_closed {s t : State ε} {e : Event ε} (h : Step s e t) (he : e ≠ .shutdown) :
    t.channel.closed = s.channel.closed := by
  cases h with
  | take _ _ _ _ _ _ _ same | wait _ _ _ _ _ _ _ _ same => exact same
  | delivered _ _ _ _ _ _ same | buffered _ _ _ _ _ _ _ same => exact same
  | shutdown => exact absurd rfl he
  | _ => rfl

theorem Step.stopping {s t : State ε} {e : Event ε} (h : Step s e t) (he : e ≠ .shutdown) :
    t.stopping = s.stopping := by
  cases h with
  | shutdown => exact absurd rfl he
  | _ => rfl

/-- `stopping_` is never reset. -/
theorem Step.running {s t : State ε} {e : Event ε} (h : Step s e t) (hr : t.stopping = false) :
    s.stopping = false := by
  cases h with
  | shutdown => cases hr
  | _ => exact hr

end AdequateApi.PoolModel
