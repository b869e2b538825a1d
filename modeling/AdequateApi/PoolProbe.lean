import AdequateApi.PoolOwnership

/-! Whether the circuit breaker can stay HalfOpen for ever. HalfOpen admits one acquire, and
leaves that state only when somebody reports an outcome: a connect, or `PgPool::query` on
success or on an infrastructure error. Every other end of a lease reports nothing. -/
namespace AdequateApi.PoolModel
open ChannelQueue DbConnection DbTransaction PoolBreaker TransitionRuns StdString State

variable {ε : Type}

namespace State

/-- Tickets of the acquires in progress and of the leases outstanding. -/
def active (s : State ε) : List ℕ :=
  s.connecting.map Lease.ticket ++ s.channel.waiting.map Task.ticket ++
    s.handed.map Lease.ticket ++ s.leased.map Lease.ticket

/-- The ticket whose lease the event ends without a report to the breaker. -/
def silentEnd (s : State ε) : Event ε → Option ℕ
  | .queried ℓ sql params a _ =>
      match ((s.heap ℓ.conn).execParams s.db sql params a).result with
      | .error (.db _ _) => some ℓ.ticket
      | _ => none
  | .begun ℓ a =>
      match (Transaction.begin (s.heap ℓ.conn) s.db a).result with
      | .error _ => some ℓ.ticket
      | .ok _ => none
  | .commit ℓ a =>
      if (Transaction.commit (s.heap ℓ.conn) s.db a).released then some ℓ.ticket else none
  | .rollback ℓ _ | .abandon ℓ | .release ℓ => some ℓ.ticket
  | _ => none

end State

/-- A step before shutdown that does not end the probe's lease in silence. -/
def ReportsProbe (s : State ε) (e : Event ε) : Prop :=
  e ≠ .shutdown ∧
    (s.breaker.state = .HalfOpen → s.silentEnd e = none ∨ s.silentEnd e ≠ s.probe)

def Event.isShutdown : Event ε → Bool
  | .shutdown => true
  | _ => false

theorem Event.isShutdown_iff (e : Event ε) : e.isShutdown = false ↔ e ≠ .shutdown := by
  cases e <;> simp [Event.isShutdown]

instance (s : State ε) : DecidablePred (ReportsProbe s) := fun e =>
  decidable_of_iff (e.isShutdown = false ∧
    (s.breaker.state = .HalfOpen → s.silentEnd e = none ∨ s.silentEnd e ≠ s.probe))
    (and_congr_left' e.isShutdown_iff)

/-- HalfOpen means that the probe is still in progress. -/
structure Probed (s : State ε) : Prop where
  unclosed : s.channel.closed = false
  running : s.breaker.state = .HalfOpen → ∃ p ∈ s.active, s.probe = some p

theorem probed_init (size : ℕ) : Probed (init ε size) :=
  ⟨rfl, fun h => by cases h⟩

theorem enter_refused {s : State ε} {now : ℤ} (h : (s.breaker.allow now).1 = false) :
    (s.enter now).breaker = s.breaker ∧ (s.enter now).probe = s.probe := by
  refine ⟨?_, by simp [enter, h]⟩
  rcases s.breaker.allow_cases now with ⟨_, ha⟩ | ⟨_, ha⟩ | ⟨ha, _⟩
  · rw [ha] at h
    cases h
  · exact ha
  · rw [ha] at h
    cases h

/-- Whoever is admitted while the breaker goes to HalfOpen is the probe. -/
theorem enter_halfOpen {s : State ε} {now : ℤ} (h : (s.breaker.allow now).1 = true)
    (hs : (s.enter now).breaker.state = .HalfOpen) : (s.enter now).probe = some s.tickets := by
  have hne : s.breaker.state ≠ .Closed := by
    rcases s.breaker.allow_cases now with ⟨hc, ha⟩ | ⟨ha, _⟩ | ⟨_, _, _, hne⟩
    · have : (s.breaker.allow now).2.state = .HalfOpen := hs
      rw [ha, hc] at this
      cases this
    · rw [ha] at h
      cases h
    · exact hne
  simp [enter, h, hne]

section active

variable (s : State ε) {k : ℕ}

theorem connecting_active (h : k ∈ s.connecting.map Lease.ticket) : k ∈ s.active :=
  List.mem_append_left _ (List.mem_append_left _ (List.mem_append_left _ h))

theorem waiting_active (h : k ∈ s.channel.waiting.map Task.ticket) : k ∈ s.active :=
  List.mem_append_left _ (List.mem_append_left _ (List.mem_append_right _ h))

theorem handed_active (h : k ∈ s.handed.map Lease.ticket) : k ∈ s.active :=
  List.mem_append_left _ (List.mem_append_right _ h)

theorem leased_active (h : k ∈ s.leased.map Lease.ticket) : k ∈ s.active :=
  List.mem_append_right _ h

variable {s} in
theorem active_elim {p : Prop} (h : k ∈ s.active)
    (connecting : k ∈ s.connecting.map Lease.ticket → p)
    (waiting : k ∈ s.channel.waiting.map Task.ticket → p)
    (handed : k ∈ s.handed.map Lease.ticket → p) (leased : k ∈ s.leased.map Lease.ticket → p) :
    p := by
  rcases List.mem_append.mp h with h | h
  · rcases List.mem_append.mp h with h | h
    · exact (List.mem_append.mp h).elim connecting waiting
    · exact handed h
  · exact leased h

end active

theorem mem_map_erase (ℓ : Lease) {l : List Lease} {p : ℕ} (h : p ∈ l.map Lease.ticket) :
    p ∈ (l.erase ℓ).map Lease.ticket ∨ p = ℓ.ticket := by
  obtain ⟨k, hk, rfl⟩ := List.mem_map.mp h
  by_cases he : k = ℓ
  · exact .inr (congrArg Lease.ticket he)
  · exact .inl (List.mem_map_of_mem ((List.mem_erase_of_ne he).mpr hk))

/-- When only `ℓ` goes, every other ticket stays. -/
theorem active_erase {s t : State ε} (ℓ : Lease) (hc : t.connecting = s.connecting)
    (hw : t.channel = s.channel) (hh : t.handed = s.handed) (hl : t.leased = s.leased.erase ℓ)
    {p : ℕ} (hp : p ∈ s.active) : p ∈ t.active ∨ p = ℓ.ticket := by
  unfold active at hp ⊢
  rw [hc, hw, hh, hl]
  rcases List.mem_append.mp hp with hp | hp
  · exact .inl (List.mem_append_left _ hp)
  · rcases mem_map_erase ℓ hp with hp | hp
    · exact .inl (List.mem_append_right _ hp)
    · exact .inr hp

theorem report_halfOpen {s : State ε} {r : Except PgError PgResult} {now : ℤ}
    (h : (s.report r now).state = .HalfOpen) :
    s.breaker.state = .HalfOpen ∧ ∃ code what, r = .error (.db code what) := by
  unfold report at h
  split at h
  · cases h
  · exact ⟨h, _, _, rfl⟩
  · exact absurd h (s.breaker.on_failure_state now)

theorem Probed.running_step {s t : State ε} {e : Event ε} (hp : Probed s)
    (hr : ReportsProbe s e) (h : Step s e t) (ht : t.breaker.state = .HalfOpen) :
    ∃ p ∈ t.active, t.probe = some p := by
  obtain ⟨hopen, hrun⟩ := hp
  obtain ⟨hsd, hrep⟩ := hr
  have admitted : ∀ {now : ℤ}, (s.breaker.allow now).1 = true → t.breaker = (s.enter now).breaker →
      t.probe = (s.enter now).probe → s.tickets ∈ t.active → ∃ p ∈ t.active, t.probe = some p := by
    intro now ha hb hp hm
    rw [hb] at ht
    exact ⟨s.tickets, hm, hp.trans (enter_halfOpen ha ht)⟩
  -- a lease that ends in silence is not the probe's
  have ends : ∀ ℓ : Lease, s.breaker.state = .HalfOpen → s.silentEnd e = some ℓ.ticket →
      t.probe = s.probe → t.connecting = s.connecting → t.channel = s.channel →
      t.handed = s.handed → t.leased = s.leased.erase ℓ → ∃ p ∈ t.active, t.probe = some p := by
    intro ℓ hs hend hpr hc hw hh hl
    obtain ⟨p, hm, hpe⟩ := hrun hs
    have hne := (hrep hs).resolve_left (by simp [hend])
    refine ⟨p, (active_erase ℓ hc hw hh hl hm).resolve_right ?_, hpr.trans hpe⟩
    rintro rfl
    exact hne (hend.trans hpe.symm)
  cases h with
  | turnedAway => exact hrun ht
  | circuitOpen _ refused =>
    obtain ⟨hb, hpr⟩ := enter_refused refused
    rw [hb] at ht
    rw [hpr]
    exact hrun ht
  | channelClosed _ closed => simp [hopen] at closed
  | reuse _ _ ha => exact admitted ha rfl rfl (by simp [active])
  | dial _ _ ha => exact admitted ha rfl rfl (by simp [active])
  | take _ _ ha => exact admitted ha rfl rfl (by simp [active])
  | wait _ _ ha _ _ _ _ queue => exact admitted ha rfl rfl (by simp [active, queue])
  | dialed => cases ht
  | dialFailed => exact absurd ht (s.breaker.on_failure_state _)
  | @received ℓ hm =>
    obtain ⟨p, hact, hpe⟩ := hrun ht
    refine ⟨p, active_elim hact (fun hp => connecting_active _ hp)
      (fun hp => waiting_active _ hp) (fun hp => ?_) fun hp => ?_, hpe⟩
    · rcases mem_map_erase ℓ hp with hp | rfl
      · exact handed_active _ hp
      · exact leased_active _ List.mem_cons_self
    · exact leased_active _ (List.mem_cons_of_mem _ hp)
  | @queried ℓ sql params a now _ _ r call =>
    obtain ⟨hs, code, what, hres⟩ := report_halfOpen ht
    exact ends ℓ hs (by simp only [silentEnd, call, hres]) rfl rfl rfl rfl rfl
  | @begun ℓ =>
    obtain ⟨p, hact, hpe⟩ := hrun ht
    refine ⟨p, active_elim hact (fun hp => connecting_active _ hp)
      (fun hp => waiting_active _ hp) (fun hp => handed_active _ hp) fun hp => ?_, hpe⟩
    rcases mem_map_erase ℓ hp with hp | rfl
    · exact leased_active _ (List.mem_cons_of_mem _ hp)
    · exact leased_active _ List.mem_cons_self
  | @beginFailed ℓ a _ _ _ r call failure =>
    exact ends ℓ ht (by simp only [silentEnd, call, failure]) rfl rfl rfl rfl rfl
  | statement => exact hrun ht
  | @ended ℓ e _ _ r call returned =>
    refine ends ℓ ht ?_ rfl rfl rfl rfl rfl
    rcases call with ⟨a, rfl, hr⟩ | ⟨a, rfl, _⟩
    · simp only [silentEnd, hr, returned, if_true]
    · rfl
  | commitFailed => exact hrun ht
  | @abandon ℓ => exact ends ℓ ht rfl rfl rfl rfl rfl rfl
  | @release ℓ => exact ends ℓ ht rfl rfl rfl rfl rfl rfl
  | dropped => exact hrun ht
  | delivered _ _ _ queue =>
    obtain ⟨p, hact, hpe⟩ := hrun ht
    refine ⟨p, active_elim hact (fun hp => connecting_active _ hp) (fun hp => ?_)
      (fun hp => handed_active _ (List.mem_cons_of_mem _ hp))
      fun hp => leased_active _ hp, hpe⟩
    rw [queue, List.map_cons] at hp
    rcases List.mem_cons.mp hp with rfl | hp
    · exact handed_active _ List.mem_cons_self
    · exact waiting_active _ hp
  | buffered _ _ _ nobody nobody' =>
    obtain ⟨p, hact, hpe⟩ := hrun ht
    refine ⟨p, ?_, hpe⟩
    simpa only [active, nobody, nobody'] using hact
  | parked => exact hrun ht
  | shutdown => exact absurd rfl hsd

theorem Probed.step {s t : State ε} {e : Event ε} (hp : Probed s) (hr : ReportsProbe s e)
    (h : Step s e t) : Probed t :=
  ⟨(h.channel_closed hr.1).trans hp.unclosed, hp.running_step hr h⟩

/-- As long as no probe's lease ends in silence, HalfOpen lasts only while the probe runs,
and with nothing in progress the breaker admits somebody again. -/
theorem breaker_never_wedges {size : ℕ} {es : List (Event ε)} {s : State ε}
    (h : Runs step ReportsProbe (init ε size) es s) :
    (s.active = [] → s.breaker.Recovers) ∧
      (s.breaker.state = .HalfOpen → s.breaker.half_open_probe_inflight = true →
        ∃ p ∈ s.active, s.probe = some p) := by
  have hp : Probed s :=
    h.invariant (probed_init size) fun _ _ _ hp hr hs => hp.step hr (step_of hs)
  refine ⟨fun hq => ?_, fun hs _ => hp.running hs⟩
  apply CircuitBreaker.recovers_of_not_halfOpen
  intro hs
  obtain ⟨p, hm, _⟩ := hp.running hs
  simp [hq] at hm

/-- Five failed connects open the breaker while the connection of ticket 0 is back in the
channel, where the probe finds it. -/
def tripped : List (Event ℕ) :=
  (List.replicate 6 (.acquire .query 0)) ++
    [.connected ⟨0, .query, 0⟩ .reached 0,
      .queried ⟨0, .query, 0⟩ ⟨"SELECT".toList, .data []⟩ [] .completed 0, .released 0,
      .connected ⟨1, .query, 1⟩ .unreachable 0, .connected ⟨2, .query, 2⟩ .unreachable 0,
      .connected ⟨3, .query, 3⟩ .unreachable 0, .connected ⟨4, .query, 4⟩ .unreachable 0,
      .connected ⟨5, .query, 5⟩ .unreachable 0, .acquire .query 4000000000,
      .received ⟨6, .query, 0⟩]

theorem breaker_never_wedges_tripped :
    ∃ s, Runs step ReportsProbe (init ℕ 1) tripped s ∧ s.breaker.state = .HalfOpen ∧
      ∃ p ∈ s.active, s.probe = some p := by
  obtain ⟨s, hs, hn⟩ := Option.map_eq_some_iff.mp (show (run (guarded step ReportsProbe)
    (init ℕ 1) tripped).map (fun s => (s.breaker.state, s.breaker.half_open_probe_inflight)) =
      some (.HalfOpen, true) by decide +kernel)
  obtain ⟨hb, hi⟩ := Prod.mk.inj hn
  have hruns := runs_of_guarded hs
  exact ⟨s, hruns, hb, (breaker_never_wedges hruns).2 hb hi⟩

/-- The probe ends with an SQL error. -/
def wedged : List (Event ℕ) :=
  tripped ++ [.queried ⟨6, .query, 0⟩ ⟨"INSERT".toList, .data [7]⟩ [] .rejected 4000000000,
    .released 0]

theorem breaker_wedges :
    ∃ s, Runs step (fun _ e => e.ofQuery) (init ℕ 1) wedged s ∧ s.active = [] ∧
      s.releasing = [] ∧ ¬ s.breaker.Recovers := by
  obtain ⟨s, hs, hn⟩ := Option.map_eq_some_iff.mp (show (run (guarded step fun _ e => e.ofQuery)
    (init ℕ 1) wedged).map (fun s => (s.active, s.releasing, s.breaker.state,
      s.breaker.half_open_probe_inflight)) = some ([], [], .HalfOpen, true) by decide +kernel)
  obtain ⟨ha, hr, hb, hi⟩ : s.active = [] ∧ s.releasing = [] ∧ s.breaker.state = .HalfOpen ∧
      s.breaker.half_open_probe_inflight = true := by
    simpa only [Prod.mk.injEq] using hn
  exact ⟨s, runs_of_guarded hs, ha, hr, CircuitBreaker.not_recovers_of_inflight hb hi⟩

end AdequateApi.PoolModel
