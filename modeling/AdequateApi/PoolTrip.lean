import AdequateApi.PoolProbe

/-! Which operation an outcome reported to the breaker belongs to. A trip is a step from
Closed to Open. Calls admitted before it are still in progress then, and `on_success` does
not ask who reports. -/
namespace AdequateApi.PoolModel
open ChannelQueue DbConnection DbTransaction PoolBreaker TransitionRuns StdString State

variable {ε : Type}

/-- The reading of the steady clock at the event. -/
def Event.reading : Event ε → Option ℤ
  | .acquire _ now | .connected _ _ now | .queried _ _ _ _ now => some now
  | _ => none

/-- The ticket of the operation whose success the event reports to the breaker. -/
def State.success (s : State ε) : Event ε → Option ℕ
  | .connected ℓ a _ =>
      match ((s.heap ℓ.conn).connect a).1 with
      | .ok _ => some ℓ.ticket
      | .error _ => none
  | .queried ℓ sql params a _ =>
      match ((s.heap ℓ.conn).execParams s.db sql params a).result with
      | .ok _ => some ℓ.ticket
      | .error _ => none
  | _ => none

/-- When the breaker tripped, and how many tickets were drawn by then: the operations
admitted before have the smaller ones. -/
structure Trip where
  time : ℤ
  tickets : ℕ
  deriving DecidableEq, Repr

/-- The pool with a record of its clock readings and of its trips, the latest first. -/
structure Watched (ε : Type) where
  pool : State ε
  clock : ℤ
  trips : List Trip

namespace Watched

def start (ε : Type) (size : ℕ) (now : ℤ) : Watched ε := ⟨.init ε size, now, []⟩

/-- The record after event `e` has taken the pool to `t`. -/
def note (w : Watched ε) (e : Event ε) (t : State ε) : Watched ε :=
  let now := e.reading.getD w.clock
  { pool := t
    clock := now
    trips := if w.pool.breaker.state = .Closed ∧ t.breaker.state = .Open then
        ⟨now, w.pool.tickets⟩ :: w.trips
      else w.trips }

def step (w : Watched ε) (e : Event ε) : Option (Watched ε) :=
  (PoolModel.step w.pool e).map (w.note e)

/-- `steady_clock` never goes back. -/
def Steady (w : Watched ε) (e : Event ε) : Prop := ∀ now ∈ e.reading, w.clock ≤ now

/-- An operation admitted before a trip succeeds while the breaker is Open or HalfOpen. -/
def Stale (w : Watched ε) (e : Event ε) : Prop :=
  w.pool.breaker.state ≠ .Closed ∧
    ∃ p ∈ w.trips, ∃ k ∈ w.pool.success e, k < p.tickets

/-- Nobody passes `allow` before a trip's `open_duration` is over, and the breaker goes back
to Closed only by the success of an operation admitted after every trip. -/
structure Honours (w : Watched ε) (e : Event ε) : Prop where
  refuses : ∀ p ∈ w.trips, ∀ holder now, e = .acquire holder now →
    now < p.time + w.pool.breaker.open_duration → (w.pool.breaker.allow now).1 = false
  reopens : w.pool.breaker.state ≠ .Closed → ∀ t, PoolModel.step w.pool e = some t →
    t.breaker.state = .Closed → ∃ k ∈ w.pool.success e, ∀ p ∈ w.trips, p.tickets ≤ k

instance (w : Watched ε) : DecidablePred w.Steady := fun _ =>
  inferInstanceAs (Decidable (∀ now ∈ Event.reading _, w.clock ≤ now))

end Watched

/-- What a step does to the breaker. -/
inductive Told (s : State ε) (e : Event ε) (b : CircuitBreaker) : Prop
  | nothing (silent : s.success e = none) (same : b = s.breaker)
  | asked {holder : Holder} {now : ℤ} (event : e = .acquire holder now)
      (answer : b = (s.breaker.allow now).2)
  | succeeded {k : ℕ} (success : s.success e = some k) (running : k ∈ s.active)
      (report : b = s.breaker.on_success)
  | failed {now : ℤ} (silent : s.success e = none) (reading : e.reading = some now)
      (report : b = s.breaker.on_failure now)

theorem Step.told {s t : State ε} {e : Event ε} (h : Step s e t) : Told s e t.breaker := by
  cases h with
  | circuitOpen | reuse | dial | take | wait | channelClosed => exact .asked rfl rfl
  | @dialed ℓ a now k hm call =>
    have success : s.success (.connected ℓ a now) = some ℓ.ticket := by
      simp only [success, call]
    exact .succeeded success (connecting_active s (List.mem_map_of_mem hm)) rfl
  | dialFailed hm call => exact .failed (by simp [success, call]) rfl rfl
  | @queried ℓ sql params a now hm _ r call =>
    cases hr : r.result with
    | ok out =>
      refine .succeeded ?_ (leased_active s (List.mem_map_of_mem hm)) (by simp [report])
      simp [success, call, hr]
    | error err =>
      have silent : s.success (.queried ℓ sql params a now) = none := by
        simp only [success, call, hr]
      cases err with
      | db code what => exact .nothing silent (by simp [report])
      | infra what => exact .failed silent rfl (by simp [report])
  | ended _ _ _ call =>
    rcases call with ⟨a, rfl, _⟩ | ⟨a, rfl, _⟩
    · exact .nothing rfl rfl
    · exact .nothing rfl rfl
  | _ => exact .nothing rfl rfl

/-- The step is an acquire that passes `allow`. -/
def Admits (s : State ε) (e : Event ε) (t : State ε) : Prop :=
  ∃ holder now, e = .acquire holder now ∧ (s.breaker.allow now).1 = true ∧
    t.breaker = (s.breaker.allow now).2 ∧ t.tickets = s.tickets + 1

/-- The only operation that enters is an acquire that passes `allow`, with a new ticket. -/
theorem Step.active_cases {s t : State ε} {e : Event ε} {k : ℕ} (h : Step s e t)
    (hk : k ∈ t.active) :
    (k ∈ s.active ∧ s.tickets ≤ t.tickets) ∨ (k = s.tickets ∧ Admits s e t) := by
  have enters : Admits s e t → k = s.tickets ∨ k ∈ s.active →
      (k ∈ s.active ∧ s.tickets ≤ t.tickets) ∨ (k = s.tickets ∧ Admits s e t) := by
    rintro hadm (hk | hk)
    · exact .inr ⟨hk, hadm⟩
    · obtain ⟨_, _, _, _, _, ht⟩ := hadm
      exact .inl ⟨hk, by omega⟩
  have erased : ∀ (ℓ : Lease) {l : List Lease}, k ∈ (l.erase ℓ).map Lease.ticket →
      k ∈ l.map Lease.ticket := by
    intro ℓ l hm
    exact List.map_subset _ List.erase_subset hm
  cases h with
  | turnedAway => exact .inl ⟨hk, le_rfl⟩
  | circuitOpen | channelClosed => exact .inl ⟨hk, Nat.le_succ _⟩
  | reuse _ _ ha =>
    refine enters ⟨_, _, rfl, ha, rfl, rfl⟩ (active_elim hk (.inr ∘ connecting_active s)
      (.inr ∘ waiting_active s) (.inr ∘ handed_active s) fun h => ?_)
    exact (List.mem_cons.mp h).imp_right (leased_active s)
  | dial _ _ ha =>
    refine enters ⟨_, _, rfl, ha, rfl, rfl⟩ (active_elim hk (fun h => ?_)
      (.inr ∘ waiting_active s) (.inr ∘ handed_active s) (.inr ∘ leased_active s))
    exact (List.mem_cons.mp h).imp_right (connecting_active s)
  | take _ _ ha _ _ _ nobody =>
    refine enters ⟨_, _, rfl, ha, rfl, rfl⟩ (active_elim hk (.inr ∘ connecting_active s)
      (fun h => ?_) (fun h => ?_) (.inr ∘ leased_active s))
    · rw [nobody] at h
      cases h
    · exact (List.mem_cons.mp h).imp_right (handed_active s)
  | wait _ _ ha _ _ _ _ queue =>
    refine enters ⟨_, _, rfl, ha, rfl, rfl⟩ (active_elim hk (.inr ∘ connecting_active s)
      (fun h => ?_) (.inr ∘ handed_active s) (.inr ∘ leased_active s))
    rw [queue, List.map_append] at h
    rcases List.mem_append.mp h with h | h
    · exact .inr (waiting_active s h)
    · exact .inl (List.mem_singleton.mp h)
  | @dialed ℓ _ _ _ hm =>
    refine .inl ⟨active_elim hk (connecting_active s ∘ erased ℓ) (waiting_active s)
      (handed_active s) fun h => ?_, le_rfl⟩
    rcases List.mem_cons.mp h with rfl | h
    · exact connecting_active s (List.mem_map_of_mem hm)
    · exact leased_active s h
  | @dialFailed ℓ =>
    exact .inl ⟨active_elim hk (connecting_active s ∘ erased ℓ) (waiting_active s)
      (handed_active s) (leased_active s), le_rfl⟩
  | @received ℓ hm =>
    refine .inl ⟨active_elim hk (connecting_active s) (waiting_active s)
      (handed_active s ∘ erased ℓ) fun h => ?_, le_rfl⟩
    rcases List.mem_cons.mp h with rfl | h
    · exact handed_active s (List.mem_map_of_mem hm)
    · exact leased_active s h
  | @begun ℓ _ _ hm =>
    have hℓ : ℓ.ticket ∈ s.active := leased_active s (List.mem_map_of_mem hm)
    refine .inl ⟨active_elim hk (connecting_active s) (waiting_active s) (handed_active s)
      fun h => ?_, le_rfl⟩
    rcases List.mem_cons.mp h with rfl | h
    · exact hℓ
    · exact leased_active s (erased ℓ h)
  | @queried ℓ | @ended ℓ | @release ℓ | @abandon ℓ | @beginFailed ℓ =>
    exact .inl ⟨active_elim hk (connecting_active s) (waiting_active s) (handed_active s)
      (leased_active s ∘ erased ℓ), le_rfl⟩
  | @delivered _ ch t _ _ _ queue =>
    have hfirst : s.channel.waiting.map Task.ticket =
        t.ticket :: ch.waiting.map Task.ticket := by
      rw [queue, List.map_cons]
    refine .inl ⟨active_elim hk (connecting_active s) (fun h => waiting_active s ?_)
      (fun h => ?_) (leased_active s), le_rfl⟩
    · exact hfirst ▸ List.mem_cons_of_mem _ h
    · rcases List.mem_cons.mp h with rfl | h
      · exact waiting_active s (hfirst ▸ List.mem_cons_self)
      · exact handed_active s h
  | buffered _ _ _ _ nobody' =>
    refine .inl ⟨active_elim hk (connecting_active s) (fun h => ?_) (handed_active s)
      (leased_active s), le_rfl⟩
    rw [nobody'] at h
    cases h
  | statement | commitFailed | dropped | parked => exact .inl ⟨hk, le_rfl⟩
  | shutdown =>
    refine .inl ⟨active_elim hk (connecting_active s) (fun h => ?_) (handed_active s)
      (leased_active s), le_rfl⟩
    cases h

namespace Watched

/-- Until a trip's `open_duration` is over the breaker is Open at least that long, and what
is in progress was admitted before the trip. -/
structure Guarded (w : Watched ε) : Prop where
  drawn : ∀ k ∈ w.pool.active, k < w.pool.tickets
  past : ∀ p ∈ w.trips, p.time ≤ w.clock
  shut : ∀ p ∈ w.trips, w.clock < p.time + w.pool.breaker.open_duration →
    w.pool.breaker.state = .Open ∧
      p.time + w.pool.breaker.open_duration ≤ w.pool.breaker.open_until ∧
      ∀ k ∈ w.pool.active, k < p.tickets

theorem guarded_start (size : ℕ) (now : ℤ) : Guarded (start ε size now) := by
  constructor
  · simp [start, init, active, Channel.empty]
  · simp [start]
  · simp [start]

/-- The guard refuses every acquire that comes too early. -/
theorem Guarded.refused {w : Watched ε} (hg : w.Guarded) {p : Trip} (hp : p ∈ w.trips)
    {now : ℤ} (hc : w.clock ≤ now) (hn : now < p.time + w.pool.breaker.open_duration) :
    w.pool.breaker.allow now = (false, w.pool.breaker) := by
  obtain ⟨hs, hu, _⟩ := hg.shut p hp (hc.trans_lt hn)
  exact CircuitBreaker.allow_open hs (hn.trans_le hu)

theorem step_eq {w u : Watched ε} {e : Event ε} (h : w.step e = some u) :
    ∃ t, PoolModel.step w.pool e = some t ∧ u = w.note e t := by
  obtain ⟨t, ht, rfl⟩ := Option.map_eq_some_iff.mp h
  exact ⟨t, ht, rfl⟩

theorem mem_note_trips {w : Watched ε} {e : Event ε} {t : State ε} {p : Trip}
    (h : p ∈ (w.note e t).trips) :
    p ∈ w.trips ∨ (p = ⟨(w.note e t).clock, w.pool.tickets⟩ ∧
      w.pool.breaker.state = .Closed ∧ t.breaker.state = .Open) := by
  unfold note at h
  dsimp only at h
  split at h
  · rename_i htrip
    rcases List.mem_cons.mp h with rfl | h
    · exact .inr ⟨rfl, htrip⟩
    · exact .inl h
  · exact .inl h

theorem Steady.clock_le {w : Watched ε} {e : Event ε} (h : w.Steady e) (t : State ε) :
    w.clock ≤ (w.note e t).clock := by
  show w.clock ≤ e.reading.getD w.clock
  cases hr : e.reading with
  | none => exact le_rfl
  | some now => exact h now hr

theorem told_open_duration {s : State ε} {e : Event ε} {b : CircuitBreaker} (h : Told s e b) :
    b.open_duration = s.breaker.open_duration := by
  cases h with
  | nothing _ same => rw [same]
  | asked _ answer => rw [answer, CircuitBreaker.allow_open_duration]
  | succeeded _ _ report => rw [report]; rfl
  | failed _ _ report => rw [report, (CircuitBreaker.on_failure_cases _ _).1]

/-- A trip starts its own guard: everything in progress has a smaller ticket. -/
theorem Guarded.tripped {w : Watched ε} {e : Event ε} {t : State ε} (hg : w.Guarded)
    (h : Step w.pool e t) (hc : w.pool.breaker.state = .Closed) (ho : t.breaker.state = .Open) :
    (w.note e t).clock + t.breaker.open_duration ≤ t.breaker.open_until ∧
      ∀ k ∈ t.active, k < w.pool.tickets := by
  have hallow : ∀ now, w.pool.breaker.allow now = (true, w.pool.breaker) := by
    intro now
    simp [CircuitBreaker.allow, hc]
  cases h.told with
  | nothing _ same =>
    rw [same, hc] at ho
    cases ho
  | asked _ answer =>
    rw [answer, hallow, hc] at ho
    cases ho
  | succeeded _ _ report =>
    rw [report] at ho
    cases ho
  | @failed now _ reading report =>
    obtain ⟨hd, ⟨_, hu⟩ | ⟨hs, _⟩⟩ := w.pool.breaker.on_failure_cases now
    · have hclock : (w.note e t).clock = now := by simp [note, reading]
      refine ⟨by rw [hclock, report, hd, hu], fun k hk => ?_⟩
      rcases h.active_cases hk with ⟨hk, _⟩ | ⟨_, _, _, _, _, hb, _⟩
      · exact hg.drawn k hk
      · rw [hb, hallow, hc] at ho
        cases ho
    · rw [report, hs, hc] at ho
      cases ho

theorem Guarded.shut_step {w : Watched ε} {e : Event ε} {t : State ε} (hg : w.Guarded)
    (hs : w.Steady e) (hf : ¬ w.Stale e) (h : Step w.pool e t) {p : Trip} (hp : p ∈ w.trips)
    (hn : (w.note e t).clock < p.time + t.breaker.open_duration) :
    t.breaker.state = .Open ∧ p.time + t.breaker.open_duration ≤ t.breaker.open_until ∧
      ∀ k ∈ t.active, k < p.tickets := by
  rw [told_open_duration h.told] at hn ⊢
  have hclock := hs.clock_le t
  obtain ⟨hopen, huntil, hold⟩ := hg.shut p hp (by omega)
  have hactive : ∀ k ∈ t.active, k < p.tickets := by
    intro k hk
    rcases h.active_cases hk with ⟨hk, _⟩ | ⟨_, _, now, rfl, ha, _⟩
    · exact hold k hk
    · rw [hg.refused hp (hs now rfl) hn] at ha
      cases ha
  cases h.told with
  | nothing _ same => exact ⟨same ▸ hopen, same ▸ huntil, hactive⟩
  | @asked _ now event answer =>
    subst event
    rw [hg.refused hp (hs now rfl) hn] at answer
    exact ⟨answer ▸ hopen, answer ▸ huntil, hactive⟩
  | @succeeded k success running =>
    -- whoever reports success this early was admitted before the trip
    refine absurd ⟨?_, p, hp, k, success, hold k running⟩ hf
    rw [hopen]
    decide
  | @failed now _ reading report =>
    have hp' := hg.past p hp
    have hnow := hs now reading
    rw [report]
    rcases (w.pool.breaker.on_failure_cases now).2 with ⟨ho, hu⟩ | ⟨ho, hu⟩
    · exact ⟨ho, by omega, hactive⟩
    · exact ⟨ho.trans hopen, hu ▸ huntil, hactive⟩

theorem Guarded.step {w u : Watched ε} {e : Event ε} (hg : w.Guarded) (hs : w.Steady e)
    (hf : ¬ w.Stale e) (h : w.step e = some u) : u.Guarded := by
  obtain ⟨t, ht, rfl⟩ := step_eq h
  have hstep := step_of ht
  refine ⟨fun k hk => ?_, fun p hp => ?_, fun p hp hn => ?_⟩
  · rcases hstep.active_cases hk with ⟨hk, hle⟩ | ⟨rfl, _, _, _, _, _, hsucc⟩
    · exact (hg.drawn k hk).trans_le hle
    · exact hsucc ▸ Nat.lt_succ_self _
  · rcases mem_note_trips hp with hp | ⟨rfl, _⟩
    · exact (hg.past p hp).trans (hs.clock_le t)
    · exact le_rfl
  · rcases mem_note_trips hp with hp | ⟨rfl, hc, ho⟩
    · exact hg.shut_step hs hf hstep hp hn
    · exact ⟨ho, hg.tripped hstep hc ho⟩

theorem Guarded.honours {w : Watched ε} {e : Event ε} (hg : w.Guarded) (hs : w.Steady e)
    (hf : ¬ w.Stale e) : w.Honours e := by
  constructor
  · rintro p hp holder now rfl hn
    rw [hg.refused hp (hs now rfl) hn]
  · intro hne t ht hclosed
    cases (step_of ht).told with
    | nothing _ same => exact absurd (same ▸ hclosed) hne
    | @asked _ now _ answer =>
      rw [answer] at hclosed
      rcases w.pool.breaker.allow_cases now with ⟨hc, _⟩ | ⟨_, hb⟩ | ⟨_, hh, _⟩
      · exact absurd hc hne
      · exact absurd (hb ▸ hclosed) hne
      · rw [hh] at hclosed
        cases hclosed
    | @succeeded k success =>
      refine ⟨k, success, fun p hp => Nat.le_of_not_lt fun hlt => ?_⟩
      exact hf ⟨hne, p, hp, k, success, hlt⟩
    | @failed now _ _ report =>
      rw [report] at hclosed
      rcases (w.pool.breaker.on_failure_cases now).2 with ⟨ho, _⟩ | ⟨ho, _⟩
      · rw [ho] at hclosed
        cases hclosed
      · exact absurd (ho ▸ hclosed) hne

/-- A stale success does close the breaker. -/
theorem Honours.fresh {w u : Watched ε} {e : Event ε} (hh : w.Honours e)
    (h : w.step e = some u) : ¬ w.Stale e := by
  rintro ⟨hne, p, hp, k, hk, hlt⟩
  obtain ⟨t, ht, rfl⟩ := step_eq h
  have hclosed : t.breaker.state = .Closed := by
    cases (step_of ht).told with
    | nothing silent | failed silent =>
      rw [silent] at hk
      cases hk
    | asked event =>
      subst event
      cases hk
    | succeeded _ _ report => exact report ▸ rfl
  obtain ⟨k', hk', hle⟩ := hh.reopens hne t ht hclosed
  have hkk : k = k' := Option.some.inj (hk.symm.trans hk')
  have := hle p hp
  omega

/-- A run honours its trips exactly when no operation admitted before a trip succeeds while
the breaker is Open or HalfOpen. -/
theorem trips_honoured_iff (size : ℕ) (now : ℤ) (es : List (Event ε)) (w : Watched ε) :
    Runs step (fun w e => w.Steady e ∧ w.Honours e) (start ε size now) es w ↔
      Runs step (fun w e => w.Steady e ∧ ¬ w.Stale e) (start ε size now) es w := by
  constructor
  · intro h
    refine h.mono fun w e u hok hstep => ?_
    exact ⟨hok.1, hok.2.fresh hstep⟩
  · intro h
    refine h.consequence (guarded_start size now) ?_ ?_
    · intro w e u hg hok hstep
      exact hg.step hok.1 hok.2 hstep
    · intro w e u hg hok _
      exact ⟨hok.1, hg.honours hok.1 hok.2⟩

/-- Ticket 0 is running a query while five connects fail and open the breaker. -/
def overtaken : List (Event ℕ) :=
  List.replicate 6 (.acquire .query 0) ++
    [.connected ⟨0, .query, 0⟩ .reached 0, .connected ⟨1, .query, 1⟩ .unreachable 0,
      .connected ⟨2, .query, 2⟩ .unreachable 0, .connected ⟨3, .query, 3⟩ .unreachable 0,
      .connected ⟨4, .query, 4⟩ .unreachable 0, .connected ⟨5, .query, 5⟩ .unreachable 0]

/-- The query of ticket 0 succeeds a moment after the trip. -/
def overtaking : Event ℕ :=
  .queried ⟨0, .query, 0⟩ ⟨"SELECT".toList, .data []⟩ [] .completed 1

/-- Its success closes the breaker again, and an acquire passes long before the three seconds
are over. -/
theorem stale_success_reopens :
    ∃ w u : Watched ℕ,
      Runs step (fun w e => e.ofQuery ∧ w.Steady e) (start ℕ 1 0) overtaken w ∧
      w.trips = [⟨0, 6⟩] ∧ w.Steady overtaking ∧ w.step overtaking = some u ∧
      w.pool.success overtaking = some 0 ∧ ¬ w.Honours overtaking ∧
      u.Steady (.acquire .query 2) ∧ ¬ u.Honours (.acquire .query 2) := by
  obtain ⟨w, hw, hn⟩ := Option.map_eq_some_iff.mp (show (run
    (guarded step fun w e => e.ofQuery ∧ w.Steady e) (start ℕ 1 0) overtaken).map (fun w =>
      (w.trips, w.clock, w.pool.breaker.state, w.pool.success overtaking)) =
      some ([⟨0, 6⟩], 0, .Open, some 0) by decide +kernel)
  simp only [Prod.mk.injEq] at hn
  obtain ⟨htrips, hclock, hopen, hsucc⟩ := hn
  have hnext : ((run (guarded step fun w e => e.ofQuery ∧ w.Steady e) (start ℕ 1 0)
      overtaken).bind fun w => (w.step overtaking).map fun u =>
        (u.trips, u.clock, u.pool.breaker)) =
      some ([⟨0, 6⟩], 1, { open_until := 3000000000 }) := by
    decide +kernel
  rw [hw] at hnext
  obtain ⟨u, hu, hun⟩ := Option.map_eq_some_iff.mp hnext
  simp only [Prod.mk.injEq] at hun
  obtain ⟨hutrips, huclock, hub⟩ := hun
  have hw_steady : w.Steady overtaking := by
    rintro now ⟨⟩
    rw [hclock]
    decide
  have hu_steady : u.Steady (.acquire .query 2) := by
    rintro now ⟨⟩
    rw [huclock]
    decide
  refine ⟨w, u, runs_of_guarded hw, htrips, hw_steady, hu, hsucc, fun hh => ?_, hu_steady,
    fun hh => ?_⟩
  · refine hh.fresh hu ⟨?_, ⟨0, 6⟩, by simp [htrips], 0, hsucc, by decide⟩
    rw [hopen]
    decide
  · have hrefused := hh.refuses ⟨0, 6⟩ (by simp [hutrips]) .query 2 rfl (by rw [hub]; decide)
    rw [hub] at hrefused
    cases hrefused

end Watched
end AdequateApi.PoolModel
