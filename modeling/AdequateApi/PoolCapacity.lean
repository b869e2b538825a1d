import AdequateApi.PoolOwnership

/-! How many connections the pool can have. `created_at_` counts a connection when its
connect has completed, so two acquires may both see room for the last one. -/
namespace AdequateApi.PoolModel
open ChannelQueue DbConnection DbTransaction PoolBreaker TransitionRuns StdString State

variable {ε : Type}

/-- An acquire that starts a connect finds room for it beside the connects in progress. -/
def DialsWithinCapacity (s : State ε) : Event ε → Prop
  | .acquire _ now =>
      s.stopping = false → (s.breaker.allow now).1 = true → s.idle = [] →
        s.created_at < s.size → s.created_at + s.connecting.length < s.size
  | _ => True

instance (s : State ε) : DecidablePred (DialsWithinCapacity s)
  | .acquire _ now => inferInstanceAs (Decidable (s.stopping = false →
      (s.breaker.allow now).1 = true → s.idle = [] →
        s.created_at < s.size → s.created_at + s.connecting.length < s.size))
  | .connected .. | .received .. | .queried .. | .begun .. | .statement .. | .commit ..
  | .rollback .. | .abandon .. | .release .. | .released .. | .shutdown => .isTrue trivial

/-- `created_at_` and the connects in progress fit together, and until shutdown
`created_at_` covers every connected object. -/
structure WithinCapacity (size : ℕ) (s : State ε) : Prop where
  fixed : s.size = size
  reserved : s.created_at + s.connecting.length ≤ size
  live : s.live.length ≤ size
  counted : s.stopping = false → s.held.length ≤ s.created_at

theorem withinCapacity_init (size : ℕ) : WithinCapacity size (init ε size) := by
  constructor <;> simp [State.init, State.live, State.held]

theorem length_live (s : State ε) : s.live.length = s.connecting.length + s.held.length := by
  simp [State.live]

theorem WithinCapacity.step {size : ℕ} {s t : State ε} {e : Event ε}
    (hw : WithinCapacity size s) (hd : DialsWithinCapacity s e) (h : Step s e t) :
    WithinCapacity size t := by
  obtain ⟨hsize, hres, hlive, hcount⟩ := hw
  have hcount' : t.stopping = false → s.held.length ≤ s.created_at :=
    fun hr => hcount (h.running hr)
  rw [length_live] at hlive
  cases h.moved with
  | kept hh _ ht hc =>
    have hlen := hh.length_eq
    refine ⟨h.size.trans hsize, by rw [ht, hc]; exact hres, ?_, fun hr => ?_⟩
    · rw [length_live, hc, hlen]
      exact hlive
    · rw [hlen, ht]
      exact hcount' hr
  | dialling event hrun ha hidle hroom hh _ ht hc =>
    subst event
    have hfits := hd hrun ha hidle hroom
    have hheld := hcount hrun
    have hdial : t.connecting.length = s.connecting.length + 1 := by rw [hc, List.length_cons]
    refine ⟨h.size.trans hsize, by omega, ?_, fun _ => by rw [hh, ht]; exact hheld⟩
    rw [length_live, hh]
    omega
  | connected hm hh _ ht hc =>
    have hlen := hh.length_eq
    have hpos := List.length_pos_of_mem hm
    have hdial := congrArg List.length hc
    rw [List.length_erase_of_mem hm] at hdial
    rw [List.length_cons] at hlen
    refine ⟨h.size.trans hsize, by omega, by rw [length_live]; omega, fun hr => ?_⟩
    have := hcount' hr
    omega
  | unreachable hm hh _ ht hc =>
    have hdial := congrArg List.length hc
    rw [List.length_erase_of_mem hm] at hdial
    refine ⟨h.size.trans hsize, by omega, by rw [length_live, hh]; omega, fun hr => ?_⟩
    rw [hh, ht]
    exact hcount' hr
  | dropped _ hm hh _ ht hc =>
    have hlen := hh.length_eq
    rw [List.length_cons] at hlen
    refine ⟨h.size.trans hsize, by rw [hc]; omega, by rw [length_live, hc]; omega, fun hr => ?_⟩
    have := hcount' hr
    omega
  | abandoned _ hm hh _ ht hc =>
    have hlen := hh.length_eq
    rw [List.length_cons] at hlen
    refine ⟨h.size.trans hsize, by rw [ht, hc]; exact hres, by rw [length_live, hc]; omega, ?_⟩
    intro hr
    have := hcount' hr
    omega
  | shutdown _ hs =>
    have hlen := (held_shutdown s).length_le
    have hdial : t.connecting = s.connecting := by rw [hs]; rfl
    have hzero : t.created_at = 0 := by rw [hs]; rfl
    refine ⟨h.size.trans hsize, by rw [hdial]; omega, by rw [length_live, hdial, hs]; omega, ?_⟩
    intro hr
    rw [hs] at hr
    cases hr

/-- As long as no connect is started beyond the capacity, the pool stays within it. -/
theorem live_within_capacity {size : ℕ} {es : List (Event ε)} {s : State ε}
    (h : Runs step DialsWithinCapacity (init ε size) es s) :
    s.live.length ≤ size ∧ s.created_at ≤ size := by
  have hw : WithinCapacity size s :=
    h.invariant (withinCapacity_init size) fun _ _ _ hw hd hs => hw.step hd (step_of hs)
  exact ⟨hw.live, (Nat.le_add_right _ _).trans hw.reserved⟩

theorem live_within_capacity_twoQueries :
    ∃ s, Runs step DialsWithinCapacity (init ℕ 1) twoQueries s ∧ s.held = [0] ∧
      s.live.length ≤ 1 ∧ s.created_at ≤ 1 := by
  obtain ⟨s, hs, hl⟩ := Option.map_eq_some_iff.mp (show (run (guarded step DialsWithinCapacity)
    (init ℕ 1) twoQueries).map (·.held) = some [0] by decide +kernel)
  have hruns := runs_of_guarded hs
  exact ⟨s, hruns, hl, live_within_capacity hruns⟩

/-- Two queries that start on an empty pool of one, each before the other has connected. -/
def raceForLast : List (Event ℕ) :=
  [.acquire .query 0, .acquire .query 0, .connected ⟨0, .query, 0⟩ .reached 0,
    .connected ⟨1, .query, 1⟩ .reached 0]

theorem capacity_exceeded :
    ∃ s, Runs step (fun _ _ => True) (init ℕ 1) raceForLast s ∧
      ¬ s.live.length ≤ 1 ∧ ¬ s.created_at ≤ 1 := by
  obtain ⟨s, hs, hn⟩ := Option.map_eq_some_iff.mp (show (run (guarded step fun _ _ => True)
    (init ℕ 1) raceForLast).map (fun s => (s.live.length, s.created_at)) = some (2, 2)
    by decide +kernel)
  obtain ⟨hl, hc⟩ := Prod.mk.inj hn
  exact ⟨s, runs_of_guarded hs, by omega, by omega⟩

/-! ### A BEGIN that fails -/

/-- The pool has the connection `c` back, or it has let it go and counts one less. -/
def Restored (s t : State ε) (c : ConnId) : Prop :=
  c ∈ t.held ∨ (c ∉ t.live ∧ t.created_at + 1 = s.created_at)

/-- How many connections can be lent at once: those the pool has, and those it may open. After
`shutdown`, which sets `created_at_` to 0, there are none. -/
def lendable (s : State ε) : ℕ :=
  if s.stopping then 0 else s.held.length + (s.size - s.created_at)

theorem Owned.notMem_of_perm {s : State ε} (ho : Owned s) {c : ConnId} {l : List ConnId}
    (h : s.held.Perm (c :: l)) : c ∉ l := by
  have hnodup := h.nodup_iff.mp ho.held_nodup
  exact (List.nodup_cons.mp hnodup).1

/-- The lease goes out of scope, and `created_at_` stays as it is. -/
theorem finish_begin_failed {s : State ε} {ℓ : Lease} {a : ExecAnswers} {err : PgError}
    (hm : ℓ ∈ s.leased)
    (failure : (Transaction.begin (s.heap ℓ.conn) s.db a).result = .error err) :
    s.held.Perm (ℓ.conn :: (s.finish_begin ℓ a).held) ∧
      (s.finish_begin ℓ a).created_at = s.created_at ∧ (s.finish_begin ℓ a).size = s.size ∧
      (s.finish_begin ℓ a).stopping = s.stopping := by
  simp only [finish_begin, failure]
  refine ⟨List.perm_iff_count.mpr fun c => ?_, rfl, rfl, rfl⟩
  simp only [held, store, destroy, List.count_append, List.count_cons, beq_iff_eq,
    count_map_erase hm]
  omega

/-- Whenever BEGIN fails the pool loses the connection and goes on counting it. Only a pool that
is shut down loses nothing by that, because it lends nothing any more. -/
theorem failed_begin_leaks {size : ℕ} {es : List (Event ε)} {s t : State ε} {ℓ : Lease}
    {a : ExecAnswers} {err : PgError} (h : Runs step (fun _ _ => True) (init ε size) es s)
    (hs : step s (.begun ℓ a) = some t)
    (failure : (Transaction.begin (s.heap ℓ.conn) s.db a).result = .error err) :
    ¬ Restored s t ℓ.conn ∧ t.held.length + 1 = s.held.length ∧
      t.created_at = s.created_at ∧ (lendable t < lendable s ↔ s.stopping = false) := by
  simp only [step, Option.ite_none_right_eq_some, Option.some.injEq] at hs
  obtain ⟨⟨hm, _⟩, rfl⟩ := hs
  obtain ⟨hperm, htotal, hsize, hstopping⟩ := finish_begin_failed hm failure
  have hheld : (s.finish_begin ℓ a).held.length + 1 = s.held.length := by
    rw [hperm.length_eq, List.length_cons]
  refine ⟨?_, hheld, htotal, ?_⟩
  · rintro (back | ⟨_, fewer⟩)
    · exact (owned_of_runs h).notMem_of_perm hperm back
    · omega
  · unfold lendable
    rw [hstopping, hsize, htotal]
    cases s.stopping with
    | true => simp
    | false =>
      simp only [Bool.false_eq_true, if_false, iff_true]
      omega

/-- A transaction starts on a pool of one. -/
def oneOpening : List (Event ℕ) :=
  [.acquire .opening 0, .connected ⟨0, .opening, 0⟩ .reached 0]

/-- The server rejects BEGIN. -/
theorem failed_begin_leaks_rejected :
    ∃ s t, Runs step (fun _ _ => True) (init ℕ 1) oneOpening s ∧
      step s (.begun ⟨0, .opening, 0⟩ .rejected) = some t ∧ ¬ Restored s t 0 := by
  obtain ⟨s, hs, hn⟩ := Option.map_eq_some_iff.mp (show (run (guarded step fun _ _ => True)
    (init ℕ 1) oneOpening).map (fun s =>
      (s.leased, (Transaction.begin (s.heap 0) s.db .rejected).result)) =
        some ([⟨0, .opening, 0⟩], .error (.db .UniqueViolation "duplicate key".toList))
    by decide +kernel)
  obtain ⟨hl, failure⟩ := Prod.mk.inj hn
  have hruns := runs_of_guarded hs
  have enabled : step s (.begun ⟨0, .opening, 0⟩ .rejected) =
      some (s.finish_begin ⟨0, .opening, 0⟩ .rejected) := by
    simp [step, hl]
  exact ⟨s, _, hruns, enabled, (failed_begin_leaks hruns enabled failure).1⟩

/-- After that no connection is left, `created_at_` is at the pool's size, and the next
acquire waits for a connection that nobody has. -/
theorem failed_begin_blocks :
    ∃ s t u, Runs step (fun _ _ => True) (init ℕ 1) oneOpening s ∧
      step s (.begun ⟨0, .opening, 0⟩ .rejected) = some t ∧
      step t (.acquire .query 0) = some u ∧ ¬ Restored s t 0 ∧
      t.created_at = 1 ∧ t.live = [] ∧ u.channel.waiting = [⟨1, .query⟩] ∧ u.live = [] := by
  obtain ⟨s, hs, hn⟩ := Option.bind_eq_some_iff.mp (show (run (guarded step fun _ _ => True)
    (init ℕ 1) oneOpening).bind (fun s => (step s (.begun ⟨0, .opening, 0⟩ .rejected)).bind
      fun t => (step t (.acquire .query 0)).map fun u =>
        (s.created_at, t.created_at, t.live, u.channel.waiting, u.live)) =
      some (1, 1, [], [⟨1, .query⟩], []) by decide +kernel)
  obtain ⟨t, ht, hn⟩ := Option.bind_eq_some_iff.mp hn
  obtain ⟨u, hu, hn⟩ := Option.map_eq_some_iff.mp hn
  simp only [Prod.mk.injEq] at hn
  obtain ⟨hcs, hct, hlive, hwait, hlive'⟩ := hn
  have hheld : t.held = [] := (List.append_eq_nil_iff.mp hlive).2
  refine ⟨s, t, u, runs_of_guarded hs, ht, hu, ?_, hct, hlive, hwait, hlive'⟩
  simp [Restored, hcs, hct, hheld]

end AdequateApi.PoolModel
