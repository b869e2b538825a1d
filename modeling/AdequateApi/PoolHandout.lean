import AdequateApi.PoolOwnership

/-! What state a connection is in when the pool hands it out. Only the holder of a
`Transaction` may leave a connection inside a block or with an unread result, and the pool
gets it back after COMMIT or ROLLBACK alone. -/
namespace AdequateApi.PoolModel
open ChannelQueue DbConnection DbTransaction PoolBreaker TransitionRuns StdString State
open PgConnection

variable {ε : Type}

/-- The holder has run nothing on the connection since `acquire` returned it. -/
def Lease.Untouched (ℓ : Lease) : Prop := ℓ.holder = .query ∨ ℓ.holder = .opening

instance : DecidablePred Lease.Untouched := fun ℓ =>
  inferInstanceAs (Decidable (ℓ.holder = .query ∨ ℓ.holder = .opening))

/-- Queries run no transaction control, and nobody else calls `acquire`. -/
def Event.CleanUse : Event ε → Prop
  | .acquire holder _ => holder ≠ .caller
  | .release _ => False
  | .queried _ sql _ _ _ => sql.command.Plain
  | _ => True

instance : DecidablePred (Event.CleanUse (ε := ε))
  | .acquire holder _ => inferInstanceAs (Decidable (holder ≠ .caller))
  | .release _ => .isFalse id
  | .queried _ sql _ _ _ => inferInstanceAs (Decidable sql.command.Plain)
  | .connected .. | .received .. | .begun .. | .statement .. | .commit .. | .rollback ..
  | .abandon .. | .released .. | .shutdown => .isTrue trivial

namespace State

/-- Connections that were handed out and not used yet, or may be handed out next. -/
def offered (s : State ε) : List ConnId :=
  (s.leased.filter fun ℓ => ℓ.Untouched).map Lease.conn ++ s.releasing ++
    s.handed.map Lease.conn ++ s.channel.buffer ++ s.idle

theorem mem_offered {s : State ε} {c : ConnId} :
    c ∈ s.offered ↔ (∃ ℓ ∈ s.leased, ℓ.Untouched ∧ ℓ.conn = c) ∨ c ∈ s.releasing ∨
      (∃ ℓ ∈ s.handed, ℓ.conn = c) ∨ c ∈ s.channel.buffer ∨ c ∈ s.idle := by
  simp only [offered, List.mem_append, List.mem_map, List.mem_filter, decide_eq_true_eq,
    and_assoc, or_assoc]

end State

/-- Everything offered is fresh; objects being connected are not connected yet. -/
structure Clean (s : State ε) : Prop where
  offered : ∀ c ∈ s.offered, (s.heap c).Fresh
  dialling : ∀ ℓ ∈ s.connecting, (s.heap ℓ.conn).healthy = false

theorem clean_init (size : ℕ) : Clean (init ε size) := by
  constructor
  · intro c hc
    simp [mem_offered, init] at hc
  · intro ℓ hℓ
    cases hℓ

/-- Frame rule for steps that touch no object. -/
theorem Clean.of_heap {s t : State ε} (hc : Clean s) (heap : t.heap = s.heap)
    (off : ∀ c ∈ t.offered, c ∈ s.offered) (dial : t.connecting = s.connecting) : Clean t := by
  constructor
  · intro c hm
    rw [heap]
    exact hc.offered c (off c hm)
  · rw [heap, dial]
    exact hc.dialling

/-- Frame rule for steps that touch the object `d`. -/
theorem Clean.of_update {s t : State ε} (hc : Clean s) {d : ConnId} {k : PgConnection ε}
    (heap : t.heap = Function.update s.heap d k)
    (off : ∀ c ∈ t.offered, c ≠ d → c ∈ s.offered)
    (dial : ∀ ℓ ∈ t.connecting, ℓ.conn ≠ d → ℓ ∈ s.connecting)
    (fresh : d ∈ t.offered → k.Fresh)
    (down : ∀ ℓ ∈ t.connecting, ℓ.conn = d → k.healthy = false) : Clean t := by
  constructor
  · intro c hm
    by_cases he : c = d
    · subst he
      rw [heap, Function.update_self]
      exact fresh hm
    · rw [heap, Function.update_of_ne he]
      exact hc.offered c (off c hm he)
  · intro ℓ hm
    by_cases he : ℓ.conn = d
    · rw [heap, he, Function.update_self]
      exact down ℓ hm he
    · rw [heap, Function.update_of_ne he]
      exact hc.dialling ℓ (dial ℓ hm he)

theorem Owned.connecting_ne {s : State ε} (ho : Owned s) {ℓ : Lease} {c : ConnId}
    (hm : ℓ ∈ s.connecting) (hc : c ∈ s.held) : ℓ.conn ≠ c := by
  rintro rfl
  have hone := ho.once ℓ.conn
  have hdial := List.count_pos_iff.mpr (List.mem_map_of_mem (f := Lease.conn) hm)
  have hheld := List.count_pos_iff.mpr hc
  simp only [live, List.count_append] at hone
  omega

/-- Frame rule for steps on a leased connection: nobody is dialling it. -/
theorem Clean.of_leased {s t : State ε} (hc : Clean s) (ho : Owned s) {ℓ : Lease}
    {k : PgConnection ε} (hm : ℓ ∈ s.leased) (heap : t.heap = Function.update s.heap ℓ.conn k)
    (off : ∀ c ∈ t.offered, c ≠ ℓ.conn → c ∈ s.offered) (dial : t.connecting = s.connecting)
    (fresh : ℓ.conn ∈ t.offered → k.Fresh) : Clean t := by
  refine hc.of_update heap off (fun ℓ' hm' _ => dial ▸ hm') fresh fun ℓ' hm' he => ?_
  rw [dial] at hm'
  exact absurd he (ho.connecting_ne hm' (mem_held_leased hm))

/-- A lease in use is nowhere among the offered. -/
theorem Owned.not_offered {s : State ε} (ho : Owned s) {ℓ : Lease} (hm : ℓ ∈ s.leased)
    (hk : ¬ ℓ.Untouched) : ℓ.conn ∉ s.offered := by
  have hone := ho.once ℓ.conn
  have hsplit := count_map_erase hm ℓ.conn
  have herase : ℓ.conn ∉ (s.leased.erase ℓ).map Lease.conn := by
    intro h
    have := List.count_pos_iff.mpr h
    simp only [live, held, List.count_append, hsplit, if_true] at hone
    omega
  simp only [live, held, List.count_append, hsplit, if_true] at hone
  intro h
  rcases mem_offered.mp h with ⟨ℓ', hm', hu, he⟩ | h | ⟨ℓ', hm', he⟩ | h | h
  · have hne : ℓ' ≠ ℓ := by
      rintro rfl
      exact hk hu
    exact herase (he ▸ List.mem_map_of_mem ((List.mem_erase_of_ne hne).mpr hm'))
  · have := List.count_pos_iff.mpr h
    omega
  · have := List.count_pos_iff.mpr (he ▸ List.mem_map_of_mem (f := Lease.conn) hm')
    omega
  · have := List.count_pos_iff.mpr h
    omega
  · have := List.count_pos_iff.mpr h
    omega

theorem ended_fresh {c : PgConnection ε} {db : List ε} {ℓ : Lease} {e : Event ε} {r : Ended ε}
    (h : (∃ a, e = .commit ℓ a ∧ Transaction.commit c db a = r) ∨
      ∃ a, e = .rollback ℓ a ∧ Transaction.rollback c db a = r) : r.conn.Fresh := by
  rcases h with ⟨a, _, rfl⟩ | ⟨a, _, rfl⟩
  · have hr : Ran c db .commit (c.commit db a) :=
      execParams_ran c db ⟨"COMMIT".toList, .commit⟩ [] a
    have hf := hr.fresh_of_end (.inl rfl)
    unfold Transaction.commit
    dsimp only
    split <;> exact hf
  · have hr : Ran c db .rollback (c.rollback db a) :=
      execParams_ran c db ⟨"ROLLBACK".toList, .rollback⟩ [] a
    exact hr.fresh_of_end (.inr rfl)

theorem Clean.step {s t : State ε} {e : Event ε} (hc : Clean s) (ho : Owned s) (ho' : Owned t)
    (hu : e.CleanUse) (h : Step s e t) : Clean t := by
  cases h with
  | turnedAway => exact hc
  | circuitOpen => exact hc.of_heap rfl (fun _ h => h) rfl
  | channelClosed => exact hc.of_heap rfl (fun _ h => h) rfl
  | reuse _ _ _ hidle =>
    refine hc.of_heap rfl (fun c hm => ?_) rfl
    simp only [mem_offered, enter, hidle, List.mem_cons] at hm ⊢
    grind
  | dial =>
    refine hc.of_update rfl (fun c hm _ => hm) (fun ℓ hm hne => ?_) (fun _ => .inl rfl)
      fun _ _ _ => rfl
    rcases List.mem_cons.mp hm with rfl | hm
    · exact absurd rfl hne
    · exact hm
  | take _ _ _ _ _ hb =>
    refine hc.of_heap rfl (fun c hm => ?_) rfl
    simp only [mem_offered, enter, hb, List.mem_cons] at hm ⊢
    grind
  | wait _ _ _ _ _ hb hb' =>
    refine hc.of_heap rfl (fun c hm => ?_) rfl
    simpa only [mem_offered, enter, hb, hb'] using hm
  | @dialed ℓ a now k hm call =>
    have hk : k = connected := by
      rcases connect_cases _ a (hc.dialling ℓ hm) with h | ⟨_, _, h, _⟩
      · rw [h] at call
        exact (Prod.mk.inj call).2.symm
      · rw [h] at call
        cases (Prod.mk.inj call).1
    refine hc.of_update rfl (fun c hm hne => ?_) (fun _ hm _ => List.mem_of_mem_erase hm)
      (fun _ => hk ▸ fresh_connected) fun ℓ' hm' he => ?_
    · simp only [mem_offered, store, List.mem_cons] at hm ⊢
      grind
    · exact absurd he (ho'.connecting_ne hm' (mem_held_leased List.mem_cons_self))
  | dialFailed =>
    exact hc.of_update rfl (fun _ hm _ => hm) (fun _ hm _ => List.mem_of_mem_erase hm)
      (fun _ => .inl rfl) fun _ _ _ => rfl
  | received hm =>
    refine hc.of_heap rfl (fun c hm' => ?_) rfl
    simp only [mem_offered, List.mem_cons] at hm' ⊢
    grind [List.mem_of_mem_erase]
  | @queried ℓ sql params a now hm kind r call =>
    have hf : (s.heap ℓ.conn).Fresh :=
      hc.offered _ (mem_offered.mpr (.inl ⟨ℓ, hm, .inl kind, rfl⟩))
    have hr : r.conn.Fresh := (call ▸ execParams_ran _ s.db sql params a).fresh_of_plain hf hu
    refine hc.of_leased ho hm rfl (fun c hm' hne => ?_) rfl fun _ => hr
    simp only [mem_offered, store, List.mem_cons] at hm' ⊢
    grind [List.mem_of_mem_erase]
  | @begun ℓ a out hm kind r call success =>
    refine hc.of_leased ho hm rfl (fun c hm' hne => ?_) rfl fun hm' => ?_
    · simp only [mem_offered, store, List.mem_cons] at hm' ⊢
      grind [List.mem_of_mem_erase]
    · refine absurd hm' (ho'.not_offered (ℓ := { ℓ with holder := .transaction })
        List.mem_cons_self ?_)
      simp [Lease.Untouched]
  | @beginFailed ℓ a _ hm kind r call failure =>
    refine hc.of_update (by simp only [store, destroy, Function.update_idem]; rfl)
      (fun c hm' hne => ?_) (fun _ h _ => h) (fun _ => .inl rfl) fun _ _ _ => rfl
    simp only [mem_offered, store, destroy] at hm' ⊢
    grind [List.mem_of_mem_erase]
  | @statement ℓ q hm kind r call =>
    refine hc.of_leased ho hm rfl (fun c hm' hne => hm') rfl fun hm' => ?_
    refine absurd hm' (ho'.not_offered hm ?_)
    rcases kind with hk | hk <;> simp [Lease.Untouched, hk]
  | @ended ℓ e hm kind r call returned =>
    refine hc.of_leased ho hm rfl (fun c hm' hne => ?_) rfl fun _ => ended_fresh call
    simp only [mem_offered, store, List.mem_cons] at hm' ⊢
    grind [List.mem_of_mem_erase]
  | @commitFailed ℓ a hm kind r call threw =>
    exact hc.of_leased ho hm rfl (fun c hm' hne => hm') rfl fun _ =>
      ended_fresh (e := .commit ℓ a) (.inl ⟨a, rfl, call⟩)
  | @abandon ℓ hm =>
    refine hc.of_update rfl (fun c hm' hne => ?_) (fun _ h _ => h) (fun _ => .inl rfl)
      fun _ _ _ => rfl
    simp only [mem_offered, destroy] at hm' ⊢
    grind [List.mem_of_mem_erase]
  | release => exact hu.elim
  | dropped hm =>
    refine hc.of_update rfl (fun c hm' hne => ?_) (fun _ h _ => h) (fun _ => .inl rfl)
      fun _ _ _ => rfl
    simp only [mem_offered, destroy] at hm' ⊢
    grind [List.mem_of_mem_erase]
  | delivered hm _ _ _ hb hb' =>
    refine hc.of_heap rfl (fun c hm' => ?_) rfl
    simp only [mem_offered, hb, hb', List.mem_cons] at hm' ⊢
    grind [List.mem_of_mem_erase]
  | buffered hm _ _ _ _ _ hb =>
    refine hc.of_heap rfl (fun c hm' => ?_) rfl
    simp only [mem_offered, hb, List.mem_append, List.mem_singleton] at hm' ⊢
    grind [List.mem_of_mem_erase]
  | parked hm =>
    refine hc.of_heap rfl (fun c hm' => ?_) rfl
    simp only [mem_offered, List.mem_cons] at hm' ⊢
    grind [List.mem_of_mem_erase]
  | shutdown =>
    constructor
    · intro c hm
      have hm' : c ∈ s.offered := by
        simp only [mem_offered, State.shutdown, Channel.close_buffer, List.not_mem_nil,
          or_false] at hm ⊢
        grind
      simp only [State.shutdown]
      split
      · exact .inl rfl
      · exact hc.offered c hm'
    · intro ℓ hm
      simp only [State.shutdown]
      split
      · rfl
      · exact hc.dialling ℓ hm

theorem clean_of_runs {size : ℕ} {es : List (Event ε)} {s : State ε}
    (h : Runs step (fun _ e => e.CleanUse) (init ε size) es s) : Clean s ∧ Owned s := by
  apply h.invariant
  · exact ⟨clean_init size, owned_init size⟩
  intro s e t ⟨hc, ho⟩ hu hs
  have ho' := ho.step (step_of hs)
  exact ⟨hc.step ho ho' hu (step_of hs), ho'⟩

/-- Until its holder uses it, a connection that `acquire` returned is unhealthy or fresh. -/
theorem handed_out_fresh {size : ℕ} {es : List (Event ε)} {s : State ε} {ℓ : Lease}
    (h : Runs step (fun _ e => e.CleanUse) (init ε size) es s) (hm : ℓ ∈ s.leased)
    (hu : ℓ.Untouched) : (s.heap ℓ.conn).Fresh :=
  (clean_of_runs h).1.offered _ (mem_offered.mpr (.inl ⟨ℓ, hm, hu, rfl⟩))

/-- A transaction that is rolled back, and a query that gets its connection. -/
def rolledBack : List (Event ℕ) :=
  [.acquire .opening 0, .connected ⟨0, .opening, 0⟩ .reached 0, .begun ⟨0, .opening, 0⟩ .completed,
    .statement ⟨0, .transaction, 0⟩
      (.execParams ⟨"INSERT".toList, .data [7]⟩ [] .completed),
    .rollback ⟨0, .transaction, 0⟩ .completed, .released 0, .acquire .query 0,
    .received ⟨1, .query, 0⟩]

theorem handed_out_fresh_rolledBack :
    ∃ s, Runs step (fun _ e => e.CleanUse) (init ℕ 1) rolledBack s ∧
      s.leased = [⟨1, .query, 0⟩] ∧ (s.heap 0).healthy = true ∧ (s.heap 0).Fresh := by
  obtain ⟨s, hs, hn⟩ := Option.map_eq_some_iff.mp (show (run (guarded step fun _ e => e.CleanUse)
    (init ℕ 1) rolledBack).map (fun s => (s.leased, (s.heap 0).healthy)) =
      some ([⟨1, .query, 0⟩], true) by decide +kernel)
  obtain ⟨hl, hh⟩ := Prod.mk.inj hn
  have hruns := runs_of_guarded hs
  exact ⟨s, hruns, hl, hh, handed_out_fresh hruns (ℓ := ⟨1, .query, 0⟩) (by simp [hl]) (.inl rfl)⟩

end AdequateApi.PoolModel
