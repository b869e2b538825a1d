import AdequateApi.PoolStep
import Mathlib.Data.List.Nodup

/-! Where connections are: every object is in one place, and `created_at_` counts them. -/
namespace AdequateApi.PoolModel
open ChannelQueue DbConnection DbTransaction PoolBreaker TransitionRuns StdString State

variable {ε : Type}

namespace State

/-- The places of a connected object: leased, on its way back, on its way to a waiter,
buffered in the channel, or parked. -/
def held (s : State ε) : List ConnId :=
  s.leased.map Lease.conn ++ s.releasing ++ s.handed.map Lease.conn ++ s.channel.buffer ++ s.idle

/-- All live connections, those being connected included. -/
def live (s : State ε) : List ConnId := s.connecting.map Lease.conn ++ s.held

theorem mem_held_leased {s : State ε} {ℓ : Lease} (h : ℓ ∈ s.leased) : ℓ.conn ∈ s.held := by
  simp only [held, List.mem_append, List.mem_map]
  exact .inl (.inl (.inl (.inl ⟨ℓ, h, rfl⟩)))

theorem mem_held_releasing {s : State ε} {c : ConnId} (h : c ∈ s.releasing) : c ∈ s.held := by
  simp [held, h]

end State

theorem count_map_erase {ℓ : Lease} {l : List Lease} (h : ℓ ∈ l) (c : ConnId) :
    (l.map Lease.conn).count c =
      ((l.erase ℓ).map Lease.conn).count c + if ℓ.conn = c then 1 else 0 := by
  rw [((List.perm_cons_erase h).map Lease.conn).count_eq, List.map_cons, List.count_cons]
  simp

theorem count_erase_mem {c : ConnId} {l : List ConnId} (h : c ∈ l) (d : ConnId) :
    l.count d = (l.erase c).count d + if c = d then 1 else 0 := by
  rw [(List.perm_cons_erase h).count_eq, List.count_cons]
  simp

/-- What a step does to the set of objects, each constructor with its effect on the counter. -/
inductive Moved (s : State ε) (e : Event ε) (t : State ε) : Prop
  | kept (held : t.held.Perm s.held) (existing : t.existing = s.existing)
      (total : t.created_at = s.created_at) (dialling : t.connecting = s.connecting)
      (next : t.next = s.next)
  | dialling {holder : Holder} {now : ℤ} (event : e = .acquire holder now)
      (running : s.stopping = false) (admitted : (s.breaker.allow now).1 = true)
      (none_idle : s.idle = []) (room : s.created_at < s.size)
      (held : t.held = s.held) (existing : t.existing = s.existing)
      (total : t.created_at = s.created_at)
      (dialling : t.connecting = ⟨s.tickets, holder, s.next⟩ :: s.connecting)
      (next : t.next = s.next + 1)
  | connected {ℓ : Lease} (mem : ℓ ∈ s.connecting) (held : t.held.Perm (ℓ.conn :: s.held))
      (existing : t.existing = ℓ.conn :: s.existing) (total : t.created_at = s.created_at + 1)
      (dialling : t.connecting = s.connecting.erase ℓ) (next : t.next = s.next)
  | unreachable {ℓ : Lease} (mem : ℓ ∈ s.connecting) (held : t.held = s.held)
      (existing : t.existing = s.existing) (total : t.created_at = s.created_at)
      (dialling : t.connecting = s.connecting.erase ℓ) (next : t.next = s.next)
  | dropped {c : ConnId} (event : e = .released c) (mem : c ∈ s.releasing)
      (held : s.held.Perm (c :: t.held)) (existing : t.existing = s.existing.erase c)
      (total : t.created_at = s.created_at - 1) (dialling : t.connecting = s.connecting)
      (next : t.next = s.next)
  | abandoned {ℓ : Lease} (event : e = .abandon ℓ ∨ ∃ a, e = .begun ℓ a) (mem : ℓ ∈ s.leased)
      (held : s.held.Perm (ℓ.conn :: t.held)) (existing : t.existing = s.existing.erase ℓ.conn)
      (total : t.created_at = s.created_at) (dialling : t.connecting = s.connecting)
      (next : t.next = s.next)
  | shutdown (event : e = .shutdown) (state : t = s.shutdown)

theorem Step.moved {s t : State ε} {e : Event ε} (h : Step s e t) : Moved s e t := by
  cases h with
  | turnedAway => exact .kept (.refl _) rfl rfl rfl rfl
  | circuitOpen => exact .kept (.refl _) rfl rfl rfl rfl
  | reuse _ _ _ hidle =>
    refine .kept (List.perm_iff_count.mpr fun c => ?_) rfl rfl rfl rfl
    simp only [held, enter, hidle, List.map_cons, List.count_append, List.count_cons]
    omega
  | dial _ hrun ha hidle hroom => exact .dialling rfl hrun ha hidle hroom rfl rfl rfl rfl rfl
  | take _ _ _ _ _ hb =>
    refine .kept (List.perm_iff_count.mpr fun c => ?_) rfl rfl rfl rfl
    simp only [held, enter, hb, List.map_cons, List.count_append, List.count_cons]
    omega
  | wait _ _ _ _ _ hb hb' =>
    refine .kept (.of_eq ?_) rfl rfl rfl rfl
    simp only [held, enter, hb, hb']
  | channelClosed => exact .kept (.refl _) rfl rfl rfl rfl
  | dialed hm =>
    refine .connected hm (List.perm_iff_count.mpr fun c => ?_) rfl rfl rfl rfl
    simp only [held, store, List.map_cons, List.count_append, List.count_cons]
    omega
  | dialFailed hm => exact .unreachable hm rfl rfl rfl rfl rfl
  | received hm =>
    refine .kept (List.perm_iff_count.mpr fun c => ?_) rfl rfl rfl rfl
    simp only [held, List.map_cons, List.count_append, List.count_cons, beq_iff_eq,
      count_map_erase hm]
    omega
  | queried hm | ended hm | release hm =>
    refine .kept (List.perm_iff_count.mpr fun c => ?_) rfl rfl rfl rfl
    simp only [held, store, List.count_append, List.count_cons, beq_iff_eq, count_map_erase hm]
    omega
  | begun hm =>
    refine .kept (List.perm_iff_count.mpr fun c => ?_) rfl rfl rfl rfl
    simp only [held, store, List.map_cons, List.count_append, List.count_cons, beq_iff_eq,
      count_map_erase hm]
  | beginFailed hm =>
    refine .abandoned (.inr ⟨_, rfl⟩) hm (List.perm_iff_count.mpr fun c => ?_) rfl rfl rfl rfl
    simp only [held, store, destroy, List.count_append, List.count_cons, beq_iff_eq,
      count_map_erase hm]
    omega
  | statement => exact .kept (.refl _) rfl rfl rfl rfl
  | commitFailed => exact .kept (.refl _) rfl rfl rfl rfl
  | abandon hm =>
    refine .abandoned (.inl rfl) hm (List.perm_iff_count.mpr fun c => ?_) rfl rfl rfl rfl
    simp only [held, destroy, List.count_append, List.count_cons, beq_iff_eq, count_map_erase hm]
    omega
  | dropped hm =>
    refine .dropped rfl hm (List.perm_iff_count.mpr fun c => ?_) rfl rfl rfl rfl
    simp only [held, destroy, List.count_append, List.count_cons, beq_iff_eq, count_erase_mem hm]
    omega
  | delivered hm _ _ _ hb hb' =>
    refine .kept (List.perm_iff_count.mpr fun c => ?_) rfl rfl rfl rfl
    simp only [held, hb, hb', List.map_cons, List.count_append, List.count_cons, beq_iff_eq,
      count_erase_mem hm]
    omega
  | buffered hm _ _ _ _ _ hb =>
    refine .kept (List.perm_iff_count.mpr fun c => ?_) rfl rfl rfl rfl
    simp only [held, hb, List.count_append, List.count_cons, List.count_nil, beq_iff_eq,
      count_erase_mem hm]
    omega
  | parked hm =>
    refine .kept (List.perm_iff_count.mpr fun c => ?_) rfl rfl rfl rfl
    simp only [held, List.count_append, List.count_cons, beq_iff_eq, count_erase_mem hm]
    omega
  | shutdown => exact .shutdown rfl rfl

theorem held_shutdown (s : State ε) : s.shutdown.held.Sublist s.held := by
  simp only [held, State.shutdown, Channel.close_buffer]
  exact (List.Sublist.refl _).append (List.nil_sublist _)

/-- A step creates an object only by dialling, and then a new one. -/
theorem Moved.live_count {s t : State ε} {e : Event ε} (h : Moved s e t) :
    (t.next = s.next ∧ ∀ c, t.live.count c ≤ s.live.count c) ∨
      (t.next = s.next + 1 ∧
        ∀ c, t.live.count c = s.live.count c + if s.next = c then 1 else 0) := by
  cases h with
  | kept hh _ _ hd hn =>
    refine .inl ⟨hn, fun c => ?_⟩
    simp only [live, hd, List.count_append, hh.count_eq]
    exact le_rfl
  | dialling _ _ _ _ _ hh _ _ hd hn =>
    refine .inr ⟨hn, fun c => ?_⟩
    simp only [live, hd, hh, List.map_cons, List.count_append, List.count_cons, beq_iff_eq]
    omega
  | connected hm hh _ _ hd hn =>
    refine .inl ⟨hn, fun c => ?_⟩
    simp only [live, hd, List.count_append, hh.count_eq, List.count_cons, beq_iff_eq,
      count_map_erase hm]
    omega
  | unreachable hm hh _ _ hd hn =>
    refine .inl ⟨hn, fun c => ?_⟩
    simp only [live, hd, hh, List.count_append, count_map_erase hm]
    omega
  | dropped _ _ hh _ _ hd hn | abandoned _ _ hh _ _ hd hn =>
    refine .inl ⟨hn, fun c => ?_⟩
    simp only [live, hd, List.count_append, hh.count_eq, List.count_cons]
    omega
  | shutdown _ hs =>
    subst hs
    refine .inl ⟨rfl, fun c => ?_⟩
    simp only [live, List.count_append]
    exact Nat.add_le_add_left ((held_shutdown s).count_le c) _

/-- No object is in two places, and new objects get names not yet in use. -/
structure Owned (s : State ε) : Prop where
  once : ∀ c, s.live.count c ≤ 1
  old : ∀ c ∈ s.live, c < s.next

theorem owned_init (size : ℕ) : Owned (init ε size) := by
  constructor <;> simp [live, held, init]

theorem Owned.step {s t : State ε} {e : Event ε} (ho : Owned s) (h : Step s e t) : Owned t := by
  rcases h.moved.live_count with ⟨hn, hc⟩ | ⟨hn, hc⟩
  · refine ⟨fun c => (hc c).trans (ho.once c), fun c hm => ?_⟩
    rw [hn]
    apply ho.old c
    have := List.count_pos_iff.mpr hm
    exact List.count_pos_iff.mp (this.trans_le (hc c))
  · have hfree : s.live.count s.next = 0 := by
      apply List.count_eq_zero.mpr
      intro hm
      exact absurd (ho.old _ hm) (lt_irrefl _)
    refine ⟨fun c => ?_, fun c hm => ?_⟩
    · rw [hc c]
      split
      · rename_i he
        rw [← he, hfree]
      · simpa using ho.once c
    · rw [hn]
      by_cases he : s.next = c
      · exact he ▸ Nat.lt_succ_self _
      · have hpos := List.count_pos_iff.mpr hm
        rw [hc c, if_neg he] at hpos
        exact Nat.lt_succ_of_lt (ho.old c (List.count_pos_iff.mp hpos))

theorem owned_of_runs {ok : State ε → Event ε → Prop} {size : ℕ} {es : List (Event ε)}
    {s : State ε} (h : Runs step ok (init ε size) es s) : Owned s :=
  h.invariant (owned_init size) fun _ _ _ ho _ hs => ho.step (step_of hs)

theorem Owned.held_nodup {s : State ε} (h : Owned s) : s.held.Nodup := by
  refine List.nodup_iff_count_le_one.mpr fun c => le_trans ?_ (h.once c)
  simp only [live, List.count_append]
  omega

/-! ### Runs of `PgPool::query` -/

/-- The steps of `PgPool::query` calls, and of the closures their leases dispatch. -/
def Event.ofQuery : Event ε → Prop
  | .acquire holder _ => holder = .query
  | .connected .. | .received .. | .queried .. | .released .. => True
  | _ => False

instance : DecidablePred (Event.ofQuery (ε := ε))
  | .acquire holder _ => inferInstanceAs (Decidable (holder = .query))
  | .connected .. | .received .. | .queried .. | .released .. => .isTrue trivial
  | .begun .. | .statement .. | .commit .. | .rollback .. | .abandon .. | .release ..
  | .shutdown => .isFalse id

/-- The objects that exist are the ones held somewhere, and `created_at_` counts them. -/
structure Accounted (s : State ε) : Prop where
  perm : s.existing.Perm s.held
  total : s.created_at = s.existing.length

theorem accounted_init (size : ℕ) : Accounted (init ε size) :=
  ⟨.refl _, rfl⟩

theorem Accounted.step {s t : State ε} {e : Event ε} (ha : Accounted s) (hq : e.ofQuery)
    (h : Moved s e t) : Accounted t := by
  obtain ⟨hp, hn⟩ := ha
  cases h with
  | kept hh he ht => exact ⟨he ▸ hp.trans hh.symm, by rw [ht, hn, he]⟩
  | dialling _ _ _ _ _ hh he ht => exact ⟨by rwa [he, hh], by rw [ht, hn, he]⟩
  | connected _ hh he ht => exact ⟨he ▸ (hp.cons _).trans hh.symm, by rw [ht, hn, he]; rfl⟩
  | unreachable _ hh he ht => exact ⟨by rwa [he, hh], by rw [ht, hn, he]⟩
  | @dropped c _ hm hh he ht =>
    have hmem : c ∈ s.existing := hp.mem_iff.mpr (mem_held_releasing hm)
    refine ⟨?_, by rw [ht, hn, he, List.length_erase_of_mem hmem]⟩
    rw [he]
    have hcons := (hp.trans hh).erase c
    rwa [List.erase_cons_head] at hcons
  | abandoned event =>
    rcases event with rfl | ⟨a, rfl⟩
    · exact hq.elim
    · exact hq.elim
  | shutdown event =>
    subst event
    exact hq.elim

theorem accounted_of_runs {ok : State ε → Event ε → Prop} (hq : ∀ s e, ok s e → e.ofQuery)
    {size : ℕ} {es : List (Event ε)} {s : State ε} (h : Runs step ok (init ε size) es s) :
    Accounted s :=
  h.invariant (accounted_init size) fun _ _ _ ha hok hs =>
    ha.step (hq _ _ hok) (step_of hs).moved

/-- Every existing object is in exactly one place exactly once, whoever holds one holds it
alone, and `created_at_` is their number. -/
theorem queries_own_exclusively {size : ℕ} {es : List (Event ε)} {s : State ε}
    (h : Runs step (fun _ e => e.ofQuery) (init ε size) es s) :
    (∀ c ∈ s.existing, s.held.count c = 1) ∧ (∀ c ∈ s.held, c ∈ s.existing) ∧
      s.existing.Nodup ∧ (s.leased.map Lease.conn).Nodup ∧
      s.created_at = s.existing.length ∧ (s.releasing ≠ [] → 0 < s.created_at) := by
  have hnodup := (owned_of_runs h).held_nodup
  obtain ⟨hperm, htotal⟩ := accounted_of_runs (fun _ _ he => he) h
  refine ⟨fun c hc => ?_, fun c hc => hperm.mem_iff.mpr hc, hperm.nodup_iff.mpr hnodup, ?_,
    htotal, fun hr => ?_⟩
  · exact List.count_eq_one_of_mem hnodup (hperm.mem_iff.mp hc)
  · unfold held at hnodup
    simp only [List.append_assoc] at hnodup
    exact (List.nodup_append.mp hnodup).1
  · obtain ⟨c, hc⟩ := List.exists_mem_of_ne_nil _ hr
    rw [htotal]
    exact List.length_pos_of_mem (hperm.mem_iff.mpr (mem_held_releasing hc))

/-- Two queries on a pool of one: the second waits until the first has released. -/
def twoQueries : List (Event ℕ) :=
  [.acquire .query 0, .connected ⟨0, .query, 0⟩ .reached 0, .acquire .query 0,
    .queried ⟨0, .query, 0⟩ ⟨"INSERT".toList, .data [7]⟩ [] .completed 0, .released 0,
    .received ⟨1, .query, 0⟩]

theorem queries_own_exclusively_twoQueries :
    ∃ s, Runs step (fun _ e => e.ofQuery) (init ℕ 1) twoQueries s ∧
      s.leased = [⟨1, .query, 0⟩] ∧ ∀ c ∈ s.existing, s.held.count c = 1 := by
  obtain ⟨s, hs, hl⟩ := Option.map_eq_some_iff.mp (show (run (guarded step fun _ e => e.ofQuery)
    (init ℕ 1) twoQueries).map (·.leased) = some [⟨1, .query, 0⟩] by decide +kernel)
  have hruns := runs_of_guarded hs
  exact ⟨s, hruns, hl, (queries_own_exclusively hruns).1⟩

end AdequateApi.PoolModel
