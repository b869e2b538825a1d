import AdequateApi.PoolReuse

/-! What `shutdown` leaves. Leases that are out, connects in progress and closures on their
way all find `stopping_` set, and drop their connection. What the channel has buffered, only
an acquire could take out, and no acquire gets that far any more. -/
namespace AdequateApi.PoolModel
open ChannelQueue DbConnection DbTransaction PoolBreaker TransitionRuns StdString State

variable {ε : Type}

/-- The step drops no lease without calling its release. -/
def KeepsLeases (s : State ε) : Event ε → Prop
  | .abandon _ => False
  | .begun ℓ a => (Transaction.begin (s.heap ℓ.conn) s.db a).result.isOk
  | _ => True

instance (s : State ε) : DecidablePred (KeepsLeases s)
  | .abandon _ => .isFalse id
  | .begun ℓ a =>
      inferInstanceAs (Decidable ((Transaction.begin (s.heap ℓ.conn) s.db a).result.isOk = true))
  | .acquire .. | .connected .. | .received .. | .queried .. | .statement .. | .commit ..
  | .rollback .. | .release .. | .released .. | .shutdown => .isTrue trivial

/-- The pool holds nothing and counts nothing. -/
structure Drained (s : State ε) : Prop where
  idle : s.idle = []
  buffer : s.channel.buffer = []
  total : s.created_at = 0
  refuses : ∀ holder now, ∃ what, (s.make_or_wait holder now).1 = .error what

/-- After `shutdown` found `left` in the buffer: `created_at_` counts only connections whose
release is still to come. -/
structure Stopped (left : List ConnId) (s : State ε) : Prop where
  stopping : s.stopping = true
  idle : s.idle = []
  buffer : s.channel.buffer = left
  total : s.created_at ≤ s.leased.length + s.releasing.length

variable {s t : State ε} {e : Event ε} {left : List ConnId}

theorem stopped_shutdown (s : State ε) : Stopped s.channel.buffer s.shutdown :=
  ⟨rfl, rfl, rfl, Nat.zero_le _⟩

theorem Stopped.step (hp : Stopped left s) (hk : KeepsLeases s e) (h : Step s e t) :
    Stopped left t := by
  obtain ⟨hs, hi, hb, ht⟩ := hp
  have late : s.stopping ≠ false := by simp [hs]
  have erased : ∀ {ℓ : Lease}, ℓ ∈ s.leased → (s.leased.erase ℓ).length + 1 = s.leased.length := by
    intro ℓ hm
    have := List.length_pos_of_mem hm
    rw [List.length_erase_of_mem hm]
    omega
  cases h with
  | turnedAway => exact ⟨hs, hi, hb, ht⟩
  | circuitOpen running | channelClosed running => exact absurd running late
  | reuse _ running | dial _ running | take _ running | wait _ running =>
    exact absurd running late
  | delivered _ running | buffered _ running | parked _ running => exact absurd running late
  | dialed =>
    refine ⟨hs, hi, hb, ?_⟩
    simp only [store, List.length_cons]
    omega
  | dialFailed => exact ⟨hs, hi, hb, ht⟩
  | received =>
    refine ⟨hs, hi, hb, ?_⟩
    simp only [List.length_cons]
    omega
  | queried mem | ended mem | release mem =>
    refine ⟨hs, hi, hb, ?_⟩
    have := erased mem
    simp only [store, List.length_cons]
    omega
  | begun mem =>
    refine ⟨hs, hi, hb, ?_⟩
    have := erased mem
    simp only [store, List.length_cons]
    omega
  | beginFailed _ _ r call failure =>
    simp [KeepsLeases, call, failure, Except.isOk, Except.toBool] at hk
  | statement => exact ⟨hs, hi, hb, ht⟩
  | commitFailed => exact ⟨hs, hi, hb, ht⟩
  | abandon => exact hk.elim
  | dropped mem =>
    refine ⟨hs, hi, hb, ?_⟩
    have := List.length_pos_of_mem mem
    simp only [destroy, List.length_erase_of_mem mem]
    omega
  | shutdown => exact ⟨rfl, rfl, hb, Nat.zero_le _⟩

theorem Stopped.refuses (hp : Stopped left s) (holder : Holder) (now : ℤ) :
    (s.make_or_wait holder now).1 = .error "PgPool is shutting down".toList := by
  simp [make_or_wait, hp.stopping]

/-- Once every lease has been released after a shutdown, the pool is drained if and only if
the channel had nothing buffered when `shutdown` ran. -/
theorem shutdown_drains_iff {s₀ : State ε} {es : List (Event ε)}
    (h : Runs step KeepsLeases s₀.shutdown es s) (out : s.leased = []) (back : s.releasing = []) :
    Drained s ↔ s₀.channel.buffer = [] := by
  have hp : Stopped s₀.channel.buffer s := h.invariant (stopped_shutdown s₀)
    fun _ _ _ hp hk hs => hp.step hk (step_of hs)
  constructor
  · intro hd
    rw [← hp.buffer]
    exact hd.buffer
  · intro hb
    have total := hp.total
    simp only [out, back, List.length_nil, Nat.add_zero, Nat.le_zero] at total
    exact ⟨hp.idle, hp.buffer.trans hb, total, fun holder now => ⟨_, hp.refuses holder now⟩⟩

/-- One query has connected and one is connecting when `shutdown` runs; both end later. -/
def lateReleases : List (Event ℕ) :=
  [.queried ⟨0, .query, 0⟩ ⟨"INSERT".toList, .data [7]⟩ [] .completed 0,
    .connected ⟨1, .query, 1⟩ .reached 0, .released 0,
    .queried ⟨1, .query, 1⟩ ⟨"INSERT".toList, .data [8]⟩ [] .completed 0, .released 1]

theorem shutdown_drains_iff_lateReleases :
    ∃ s₀ s, Runs step (fun _ _ => True) (init ℕ 2)
        [.acquire .query 0, .acquire .query 0, .connected ⟨0, .query, 0⟩ .reached 0] s₀ ∧
      Runs step KeepsLeases s₀.shutdown lateReleases s ∧ Drained s := by
  obtain ⟨s₀, hs₀, hn⟩ := Option.bind_eq_some_iff.mp (show (run
    (guarded step fun _ _ => True) (init ℕ 2)
      [.acquire .query 0, .acquire .query 0, .connected ⟨0, .query, 0⟩ .reached 0]).bind
      (fun s₀ => (run (guarded step KeepsLeases) s₀.shutdown lateReleases).map fun s =>
        (s.leased, s.releasing, s₀.channel.buffer)) = some ([], [], []) by decide +kernel)
  obtain ⟨s, hs, hd⟩ := Option.map_eq_some_iff.mp hn
  simp only [Prod.mk.injEq] at hd
  obtain ⟨out, back, hbuf⟩ := hd
  have hruns := runs_of_guarded hs
  exact ⟨s₀, s, runs_of_guarded hs₀, hruns, (shutdown_drains_iff hruns out back).mpr hbuf⟩

/-- The query has ended and its connection is buffered: `shutdown` leaves it there. -/
theorem shutdown_leaves_buffered :
    ∃ s₀, Runs step (fun _ e => e.ofQuery) (init ℕ 2) oneQuery s₀ ∧
      Runs step KeepsLeases s₀.shutdown [] s₀.shutdown ∧
      s₀.shutdown.leased = [] ∧ s₀.shutdown.releasing = [] ∧
      s₀.shutdown.created_at = 0 ∧ s₀.shutdown.existing = [0] ∧ ¬ Drained s₀.shutdown := by
  obtain ⟨s₀, hs₀, hn⟩ := Option.map_eq_some_iff.mp (show (run
    (guarded step fun _ e => e.ofQuery) (init ℕ 2) oneQuery).map (fun s₀ =>
      (s₀.channel.buffer, s₀.leased, s₀.releasing, s₀.shutdown.existing)) =
        some ([0], [], [], [0]) by decide +kernel)
  simp only [Prod.mk.injEq] at hn
  obtain ⟨hbuf, out, back, hex⟩ := hn
  refine ⟨s₀, runs_of_guarded hs₀, .start, out, back, rfl, hex, fun hd => ?_⟩
  have := hd.buffer
  simp [State.shutdown, hbuf] at this

end AdequateApi.PoolModel
