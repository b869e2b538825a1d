import AdequateApi.PoolOwnership

/-! Whether a suspended acquire can still be woken. Only `release` sends on the channel, and
it drops broken connections without a word to those who wait for them. -/
namespace AdequateApi.PoolModel
open ChannelQueue DbConnection DbTransaction PoolBreaker TransitionRuns StdString State

variable {ε : Type}

namespace State

/-- Connections that a release to come will offer: leased, being connected, being handed
over, or about to be released. -/
def serving (s : State ε) : ℕ :=
  s.leased.length + s.connecting.length + s.handed.length + s.releasing.length

/-- The step loses a connection: a broken one is dropped, or a connect fails. -/
def Loses (s : State ε) : Event ε → Prop
  | .released c => (s.heap c).healthy = false
  | .connected ℓ a _ => ((s.heap ℓ.conn).connect a).1 ≠ .ok ()
  | _ => False

end State

/-- A query step that, when somebody waits, does not lose the last connection in service. -/
def KeepsServing (s : State ε) (e : Event ε) : Prop :=
  e.ofQuery ∧ (s.channel.waiting ≠ [] → s.Loses e → 1 < s.serving)

instance (s : State ε) : DecidablePred s.Loses
  | .released c => inferInstanceAs (Decidable ((s.heap c).healthy = false))
  | .connected ℓ a _ => inferInstanceAs (Decidable (((s.heap ℓ.conn).connect a).1 ≠ .ok ()))
  | .acquire .. | .received .. | .queried .. | .begun .. | .statement .. | .commit ..
  | .rollback .. | .abandon .. | .release .. | .shutdown => .isFalse id

instance (s : State ε) : DecidablePred (KeepsServing s) := fun e =>
  inferInstanceAs (Decidable (e.ofQuery ∧ (s.channel.waiting ≠ [] → s.Loses e → 1 < s.serving)))

/-- Somebody waits only while a connection is in service. -/
structure Served (s : State ε) : Prop where
  nonempty : 1 ≤ s.size
  running : s.stopping = false
  unclosed : s.channel.closed = false
  busy : s.channel.waiting ≠ [] → 0 < s.serving

theorem served_init {size : ℕ} (h : 1 ≤ size) : Served (init ε size) :=
  ⟨h, rfl, rfl, fun hw => absurd rfl hw⟩

/-- When the pool is full and nothing is parked or buffered, some connection is in service. -/
theorem Accounted.serving_pos {s : State ε} (ha : Accounted s) (hs : 1 ≤ s.size)
    (hfull : s.size ≤ s.created_at) (hidle : s.idle = []) (hbuf : s.channel.buffer = []) :
    0 < s.serving := by
  have hlen := ha.perm.length_eq
  have htotal := ha.total
  simp only [held, hidle, hbuf, List.length_append, List.length_map, List.length_nil] at hlen
  unfold serving
  omega

theorem Served.busy_step {s t : State ε} {e : Event ε} (hv : Served s) (ha : Accounted s)
    (hk : KeepsServing s e) (h : Step s e t) (hw : t.channel.waiting ≠ []) : 0 < t.serving := by
  obtain ⟨hsize, hrun, hopen, hbusy⟩ := hv
  obtain ⟨hq, hk⟩ := hk
  cases h with
  | turnedAway => exact hbusy hw
  | circuitOpen => exact hbusy hw
  | channelClosed => exact hbusy hw
  | reuse | dial =>
    simp only [serving, enter, List.length_cons]
    omega
  | take _ _ _ _ _ _ nobody => exact absurd nobody hw
  | wait _ _ _ hidle hfull hbuf => exact ha.serving_pos hsize hfull hidle hbuf
  | dialed | received =>
    simp only [serving, store, List.length_cons]
    omega
  | queried =>
    simp only [serving, store, List.length_cons]
    omega
  | dialFailed hm call =>
    have htwo := hk hw (by simp [Loses, call])
    have hlen := List.length_erase_of_mem hm
    simp only [serving, store] at htwo ⊢
    omega
  | dropped hm broken =>
    have hsick := broken.resolve_left (by simp [hrun])
    have htwo := hk hw hsick
    have hlen := List.length_erase_of_mem hm
    simp only [serving, destroy] at htwo ⊢
    omega
  | delivered =>
    simp only [serving, List.length_cons]
    omega
  | buffered _ _ _ _ nobody => exact absurd nobody hw
  | parked _ _ _ refused =>
    rcases refused with hc | ⟨nobody, _⟩
    · simp [hopen] at hc
    · exact absurd nobody hw
  | ended _ _ _ hcall => rcases hcall with ⟨_, rfl, _⟩ | ⟨_, rfl, _⟩ <;> exact hq.elim
  | begun | beginFailed | statement | commitFailed | abandon | release | shutdown =>
    exact hq.elim

theorem Served.step {s t : State ε} {e : Event ε} (hv : Served s) (ha : Accounted s)
    (hk : KeepsServing s e) (h : Step s e t) : Served t := by
  have he : e ≠ .shutdown := by
    rintro rfl
    exact hk.1.elim
  refine ⟨?_, ?_, ?_, hv.busy_step ha hk h⟩
  · rw [h.size]
    exact hv.nonempty
  · rw [h.stopping he]
    exact hv.running
  · rw [h.channel_closed he]
    exact hv.unclosed

/-- Queries that never lose the last connection in service under a waiter leave every
waiter somebody to be woken by. -/
theorem waiter_is_served {size : ℕ} {es : List (Event ε)} {s : State ε} (hsize : 1 ≤ size)
    (h : Runs step KeepsServing (init ε size) es s) (hw : s.channel.waiting ≠ []) :
    0 < s.serving := by
  have hboth : Accounted s ∧ Served s := by
    apply h.invariant
    · exact ⟨accounted_init size, served_init hsize⟩
    intro s e t ⟨ha, hv⟩ hk hs
    exact ⟨ha.step hk.1 (step_of hs).moved, hv.step ha hk (step_of hs)⟩
  exact hboth.2.busy hw

theorem waiter_is_served_prefix :
    ∃ s, Runs step KeepsServing (init ℕ 1) (twoQueries.take 3) s ∧
      s.channel.waiting = [⟨1, .query⟩] ∧ 0 < s.serving := by
  obtain ⟨s, hs, hw⟩ := Option.map_eq_some_iff.mp (show (run (guarded step KeepsServing)
    (init ℕ 1) (twoQueries.take 3)).map (·.channel.waiting) = some [⟨1, .query⟩]
    by decide +kernel)
  have hruns := runs_of_guarded hs
  exact ⟨s, hruns, hw, waiter_is_served le_rfl hruns (by simp [hw])⟩

/-- The second query waits for the only connection, which the first one returns broken. -/
def brokenReturn : List (Event ℕ) :=
  [.acquire .query 0, .connected ⟨0, .query, 0⟩ .reached 0, .acquire .query 0,
    .queried ⟨0, .query, 0⟩ ⟨"INSERT".toList, .data [7]⟩ [] .rejected 0, .released 0]

theorem waiter_forgotten :
    ∃ s, Runs step (fun _ e => e.ofQuery) (init ℕ 1) brokenReturn s ∧
      s.channel.waiting ≠ [] ∧ ¬ 0 < s.serving := by
  obtain ⟨s, hs, hn⟩ := Option.map_eq_some_iff.mp (show (run (guarded step fun _ e => e.ofQuery)
    (init ℕ 1) brokenReturn).map (fun s => (s.channel.waiting, s.serving)) =
      some ([⟨1, .query⟩], 0) by decide +kernel)
  obtain ⟨hw, hserve⟩ := Prod.mk.inj hn
  exact ⟨s, runs_of_guarded hs, by simp [hw], by omega⟩

end AdequateApi.PoolModel
