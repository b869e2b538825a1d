import AdequateApi.PoolHandout

/-! What persists of a `Transaction`. A failed statement closes the connection and with it
the block; the next statement reconnects and commits on its own. -/
namespace AdequateApi.PoolModel
open ChannelQueue DbConnection DbTransaction PoolBreaker TransitionRuns StdString State
open PgConnection

variable {ε : Type}

/-- BEGIN on the leased connection, and the statements of the owner after it. -/
def transact (s : State ε) (ℓ : Lease) (a : ExecAnswers) (qs : List (Statement ε)) :
    (PgConnection ε × List ε) × List (Attempt ε) :=
  runStatements (Transaction.begin (s.heap ℓ.conn) s.db a).conn
    (Transaction.begin (s.heap ℓ.conn) s.db a).db qs

/-- The statements ran in the block throughout, or the connection was lost on the way and
what came after the first failure persists. -/
theorem transact_cases {size : ℕ} {es : List (Event ε)} {s : State ε} {ℓ : Lease}
    {a : ExecAnswers} {out : PgResult}
    (h : Runs step (fun _ e => e.CleanUse) (init ε size) es s) (hm : ℓ ∈ s.leased)
    (hk : ℓ.holder = .opening) (hb : (Transaction.begin (s.heap ℓ.conn) s.db a).result = .ok out)
    (qs : List (Statement ε)) :
    (afterFailure (transact s ℓ a qs).2 = [] ∧ (transact s ℓ a qs).1.2 = s.db ∧
      (transact s ℓ a qs).1.1.Inside (carriedOut (transact s ℓ a qs).2)) ∨
    ((transact s ℓ a qs).1.1.Fresh ∧ (transact s ℓ a qs).1.2 =
      s.db ++ carriedOut (afterFailure (transact s ℓ a qs).2)) := by
  have hfresh : (s.heap ℓ.conn).Fresh :=
    (clean_of_runs h).1.offered _ (mem_offered.mpr (.inl ⟨ℓ, hm, .inr hk, rfl⟩))
  obtain ⟨hin, hdb⟩ := begin_inside hfresh hb
  have hrun := runStatements_inside (Transaction.begin (s.heap ℓ.conn) s.db a).db qs hin
  rw [hdb] at hrun
  unfold transact
  rw [hdb]
  rcases hrun with ⟨hall, hdb', hin'⟩ | hout
  · exact .inl ⟨afterFailure_nil hall, hdb', hin'⟩
  · exact .inr hout

/-- A rollback undoes everything exactly when the server carried nothing out after the first
failure. A commit is all or nothing exactly when, besides, it may have carried nothing out
until then. -/
theorem transaction_atomic_iff {size : ℕ} {es : List (Event ε)} {s : State ε} {ℓ : Lease}
    {a : ExecAnswers} {out : PgResult}
    (h : Runs step (fun _ e => e.CleanUse) (init ε size) es s) (hm : ℓ ∈ s.leased)
    (hk : ℓ.holder = .opening) (hb : (Transaction.begin (s.heap ℓ.conn) s.db a).result = .ok out)
    (qs : List (Statement ε)) (b : ExecAnswers) :
    let r := transact s ℓ a qs
    ((Transaction.rollback r.1.1 r.1.2 b).db = s.db ↔ carriedOut (afterFailure r.2) = []) ∧
      ((Transaction.commit r.1.1 r.1.2 b).result = .ok () →
        (((Transaction.commit r.1.1 r.1.2 b).db = s.db ∨
            (Transaction.commit r.1.1 r.1.2 b).db = s.db ++ carriedOut r.2) ↔
          (carriedOut (afterFailure r.2) = [] ∨ carriedOut (untilFailure r.2) = []))) := by
  intro r
  have hcases : (afterFailure r.2 = [] ∧ r.1.2 = s.db ∧ r.1.1.Inside (carriedOut r.2)) ∨
      (r.1.1.Fresh ∧ r.1.2 = s.db ++ carriedOut (afterFailure r.2)) :=
    transact_cases h hm hk hb qs
  have hsplit := carriedOut_split r.2
  refine ⟨?_, fun hok => ?_⟩
  · rw [rollback_persists]
    rcases hcases with ⟨hnil, hdb, _⟩ | ⟨_, hdb⟩
    · simp [hnil, hdb, carriedOut]
    · simp [hdb]
  · rcases hcases with ⟨hnil, hdb, hin⟩ | ⟨hf, hdb⟩
    · rw [commit_inside hin hok]
      simp [hnil, hdb, carriedOut]
    · rw [commit_fresh hf, hdb, hsplit]
      simp

/-- The first connection of the pool, leased to a transaction. -/
def leasedToTransaction : List (Event ℕ) :=
  [.acquire .opening 0, .connected ⟨0, .opening, 0⟩ .reached 0]

/-- An insert of `n` that the server answers with `a`. -/
def insert (n : ℕ) (a : ExecAnswers) : Statement ℕ :=
  ⟨.execParams ⟨"INSERT".toList, .data [n]⟩ [] a, [n], rfl⟩

theorem transaction_atomic_iff_inserts :
    ∃ s, Runs step (fun _ e => e.CleanUse) (init ℕ 1) leasedToTransaction s ∧
      let r := transact s ⟨0, .opening, 0⟩ .completed [insert 1 .completed, insert 2 .completed]
      carriedOut r.2 = [1, 2] ∧
        ((Transaction.rollback r.1.1 r.1.2 .completed).db = s.db ↔
          carriedOut (afterFailure r.2) = []) := by
  obtain ⟨s, hs, hn⟩ := Option.map_eq_some_iff.mp (show (run (guarded step fun _ e => e.CleanUse)
    (init ℕ 1) leasedToTransaction).map (fun s => (s.leased,
      (Transaction.begin (s.heap 0) s.db .completed).result,
      carriedOut (transact s ⟨0, .opening, 0⟩ .completed
        [insert 1 .completed, insert 2 .completed]).2)) =
      some ([⟨0, .opening, 0⟩], .ok ⟨[], []⟩, [1, 2]) by decide +kernel)
  obtain ⟨hl, hb, hc⟩ : s.leased = [⟨0, .opening, 0⟩] ∧
      (Transaction.begin (s.heap 0) s.db .completed).result = .ok ⟨[], []⟩ ∧
      carriedOut (transact s ⟨0, .opening, 0⟩ .completed
        [insert 1 .completed, insert 2 .completed]).2 = [1, 2] := by
    simpa only [Prod.mk.injEq] using hn
  have hruns := runs_of_guarded hs
  exact ⟨s, hruns, hc, (transaction_atomic_iff hruns (ℓ := ⟨0, .opening, 0⟩) (by simp [hl]) rfl hb
    [insert 1 .completed, insert 2 .completed] .completed).1⟩

/-- The second insert violates a constraint, the third succeeds. -/
theorem transaction_not_atomic :
    ∃ s, Runs step (fun _ e => e.CleanUse) (init ℕ 1) leasedToTransaction s ∧
      ⟨0, .opening, 0⟩ ∈ s.leased ∧ s.db = [] ∧
      let r := transact s ⟨0, .opening, 0⟩ .completed
        [insert 1 .completed, insert 2 .rejected, insert 3 .completed]
      (Transaction.begin (s.heap 0) s.db .completed).result.isOk = true ∧
        (Transaction.rollback r.1.1 r.1.2 .completed).db = [3] ∧
        (Transaction.commit r.1.1 r.1.2 .completed).result.isOk = true ∧
        (Transaction.commit r.1.1 r.1.2 .completed).db = [3] ∧ carriedOut r.2 = [1, 3] := by
  obtain ⟨s, hs, hn⟩ := Option.map_eq_some_iff.mp (show (run (guarded step fun _ e => e.CleanUse)
    (init ℕ 1) leasedToTransaction).map (fun s =>
      let r := transact s ⟨0, .opening, 0⟩ .completed
        [insert 1 .completed, insert 2 .rejected, insert 3 .completed]
      decide (⟨0, .opening, 0⟩ ∈ s.leased ∧ s.db = [] ∧
        (Transaction.begin (s.heap 0) s.db .completed).result.isOk = true ∧
        (Transaction.rollback r.1.1 r.1.2 .completed).db = [3] ∧
        (Transaction.commit r.1.1 r.1.2 .completed).result.isOk = true ∧
        (Transaction.commit r.1.1 r.1.2 .completed).db = [3] ∧ carriedOut r.2 = [1, 3])) =
      some true by decide +kernel)
  exact ⟨s, runs_of_guarded hs, of_decide_eq_true hn⟩

end AdequateApi.PoolModel
