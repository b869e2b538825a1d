import AdequateApi.DbConnectionSpec

/-! `Transaction` over the connection it leases: what of its statements persists.
Statements here are data statements; each call reconnects on its own when the connection
is down, which is where the block that BEGIN opened is left behind. -/
namespace AdequateApi.DbTransaction
open SessionServer StdString DbConnection PgConnection

variable {ε : Type}

/-- A call the caller makes on `tx.Lease.connection`. -/
inductive Call (ε : Type)
  | execParams (sql : Sql ε) (params : List (Option Str)) (a : ExecAnswers)
  | execPrepared (stmtName : Str) (sql : Sql ε) (params : List (Option Str))
      (a : PreparedAnswers)

def Call.sql : Call ε → Sql ε
  | .execParams sql _ _ => sql
  | .execPrepared _ sql _ _ => sql

def Call.run (q : Call ε) (c : PgConnection ε) (db : List ε) : Exec ε PgResult :=
  match q with
  | .execParams sql params a => c.execParams db sql params a
  | .execPrepared stmtName sql params a => c.execPrepared db stmtName sql params a

theorem Call.run_ran (q : Call ε) (c : PgConnection ε) (db : List ε) :
    Ran c db q.sql.command (q.run c db) := by
  cases q with
  | execParams sql params a => exact execParams_ran c db sql params a
  | execPrepared name sql params a => exact execPrepared_ran c db name sql params a

/-- How `commit` or `rollback` ended, and whether it called the lease's release. -/
structure Ended (ε : Type) where
  result : Except PgError Unit
  conn : PgConnection ε
  db : List ε
  released : Bool

namespace Transaction

/-- The part of `Transaction::begin` after `acquire` has returned the connection. -/
def begin (c : PgConnection ε) (db : List ε) (a : ExecAnswers) : Exec ε PgResult := c.begin db a

def commit (c : PgConnection ε) (db : List ε) (a : ExecAnswers) : Ended ε :=
  let r := c.commit db a
  match r.result with
  | .ok _ => ⟨.ok (), r.conn, r.db, true⟩
  | .error e => ⟨.error e, r.conn, r.db, false⟩

/-- Errors of ROLLBACK are swallowed. -/
def rollback (c : PgConnection ε) (db : List ε) (a : ExecAnswers) : Ended ε :=
  let r := c.rollback db a
  ⟨.ok (), r.conn, r.db, true⟩

end Transaction

/-- A call whose SQL is a data statement with these effects. -/
structure Statement (ε : Type) where
  call : Call ε
  effects : List ε
  data : call.sql.command = .data effects

/-- What came of one statement: whether the caller saw it succeed, and whether the server
carried it out. -/
structure Attempt (ε : Type) where
  effects : List ε
  succeeded : Bool
  carried : Bool
  deriving DecidableEq

/-- Run the statements one after the other, going on after failures. -/
def runStatements (c : PgConnection ε) (db : List ε) :
    List (Statement ε) → (PgConnection ε × List ε) × List (Attempt ε)
  | [] => ((c, db), [])
  | q :: qs =>
      let r := q.call.run c db
      let rest := runStatements r.conn r.db qs
      (rest.1, ⟨q.effects, r.result.isOk, r.carried⟩ :: rest.2)

def carriedOut (ts : List (Attempt ε)) : List ε :=
  ts.flatMap fun t => if t.carried then t.effects else []

/-- The attempts up to and including the first failure, and those that follow it. -/
def untilFailure : List (Attempt ε) → List (Attempt ε)
  | [] => []
  | t :: ts => if t.succeeded then t :: untilFailure ts else [t]

def afterFailure : List (Attempt ε) → List (Attempt ε)
  | [] => []
  | t :: ts => if t.succeeded then afterFailure ts else ts

theorem untilFailure_append (ts : List (Attempt ε)) : untilFailure ts ++ afterFailure ts = ts := by
  induction ts with
  | nil => rfl
  | cons t ts ih =>
    simp only [untilFailure, afterFailure]
    split <;> simp [ih]

theorem carriedOut_split (ts : List (Attempt ε)) :
    carriedOut ts = carriedOut (untilFailure ts) ++ carriedOut (afterFailure ts) := by
  unfold carriedOut
  rw [← List.flatMap_append, untilFailure_append]

theorem afterFailure_nil {ts : List (Attempt ε)} (h : ∀ t ∈ ts, t.succeeded = true) :
    afterFailure ts = [] := by
  induction ts with
  | nil => rfl
  | cons t ts ih =>
    rw [afterFailure, if_pos (h t (by simp))]
    exact ih fun u hu => h u (by simp [hu])

/-- BEGIN on a fresh connection opens an empty block and persists nothing. -/
theorem begin_inside {c : PgConnection ε} {db : List ε} {a : ExecAnswers} {out : PgResult}
    (hf : c.Fresh) (h : (Transaction.begin c db a).result = .ok out) :
    (Transaction.begin c db a).conn.Inside [] ∧ (Transaction.begin c db a).db = db := by
  have hr : Ran c db .begin (Transaction.begin c db a) :=
    execParams_ran c db ⟨"BEGIN".toList, .begin⟩ [] a
  obtain ⟨k₀, hk₀, _, hb₀⟩ := hf.ready
  generalize Transaction.begin c db a = r at h hr
  cases hr with
  | @done k k' _ _ hk _ hk' hs hread hb =>
    rw [hk₀] at hk
    cases hk
    rw [Session.execute_begin_block hb₀] at hb ⊢
    exact ⟨⟨k', hk', hs, hread, hb⟩, by simp⟩
  | failed => cases h
  | lost => cases h

/-- One data statement outside a block: what is carried out persists at once. -/
theorem statement_fresh {c : PgConnection ε} (q : Statement ε) (db : List ε) (hf : c.Fresh) :
    (q.call.run c db).conn.Fresh ∧
      (q.call.run c db).db =
        db ++ if (q.call.run c db).carried then q.effects else [] := by
  have hr := q.call.run_ran c db
  rw [q.data] at hr
  refine ⟨hr.fresh_of_plain hf trivial, ?_⟩
  obtain ⟨k₀, hk₀, _, hb₀⟩ := hf.ready
  generalize q.call.run c db = r at hr
  cases hr with
  | done hk =>
    rw [hk₀] at hk
    cases hk
    simp [Session.execute_data_outside hb₀]
  | failed => simp
  | lost _ hk =>
    rw [hk₀] at hk
    cases hk
    simp [Session.execute_data_outside hb₀]

theorem Inside.ready_conn {c : PgConnection ε} {pending : List ε} (h : c.Inside pending) :
    c.ready = c := by
  simp [ready, h.healthy]

/-- One data statement inside the block: on success it joins the block, on failure the
connection is down; nothing persists. -/
theorem statement_inside {c : PgConnection ε} {pending : List ε} (q : Statement ε)
    (db : List ε) (hi : c.Inside pending) :
    (q.call.run c db).db = db ∧
      (((q.call.run c db).result.isOk = true ∧ (q.call.run c db).carried = true ∧
          (q.call.run c db).conn.Inside (pending ++ q.effects)) ∨
        ((q.call.run c db).result.isOk = false ∧ (q.call.run c db).conn.Fresh)) := by
  have hr := q.call.run_ran c db
  rw [q.data] at hr
  have hready := Inside.ready_conn hi
  obtain ⟨k₀, hk₀, _, _, hb₀⟩ := hi
  generalize q.call.run c db = r at hr
  cases hr with
  | @done k k' _ _ hk _ hk' hs hread hb =>
    rw [hready, hk₀] at hk
    cases hk
    rw [Session.execute_data_inside hb₀] at hb ⊢
    exact ⟨by simp, .inl ⟨rfl, rfl, k', hk', hs, hread, hb⟩⟩
  | failed hd => exact ⟨rfl, .inr ⟨rfl, .inl hd⟩⟩
  | lost hd hk =>
    rw [hready, hk₀] at hk
    cases hk
    exact ⟨by simp [Session.execute_data_inside hb₀], .inr ⟨rfl, .inl hd⟩⟩

theorem runStatements_fresh {c : PgConnection ε} (db : List ε) (qs : List (Statement ε))
    (hf : c.Fresh) :
    (runStatements c db qs).1.1.Fresh ∧
      (runStatements c db qs).1.2 = db ++ carriedOut (runStatements c db qs).2 := by
  induction qs generalizing c db with
  | nil => exact ⟨hf, by simp [runStatements, carriedOut]⟩
  | cons q qs ih =>
    obtain ⟨hf', hdb⟩ := statement_fresh q db hf
    obtain ⟨hf'', hdb'⟩ := ih (q.call.run c db).db hf'
    refine ⟨hf'', ?_⟩
    simp only [runStatements, carriedOut, List.flatMap_cons] at hdb' ⊢
    rw [hdb', hdb, List.append_assoc]

/-- The statements of a transaction: either all succeed inside the block, or what is
carried out after the first failure persists on its own. -/
theorem runStatements_inside {c : PgConnection ε} {pending : List ε} (db : List ε)
    (qs : List (Statement ε)) (hi : c.Inside pending) :
    ((∀ t ∈ (runStatements c db qs).2, t.succeeded = true) ∧ (runStatements c db qs).1.2 = db ∧
        (runStatements c db qs).1.1.Inside (pending ++ carriedOut (runStatements c db qs).2)) ∨
      ((runStatements c db qs).1.1.Fresh ∧ (runStatements c db qs).1.2 =
        db ++ carriedOut (afterFailure (runStatements c db qs).2)) := by
  induction qs generalizing c pending with
  | nil => exact .inl ⟨by simp [runStatements], rfl, by simpa [runStatements, carriedOut] using hi⟩
  | cons q qs ih =>
    obtain ⟨hdb, ⟨hok, hcar, hin⟩ | ⟨hbad, hf⟩⟩ := statement_inside q db hi
    · rcases ih hin with ⟨hall, hdb', hin'⟩ | ⟨hf, hdb'⟩
      · left
        simp only [runStatements, hdb]
        refine ⟨?_, hdb', ?_⟩
        · intro t ht
          rcases List.mem_cons.mp ht with rfl | ht
          · exact hok
          · exact hall t ht
        · simpa [carriedOut, hcar, List.append_assoc] using hin'
      · right
        simp only [runStatements, hdb, afterFailure, hok, if_true]
        exact ⟨hf, hdb'⟩
    · right
      simp only [runStatements, hdb, afterFailure, hbad, Bool.false_eq_true, if_false]
      exact runStatements_fresh db qs hf

theorem rollback_persists (c : PgConnection ε) (db : List ε) (a : ExecAnswers) :
    (Transaction.rollback c db a).db = db := by
  have hr : Ran c db .rollback (c.rollback db a) :=
    execParams_ran c db ⟨"ROLLBACK".toList, .rollback⟩ [] a
  unfold Transaction.rollback
  generalize c.rollback db a = r at hr
  cases hr <;> simp

theorem commit_fresh {c : PgConnection ε} {db : List ε} {a : ExecAnswers} (hf : c.Fresh) :
    (Transaction.commit c db a).db = db := by
  have hr : Ran c db .commit (c.commit db a) :=
    execParams_ran c db ⟨"COMMIT".toList, .commit⟩ [] a
  obtain ⟨k₀, hk₀, _, hb₀⟩ := hf.ready
  unfold Transaction.commit
  generalize c.commit db a = r at hr
  cases hr with
  | done hk =>
    rw [hk₀] at hk
    cases hk
    simp [Session.execute_commit_outside hb₀]
  | failed => rfl
  | lost _ hk =>
    rw [hk₀] at hk
    cases hk
    simp [Session.execute_commit_outside hb₀]

theorem commit_inside {c : PgConnection ε} {db pending : List ε} {a : ExecAnswers}
    (hi : c.Inside pending) (h : (Transaction.commit c db a).result = .ok ()) :
    (Transaction.commit c db a).db = db ++ pending := by
  have hr : Ran c db .commit (c.commit db a) :=
    execParams_ran c db ⟨"COMMIT".toList, .commit⟩ [] a
  have hready := Inside.ready_conn hi
  obtain ⟨k₀, hk₀, _, _, hb₀⟩ := hi
  unfold Transaction.commit at h ⊢
  generalize c.commit db a = r at h hr
  cases hr with
  | done hk =>
    rw [hready, hk₀] at hk
    cases hk
    simp [Session.execute_commit_inside hb₀]
  | failed => cases h
  | lost => cases h

end AdequateApi.DbTransaction
