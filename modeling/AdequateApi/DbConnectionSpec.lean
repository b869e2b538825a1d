import AdequateApi.DbConnection

/-! What one call on a `PgConnection` can do. Every failure leaves the object unhealthy;
every success has read all results and executed exactly the statement it was given. -/
namespace AdequateApi.DbConnection
open SessionServer StdString

variable {ε : Type}

namespace PgConnection

/-- Unhealthy, or outside any transaction block with no unread result. -/
def Fresh (c : PgConnection ε) : Prop :=
  c.healthy = false ∨ ∃ k, c.conn = some k ∧ k.inflight = none ∧ k.session.block = none

/-- Healthy, with no unread result and inside a block with these pending effects. -/
def Inside (c : PgConnection ε) (pending : List ε) : Prop :=
  ∃ k, c.conn = some k ∧ k.status = .CONNECTION_OK ∧ k.inflight = none ∧
    k.session.block = some ⟨pending, false⟩

/-- The object after a successful `connect`. -/
def connected : PgConnection ε := ⟨some ⟨.CONNECTION_OK, none, .fresh⟩, true, []⟩

/-- The object a command runs on, once `ensure_connected` has returned. -/
def ready (c : PgConnection ε) : PgConnection ε := if c.healthy then c else connected

theorem healthy_iff (c : PgConnection ε) :
    c.healthy = true ↔ ∃ k, c.conn = some k ∧ k.status = .CONNECTION_OK := by
  unfold healthy
  cases c.conn <;> simp

theorem fresh_connected : (connected : PgConnection ε).Fresh := .inr ⟨_, rfl, rfl, rfl⟩

theorem Fresh.ready {c : PgConnection ε} (h : c.Fresh) :
    ∃ k, c.ready.conn = some k ∧ k.inflight = none ∧ k.session.block = none := by
  unfold PgConnection.ready
  split
  · rename_i hh
    exact h.resolve_left (by simp [hh])
  · exact ⟨_, rfl, rfl, rfl⟩

theorem Inside.healthy {c : PgConnection ε} {p : List ε} (h : c.Inside p) : c.healthy = true := by
  obtain ⟨k, hk, hs, _⟩ := h
  exact (healthy_iff c).mpr ⟨k, hk, hs⟩

theorem connect_cases (c : PgConnection ε) (a : ConnectAnswers) (h : c.healthy = false) :
    c.connect a = (.ok (), connected) ∨
    ∃ e c', c.connect a = (.error e, c') ∧ c'.healthy = false := by
  unfold connect
  simp only [h, Bool.false_eq_true, if_false]
  split
  · exact .inr ⟨_, _, rfl, rfl⟩
  split
  · exact .inr ⟨_, _, rfl, rfl⟩
  split
  · exact .inr ⟨_, _, rfl, rfl⟩
  split
  · exact .inr ⟨_, _, rfl, rfl⟩
  · exact .inl rfl

theorem ensure_connected_cases (c : PgConnection ε) (a : ConnectAnswers) :
    c.ensure_connected a = (.ok (), c.ready) ∨
    ∃ e c', c.ensure_connected a = (.error e, c') ∧ c'.healthy = false := by
  unfold ensure_connected ready
  cases hh : c.healthy
  · simpa using connect_cases c a hh
  · simp

end PgConnection

open PgConnection

/-- The two ways `runQueryWithTimeout` ends. A failure persists nothing unless the server
had already carried the statement out. -/
theorem runQuery_cases (c : PgConnection ε) (db : List ε) (req : Request ε) (a : Answers) :
    (∃ k out, c.conn = some k ∧ k.status = .CONNECTION_OK ∧ k.inflight = none ∧
      runQueryWithTimeout c db req a =
        ⟨.ok out, { c with conn := some ⟨.CONNECTION_OK, none, (k.session.execute req.command).1⟩ },
          db ++ (k.session.execute req.command).2, true⟩) ∨
    (∃ e, runQueryWithTimeout c db req a = ⟨.error e, c.close, db, false⟩) ∨
    (∃ k e, c.conn = some k ∧
      runQueryWithTimeout c db req a =
        ⟨.error e, c.close, db ++ (k.session.execute req.command).2, true⟩) := by
  unfold runQueryWithTimeout
  split
  · exact .inr (.inl ⟨_, rfl⟩)
  rename_i k hk
  split
  · exact .inr (.inl ⟨_, rfl⟩)
  rename_i hacc
  simp only [PGconn.accepts, Bool.not_eq_true, Bool.not_eq_false', Bool.and_eq_true,
    Option.isNone_iff_eq_none, decide_eq_true_eq] at hacc
  obtain ⟨⟨_, hidle⟩, hstatus⟩ := hacc
  dsimp only
  split
  · rename_i out _
    exact .inl ⟨k, out, hk, hstatus, hidle, by rw [hstatus]⟩
  · exact .inr (.inl ⟨_, rfl⟩)
  · split
    · exact .inr (.inr ⟨k, _, hk, rfl⟩)
    · exact .inr (.inl ⟨_, rfl⟩)

/-- On a closed connection every command fails at once. -/
theorem runQuery_closed {c : PgConnection ε} (h : c.conn = none) (db : List ε)
    (req : Request ε) (a : Answers) :
    ∃ e, runQueryWithTimeout c db req a = ⟨.error e, c.close, db, false⟩ := by
  unfold runQueryWithTimeout
  rw [h]
  exact ⟨_, rfl⟩

/-- What a statement does, seen from the transaction state of the object it starts on:
`Ran c db cmd r` relates them to the end of the call. -/
inductive Ran {α : Type} (c : PgConnection ε) (db : List ε) (cmd : Command ε Str) :
    Exec ε α → Prop
  /-- Executed, and all results read. -/
  | done {k k' : PGconn ε} {out : α} {c' : PgConnection ε}
      (handle : c.ready.conn = some k) (idle : k.inflight = none)
      (handle' : c'.conn = some k') (status : k'.status = .CONNECTION_OK)
      (read : k'.inflight = none)
      (block : k'.session.block = (k.session.execute cmd).1.block) :
      Ran c db cmd ⟨.ok out, c', db ++ (k.session.execute cmd).2, true⟩
  /-- Not carried out by the server; the object is unhealthy. -/
  | failed {e : PgError} {c' : PgConnection ε} (down : c'.healthy = false) :
      Ran c db cmd ⟨.error e, c', db, false⟩
  /-- Carried out, but the caller sees a failure; the object is unhealthy. -/
  | lost {k : PGconn ε} {e : PgError} {c' : PgConnection ε} (down : c'.healthy = false)
      (handle : c.ready.conn = some k) :
      Ran c db cmd ⟨.error e, c', db ++ (k.session.execute cmd).2, true⟩

theorem execParams_ran (c : PgConnection ε) (db : List ε) (sql : Sql ε)
    (params : List (Option Str)) (a : ExecAnswers) :
    Ran c db sql.command (c.execParams db sql params a) := by
  unfold execParams
  rcases ensure_connected_cases c a.connect with h | ⟨e, c', h, hd⟩
  · rw [h]
    dsimp only
    rcases runQuery_cases c.ready db ⟨c_str sql.text, paramValues params, sql.command⟩ a.query
      with ⟨k, out, hk, _, hi, hr⟩ | ⟨e, hr⟩ | ⟨k, e, hk, hr⟩
    · rw [hr]
      exact .done hk hi rfl rfl rfl rfl
    · rw [hr]
      exact .failed rfl
    · rw [hr]
      exact .lost rfl hk
  · rw [h]
    exact .failed hd

/-- `do_prepare` persists nothing. It either keeps the handle, in its block, or leaves the
connection closed. -/
theorem do_prepare_cases (c : PgConnection ε) (db : List ε) (name : Str) (sql : Sql ε)
    (a : Answers) :
    (∃ c', c.do_prepare db name sql a = ⟨.ok (), c', db, false⟩ ∧
      ∀ k', c'.conn = some k' → ∃ k, c.conn = some k ∧ k'.inflight = k.inflight ∧
        k'.session.block = k.session.block) ∨
    (∃ c' e, c'.conn = none ∧ (c.do_prepare db name sql a = ⟨.ok (), c', db, false⟩ ∨
      c.do_prepare db name sql a = ⟨.error e, c', db, false⟩)) := by
  unfold do_prepare
  split
  · exact .inl ⟨c, rfl, fun k hk => ⟨k, hk, rfl, rfl⟩⟩
  rcases runQuery_cases c db ⟨c_str sql.text, [], .prepare (c_str name)⟩ a
    with ⟨k, out, hk, _, hi, hr⟩ | ⟨e, hr⟩ | ⟨k, e, hk, hr⟩
  · left
    rw [hr]
    refine ⟨{ c with
      conn := some ⟨.CONNECTION_OK, none, (k.session.execute (.prepare (c_str name))).1⟩
      prepared := name :: c.prepared }, by simp [Session.execute], ?_⟩
    intro k' hk'
    cases hk'
    exact ⟨k, hk, hi.symm, rfl⟩
  all_goals
    right
    rw [hr]
    simp only [Session.execute, List.append_nil]
    split
    · exact ⟨_, e, rfl, .inl rfl⟩
    · exact ⟨_, e, rfl, .inr rfl⟩

/-- The retry of `execPrepared` starts from a closed connection, so it never succeeds and
changes nothing more. -/
theorem retry_fails {c : PgConnection ε} (h : c.conn = none) (db : List ε) (name : Str)
    (sql : Sql ε) (req : Request ε) (a b : Answers) :
    ∃ e c', c'.healthy = false ∧
      (c.do_prepare db name sql a = ⟨.error e, c', db, false⟩ ∨
        ∃ p, c.do_prepare db name sql a = ⟨.ok (), p, db, false⟩ ∧
          runQueryWithTimeout p db req b = ⟨.error e, c', db, false⟩) := by
  have closed : ∀ p : PgConnection ε, p.conn = none → ∃ e c', c'.healthy = false ∧
      runQueryWithTimeout p db req b = ⟨.error e, c', db, false⟩ := by
    intro p hp
    obtain ⟨e, he⟩ := runQuery_closed hp db req b
    exact ⟨e, p.close, rfl, he⟩
  rcases do_prepare_cases c db name sql a with ⟨p, hp, hc⟩ | ⟨p, e, hc, hp | hp⟩
  · have hn : p.conn = none := by
      cases hk : p.conn with
      | none => rfl
      | some k' =>
        obtain ⟨k, hk, _⟩ := hc k' hk
        rw [h] at hk
        contradiction
    obtain ⟨e', c', hd, hr⟩ := closed p hn
    exact ⟨e', c', hd, .inr ⟨p, hp, hr⟩⟩
  · obtain ⟨e', c', hd, hr⟩ := closed p hc
    exact ⟨e', c', hd, .inr ⟨p, hp, hr⟩⟩
  · exact ⟨e, p, by simp [healthy, hc], .inl hp⟩

theorem execOrRetry_ok {c c' : PgConnection ε} {db db' : List ε} {name : Str} {sql : Sql ε}
    {req : Request ε} {a : PreparedAnswers} {out : PgResult} {carried : Bool}
    (h : runQueryWithTimeout c db req a.query = ⟨.ok out, c', db', carried⟩) :
    c.execOrRetry db name sql req a = ⟨.ok out, c', db', carried⟩ := by
  unfold execOrRetry
  rw [h]

/-- A failed execution stays failed through the retry. -/
theorem execOrRetry_failed (name : Str) (sql : Sql ε) {c : PgConnection ε} {db db' : List ε}
    {req : Request ε} {a : PreparedAnswers} {e : PgError} {carried : Bool}
    (h : runQueryWithTimeout c db req a.query = ⟨.error e, c.close, db', carried⟩) :
    ∃ e' c', c'.healthy = false ∧
      c.execOrRetry db name sql req a = ⟨.error e', c', db', carried⟩ := by
  unfold execOrRetry
  rw [h]
  dsimp only
  split
  · obtain ⟨e', c', hd, hp | ⟨p, hp, hr⟩⟩ := retry_fails
      (c := { c.close with prepared := c.close.prepared.filter (· ≠ name) }) rfl db' name sql req
      a.reprepare a.retry
    · rw [hp]
      exact ⟨e', c', hd, rfl⟩
    · rw [hp]
      dsimp only
      rw [hr]
      exact ⟨e', c', hd, by simp⟩
  · exact ⟨e, c.close, rfl, rfl⟩

theorem execPrepared_ran (c : PgConnection ε) (db : List ε) (stmtName : Str) (sql : Sql ε)
    (params : List (Option Str)) (a : PreparedAnswers) :
    Ran c db sql.command (c.execPrepared db stmtName sql params a) := by
  unfold execPrepared
  rcases ensure_connected_cases c a.connect with h | ⟨e, c', h, hd⟩
  swap
  · rw [h]
    exact .failed hd
  rw [h]
  dsimp only
  generalize hreq : (⟨c_str stmtName, paramValues params, sql.command⟩ : Request ε) = req
  have hcmd : req.command = sql.command := by rw [← hreq]
  rcases do_prepare_cases c.ready db stmtName sql a.prepare with ⟨p, hp, hc⟩ | ⟨p, e, hn, hp | hp⟩
  · rw [hp]
    dsimp only
    rcases runQuery_cases p db req a.query with ⟨k, out, hk, _, hi, hr⟩ | ⟨e, hr⟩ | ⟨k, e, hk, hr⟩
    · obtain ⟨k₀, hk₀, hi₀, hb⟩ := hc k hk
      have he := Session.execute_block_congr hb sql.command
      rw [execOrRetry_ok hr, hcmd, he.1]
      exact .done hk₀ (hi₀.symm.trans hi) rfl rfl rfl he.2
    · obtain ⟨e', c', hd, hrun⟩ := execOrRetry_failed stmtName sql hr
      rw [hrun]
      exact .failed hd
    · obtain ⟨e', c', hd, hrun⟩ := execOrRetry_failed stmtName sql hr
      obtain ⟨k₀, hk₀, _, hb⟩ := hc k hk
      rw [hrun, hcmd, (Session.execute_block_congr hb sql.command).1]
      exact .lost hd hk₀
  · rw [hp]
    dsimp only
    obtain ⟨e, hr⟩ := runQuery_closed hn db req a.query
    obtain ⟨e', c', hd, hrun⟩ := execOrRetry_failed stmtName sql hr
    rw [hrun]
    exact .failed hd
  · rw [hp]
    exact .failed (by simp [healthy, hn])

/-! ### Consequences, by the state the call starts in -/

variable {α : Type} {c : PgConnection ε} {db : List ε} {cmd : Command ε Str} {r : Exec ε α}

/-- A plain statement on a fresh object leaves it fresh. -/
theorem Ran.fresh_of_plain (h : Ran c db cmd r) (hf : c.Fresh) (hp : cmd.Plain) :
    r.conn.Fresh := by
  obtain ⟨k₀, hk₀, _, hb₀⟩ := hf.ready
  cases h with
  | @done k k' _ _ hk _ hk' _ hread hb =>
    rw [hk₀] at hk
    cases hk
    exact .inr ⟨k', hk', hread, hb.trans (Session.execute_plain_block hp hb₀)⟩
  | failed hd => exact .inl hd
  | lost hd => exact .inl hd

/-- COMMIT and ROLLBACK leave the object fresh, whatever it was in. -/
theorem Ran.fresh_of_end (h : Ran c db cmd r) (hc : cmd = .commit ∨ cmd = .rollback) :
    r.conn.Fresh := by
  cases h with
  | @done k k' _ _ _ _ hk' _ hread hb =>
    refine .inr ⟨k', hk', hread, hb.trans ?_⟩
    rcases hc with rfl | rfl <;> simp
  | failed hd => exact .inl hd
  | lost hd => exact .inl hd

end AdequateApi.DbConnection
