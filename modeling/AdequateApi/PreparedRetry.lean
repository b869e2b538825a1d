import AdequateApi.DbConnectionSpec

/-! `execPrepared` when its cache of prepared names and the server's session disagree. The
retry is written for this case, but `runQueryWithTimeout` has closed the connection by the
time the error is looked at. -/
namespace AdequateApi.DbConnection
open SessionServer StdString PgConnection

variable {ε : Type}

/-- The whole exchange succeeds on a live connection. -/
def Answers.Succeeds (descriptor : Bool) (a : Answers) : Prop :=
  a.accepted = true ∧ (exchange descriptor a).isOk = true

/-- The server answers with this error and nothing else goes wrong. -/
structure Answers.Reports (descriptor : Bool) (sqlstate text : Str) (a : Answers) : Prop where
  accepted : a.accepted = true
  sent : flushLoop descriptor a.message a.flushes = .ok ()
  received : receiveLoop descriptor a.message a.turns = .ok ()
  error : a.results = [⟨.PGRES_FATAL_ERROR, [], [], some text, some sqlstate⟩]

def notPreparedText (name : Str) : Str :=
  "prepared statement \"".toList ++ c_str name ++ "\" does not exist".toList

def alreadyPreparedText (name : Str) : Str :=
  "prepared statement \"".toList ++ c_str name ++ "\" already exists".toList

/-- The cache is stale: the server does not know a statement the cache has (possibly since
the PREPARE of this very call), or knows one the cache has not. All other steps would succeed
on a live connection. -/
inductive StaleCache (c : PgConnection ε) (name : Str) (a : PreparedAnswers) : Prop
  | forgotten (reached : (c.ensure_connected a.connect).1 = .ok ())
      (cached : name ∈ c.ready.prepared ∨ a.prepare.Succeeds c.ready.stream_descriptor)
      (reported : a.query.Reports c.ready.stream_descriptor "26000".toList
        (notPreparedText name))
      (again : a.reprepare.Succeeds c.ready.stream_descriptor)
      (retried : a.retry.Succeeds c.ready.stream_descriptor)
  | duplicate (reached : (c.ensure_connected a.connect).1 = .ok ())
      (uncached : name ∉ c.ready.prepared)
      (reported : a.prepare.Reports c.ready.stream_descriptor "42P05".toList
        (alreadyPreparedText name))
      (runs : a.query.Succeeds c.ready.stream_descriptor)

/-- Whatever the socket does, an exchange whose result is an error fails. -/
theorem Answers.Reports.exchange_error {descriptor d : Bool} {sqlstate text : Str} {a : Answers}
    (h : a.Reports descriptor sqlstate text) : ∃ e, exchange d a = .error e := by
  unfold exchange
  cases flushLoop d a.message a.flushes with
  | error e => exact ⟨e, rfl⟩
  | ok _ =>
    cases receiveLoop d a.message a.turns with
    | error e => exact ⟨e, rfl⟩
    | ok _ =>
      rw [h.error]
      exact ⟨_, rfl⟩

/-- A command that the server answers with an error leaves the connection closed. -/
theorem Answers.Reports.runQuery {descriptor : Bool} {sqlstate text : Str} {a : Answers}
    (h : a.Reports descriptor sqlstate text) (c : PgConnection ε) (db : List ε)
    (req : Request ε) :
    ∃ e db' carried, runQueryWithTimeout c db req a = ⟨.error e, c.close, db', carried⟩ := by
  obtain ⟨e, he⟩ := h.exchange_error (d := c.stream_descriptor)
  unfold runQueryWithTimeout
  split
  · exact ⟨_, _, _, rfl⟩
  split
  · exact ⟨_, _, _, rfl⟩
  dsimp only
  rw [he]
  cases e with
  | db code what => exact ⟨_, _, _, rfl⟩
  | infra what =>
    dsimp only
    split <;> exact ⟨_, _, _, rfl⟩

/-- A PREPARE that the server answers with an error costs the connection, also where
`do_prepare` takes the statement for prepared. -/
theorem do_prepare_reported {c : PgConnection ε} {name : Str} {descriptor : Bool}
    {sqlstate text : Str} {a : Answers} (h : a.Reports descriptor sqlstate text)
    (uncached : name ∉ c.prepared) (db : List ε) (sql : Sql ε) :
    (c.do_prepare db name sql a).conn.conn = none := by
  obtain ⟨e, db', carried, hr⟩ := h.runQuery c db ⟨c_str sql.text, [], .prepare (c_str name)⟩
  unfold do_prepare
  rw [if_neg uncached, hr]
  dsimp only
  split <;> rfl

/-- With a stale cache `execPrepared` throws, whatever the retry would have got. -/
theorem stale_cache_throws {c : PgConnection ε} {name : Str} {a : PreparedAnswers}
    (h : StaleCache c name a) (db : List ε) (sql : Sql ε) (params : List (Option Str)) :
    ∃ e, (c.execPrepared db name sql params a).result = .error e := by
  unfold execPrepared
  rcases ensure_connected_cases c a.connect with hc | ⟨e, c', hc, _⟩
  swap
  · rw [hc]
    exact ⟨e, rfl⟩
  rw [hc]
  dsimp only
  -- the execution fails: the server says so, or PREPARE has closed the connection
  have fails : ∀ req, ∃ e db' carried,
      runQueryWithTimeout (c.ready.do_prepare db name sql a.prepare).conn
        (c.ready.do_prepare db name sql a.prepare).db req a.query =
          ⟨.error e, (c.ready.do_prepare db name sql a.prepare).conn.close, db', carried⟩ := by
    intro req
    cases h with
    | forgotten _ _ reported => exact reported.runQuery _ _ req
    | duplicate _ uncached reported =>
      obtain ⟨e, he⟩ := runQuery_closed (do_prepare_reported reported uncached db sql) _ req a.query
      exact ⟨e, _, _, he⟩
  split
  · exact ⟨_, rfl⟩
  · obtain ⟨e, db', carried, hr⟩ := fails ⟨c_str name, paramValues params, sql.command⟩
    obtain ⟨e', c', _, hx⟩ := execOrRetry_failed name sql hr
    exact ⟨e', by rw [hx]⟩

/-- The session was reset behind the object's back; PREPARE and a second execution work. -/
def resetSession : PgConnection ℕ := ⟨some ⟨.CONNECTION_OK, none, .fresh⟩, true, ["q".toList]⟩

def resetAnswers : PreparedAnswers where
  connect := .reached
  prepare := ExecAnswers.completed.query
  query := { ExecAnswers.rejected.query with results :=
    [⟨.PGRES_FATAL_ERROR, [], [], some (notPreparedText "q".toList), some "26000".toList⟩] }
  reprepare := ExecAnswers.completed.query
  retry := ExecAnswers.completed.query

theorem resetSession_stale : StaleCache resetSession "q".toList resetAnswers :=
  .forgotten rfl (.inl (by decide)) ⟨rfl, rfl, rfl, rfl⟩ ⟨rfl, rfl⟩ ⟨rfl, rfl⟩

theorem stale_cache_throws_reset :
    ∃ e, (resetSession.execPrepared [] "q".toList ⟨"SELECT".toList, .data []⟩ []
      resetAnswers).result = .error e :=
  stale_cache_throws resetSession_stale [] ⟨"SELECT".toList, .data []⟩ []

/-- The caller gets the server's complaint, and the connection is closed. -/
theorem reset_session_not_recovered :
    StaleCache resetSession "q".toList resetAnswers ∧
      (resetSession.execPrepared [] "q".toList ⟨"SELECT".toList, .data []⟩ []
        resetAnswers).result = .error (.db .Unknown (notPreparedText "q".toList)) ∧
      (resetSession.execPrepared [] "q".toList ⟨"SELECT".toList, .data []⟩ []
        resetAnswers).conn.conn = none :=
  ⟨resetSession_stale, by decide +kernel, by decide +kernel⟩

end AdequateApi.DbConnection
