import AdequateApi.SessionServer
import AdequateApi.StdString

/-! `PgConnection` over libpq. What libpq and the server answer during one call is an input
of that call; a list of answers that runs out means that the deadline passes first. -/
namespace AdequateApi.DbConnection
open SessionServer StdString

inductive DbErrorCode
  | UniqueViolation
  | ForeignKeyViolation
  | NotNullViolation
  | Unknown
  deriving DecidableEq, Repr

def map_sqlstate (state : Str) : DbErrorCode :=
  if state = "23505".toList then .UniqueViolation
  else if state = "23503".toList then .ForeignKeyViolation
  else if state = "23502".toList then .NotNullViolation
  else .Unknown

/-- A `DbError`, or any other exception of the connection layer. -/
inductive PgError
  | db (code : DbErrorCode) (what : Str)
  | infra (what : Str)
  deriving DecidableEq, Repr

def PgError.what : PgError → Str
  | .db _ what => what
  | .infra what => what

structure PgValue where
  data : Str
  is_null : Bool
  deriving DecidableEq, Repr

structure PgRow where
  columns : List PgValue
  deriving DecidableEq, Repr

structure PgResult where
  columns_names : List Str
  rows : List PgRow
  deriving DecidableEq, Repr

/-! ### libpq -/

inductive ConnStatus
  | CONNECTION_OK
  | CONNECTION_BAD
  deriving DecidableEq, Repr

/-- What a `PQsend*` call puts on the wire, and what the server makes of it. -/
structure Request (ε : Type) where
  text : Str
  values : List (Option Str)
  command : Command ε Str
  deriving DecidableEq, Repr

/-- `inflight`: a request was sent and its results are not all read yet. -/
structure PGconn (ε : Type) where
  status : ConnStatus
  inflight : Option (Request ε)
  session : Session ε Str
  deriving DecidableEq, Repr

inductive ExecStatus
  | PGRES_TUPLES_OK
  | PGRES_COMMAND_OK
  | PGRES_BAD_RESPONSE
  | PGRES_FATAL_ERROR
  | other
  deriving DecidableEq, Repr

structure PGresult where
  status : ExecStatus
  fnames : List (Option Str)
  tuples : List (List (Option Str))
  errorMessage : Option Str
  sqlstate : Option Str
  deriving DecidableEq, Repr

/-- One wait on the socket. -/
inductive Wait
  | ready
  | timed_out
  | failed (message : Str)
  deriving DecidableEq, Repr

inductive Polling
  | PGRES_POLLING_OK
  | PGRES_POLLING_FAILED
  | PGRES_POLLING_READING (wait : Wait)
  | PGRES_POLLING_WRITING (wait : Wait)
  | other
  deriving DecidableEq, Repr

/-- Answers to one `connect`. -/
structure ConnectAnswers where
  started : Bool
  nonblocking : Bool
  socket : Bool
  polls : List Polling
  message : Str
  deriving DecidableEq, Repr

inductive Flush
  | flushed
  | again (wait : Wait)
  | error
  deriving DecidableEq, Repr

/-- One turn of the receive loop: the wait, `PQconsumeInput` and `PQisBusy`. -/
structure Turn where
  readable : Wait
  consumed : Bool
  busy : Bool
  deriving DecidableEq, Repr

/-- Answers to one command; `carried_out` tells whether the server had executed it when the
exchange broke off. -/
structure Answers where
  accepted : Bool
  flushes : List Flush
  turns : List Turn
  results : List PGresult
  carried_out : Bool
  message : Str
  deriving DecidableEq, Repr

/-! ### The connection object -/

/-- `conn_`, whether `stream_descriptor_` is engaged, and `prepared_`. -/
structure PgConnection (ε : Type) where
  conn : Option (PGconn ε)
  stream_descriptor : Bool
  prepared : List Str
  deriving DecidableEq, Repr

variable {ε : Type}

namespace PgConnection

/-- A new object, before `connect`. -/
def create : PgConnection ε := ⟨none, false, []⟩

def healthy (c : PgConnection ε) : Bool :=
  match c.conn with
  | none => false
  | some k => k.status = .CONNECTION_OK

/-- `PQfinish` ends the server session; `prepared_` is left as it is. -/
def close (c : PgConnection ε) : PgConnection ε :=
  { c with conn := none, stream_descriptor := false }

end PgConnection

def throw_pg_error (connected : Bool) (em what : Str) : PgError :=
  .infra (what ++ ": ".toList ++ if connected then em else "No connection".toList)

/-- `wait_readable` and `wait_writable`; without a descriptor they return at once. -/
def waitFor (descriptor : Bool) (what : Str) : Wait → Except PgError Unit
  | .ready => .ok ()
  | .timed_out =>
      if descriptor then .error (.infra (what ++ " timeout".toList)) else .ok ()
  | .failed m =>
      if descriptor then .error (.infra (what ++ " failed: ".toList ++ m)) else .ok ()

def wait_readable (descriptor : Bool) : Wait → Except PgError Unit :=
  waitFor descriptor "postgres wait_readable".toList

def wait_writable (descriptor : Bool) : Wait → Except PgError Unit :=
  waitFor descriptor "postgres wait_writable".toList

/-- The poll loop of `connect`; the descriptor is engaged by then. -/
def pollLoop (message : Str) : List Polling → Except PgError Unit
  | [] => .error (.infra "postgres wait_readable timeout".toList)
  | .PGRES_POLLING_OK :: _ => .ok ()
  | .PGRES_POLLING_FAILED :: _ =>
      .error (throw_pg_error true message "PQconnectPoll failed".toList)
  | .PGRES_POLLING_READING w :: rest => do
      wait_readable true w
      pollLoop message rest
  | .PGRES_POLLING_WRITING w :: rest => do
      wait_writable true w
      pollLoop message rest
  | .other :: rest => pollLoop message rest

namespace PgConnection

/-- A handle whose connection is not established. -/
def pendingHandle : PGconn ε := ⟨.CONNECTION_BAD, none, .fresh⟩

def connect (c : PgConnection ε) (a : ConnectAnswers) :
    Except PgError Unit × PgConnection ε :=
  if c.healthy then (.ok (), c)
  else
    let closed := c.close
    if !a.started then
      (.error (.infra "PQconnectStart returned nullptr".toList), closed)
    else
      let begun := { closed with conn := some pendingHandle }
      if !a.nonblocking then
        (.error (throw_pg_error true a.message "PQsetnonblocking raised an error".toList), begun)
      else if !a.socket then
        (.error (throw_pg_error true a.message "PQsocket".toList), begun)
      else
        match pollLoop a.message a.polls with
        | .error e => (.error e, { begun with stream_descriptor := true })
        | .ok () =>
            (.ok (), { conn := some ⟨.CONNECTION_OK, none, .fresh⟩,
                       stream_descriptor := true, prepared := [] })

def ensure_connected (c : PgConnection ε) (a : ConnectAnswers) :
    Except PgError Unit × PgConnection ε :=
  if !c.healthy then c.connect a else (.ok (), c)

end PgConnection

/-! ### One command -/

def buildResult (r : PGresult) : PgResult where
  columns_names := r.fnames.map fun n => n.getD []
  rows := r.tuples.map fun t => ⟨t.map fun
    | none => ⟨[], true⟩
    | some val => ⟨val, false⟩⟩

def flushLoop (descriptor : Bool) (message : Str) : List Flush → Except PgError Unit
  | [] => .error (.infra "postgres wait_writable timeout".toList)
  | .flushed :: _ => .ok ()
  | .again w :: rest => do
      wait_writable descriptor w
      flushLoop descriptor message rest
  | .error :: _ => .error (throw_pg_error true message "PQflush error".toList)

def receiveLoop (descriptor : Bool) (message : Str) : List Turn → Except PgError Unit
  | [] => .error (.infra "postgres wait_readable timeout".toList)
  | t :: rest => do
      wait_readable descriptor t.readable
      if !t.consumed then .error (throw_pg_error true message "PQconsumeInput".toList)
      else if t.busy then receiveLoop descriptor message rest
      else .ok ()

/-- Drain all results until `PQgetResult` returns null; the last row set wins, and a
command without rows only counts as long as there is no result yet. -/
def drain (out : PgResult) (have_result : Bool) : List PGresult → Except PgError PgResult
  | [] => .ok (if have_result then out else ⟨[], []⟩)
  | r :: rest =>
      match r.status with
      | .PGRES_TUPLES_OK => drain (buildResult r) true rest
      | .PGRES_COMMAND_OK =>
          if have_result then drain out true rest else drain ⟨[], []⟩ true rest
      | .PGRES_BAD_RESPONSE | .PGRES_FATAL_ERROR =>
          .error (.db (map_sqlstate (r.sqlstate.getD "XXXXX".toList))
            (r.errorMessage.getD "query error".toList))
      | .other => drain out have_result rest

/-- How a call ended: its result, the object, the store, and whether the server carried
the statement out. -/
structure Exec (ε α : Type) where
  result : Except PgError α
  conn : PgConnection ε
  db : List ε
  carried : Bool
  deriving Repr

/-- libpq takes a new request only on an established, idle connection. -/
def PGconn.accepts (k : PGconn ε) (a : Answers) : Bool :=
  a.accepted && k.inflight.isNone && k.status = .CONNECTION_OK

/-- Everything between a successful `PQsend*` and the last `PQgetResult`. -/
def exchange (descriptor : Bool) (a : Answers) : Except PgError PgResult := do
  flushLoop descriptor a.message a.flushes
  receiveLoop descriptor a.message a.turns
  drain ⟨[], []⟩ false a.results

/-- `runQueryWithTimeout`: every exception cancels the command and closes the connection.
The server has executed the command when all results were read without an error, and has
rejected it when one of them was an error; otherwise `carried_out` tells. -/
def runQueryWithTimeout (c : PgConnection ε) (db : List ε) (req : Request ε) (a : Answers) :
    Exec ε PgResult :=
  match c.conn with
  | none =>
      ⟨.error (throw_pg_error false a.message "PQsend* failed".toList), c.close, db, false⟩
  | some k =>
      if !k.accepts a then
        ⟨.error (throw_pg_error true a.message "PQsend* failed".toList), c.close, db, false⟩
      else
        let k := { k with inflight := some req }
        match exchange c.stream_descriptor a with
        | .ok out =>
            let done := k.session.execute req.command
            ⟨.ok out, { c with conn := some { k with inflight := none, session := done.1 } },
              db ++ done.2, true⟩
        | .error (.db code what) => ⟨.error (.db code what), c.close, db, false⟩
        | .error (.infra what) =>
            if a.carried_out then
              ⟨.error (.infra what), c.close, db ++ (k.session.execute req.command).2, true⟩
            else ⟨.error (.infra what), c.close, db, false⟩

/-- An SQL text and what the server makes of it. -/
structure Sql (ε : Type) where
  text : Str
  command : Command ε Str
  deriving DecidableEq, Repr

/-- The `values` array: C strings, null for an absent parameter. -/
def paramValues (params : List (Option Str)) : List (Option Str) :=
  params.map fun param => param.map c_str

structure ExecAnswers where
  connect : ConnectAnswers
  query : Answers
  deriving DecidableEq, Repr

structure PreparedAnswers where
  connect : ConnectAnswers
  prepare : Answers
  query : Answers
  reprepare : Answers
  retry : Answers
  deriving DecidableEq, Repr

def is_already_exists_error (err : Str) : Bool :=
  contains err "42P05".toList || contains err "duplicate_prepared_statement".toList
    || contains err "already exists".toList

def is_invalid_prepared_stmt_error (err : Str) : Bool :=
  contains err "26000".toList || contains err "invalid prepared statement".toList
    || contains err "invalid_sql_statement_name".toList

namespace PgConnection

def execParams (c : PgConnection ε) (db : List ε) (sql : Sql ε) (params : List (Option Str))
    (a : ExecAnswers) : Exec ε PgResult :=
  match c.ensure_connected a.connect with
  | (.error e, c) => ⟨.error e, c, db, false⟩
  | (.ok (), c) =>
      runQueryWithTimeout c db ⟨c_str sql.text, paramValues params, sql.command⟩ a.query

/-- The lambda `do_prepare` of `execPrepared`. The statement gets its name as a C string. -/
def do_prepare (c : PgConnection ε) (db : List ε) (name : Str) (sql : Sql ε) (a : Answers) :
    Exec ε Unit :=
  if name ∈ c.prepared then ⟨.ok (), c, db, false⟩
  else
    let r := runQueryWithTimeout c db ⟨c_str sql.text, [], .prepare (c_str name)⟩ a
    match r.result with
    | .ok _ => ⟨.ok (), { r.conn with prepared := name :: r.conn.prepared }, r.db, false⟩
    | .error e =>
        if is_already_exists_error e.what then
          ⟨.ok (), { r.conn with prepared := name :: r.conn.prepared }, r.db, false⟩
        else ⟨.error e, r.conn, r.db, false⟩

/-- `execPrepared` from `send_exec` on: one execution, and a second one after preparing
again when the server did not know the statement. -/
def execOrRetry (c : PgConnection ε) (db : List ε) (name : Str) (sql : Sql ε)
    (req : Request ε) (a : PreparedAnswers) : Exec ε PgResult :=
  let r := runQueryWithTimeout c db req a.query
  match r.result with
  | .ok _ => r
  | .error e =>
      if is_invalid_prepared_stmt_error e.what then
        let erased := { r.conn with prepared := r.conn.prepared.filter (· ≠ name) }
        let p := erased.do_prepare r.db name sql a.reprepare
        match p.result with
        | .error e => ⟨.error e, p.conn, p.db, r.carried⟩
        | .ok () =>
            let t := runQueryWithTimeout p.conn p.db req a.retry
            { t with carried := r.carried || t.carried }
      else r

def execPrepared (c : PgConnection ε) (db : List ε) (stmtName : Str)
    (sqlIfPrepareNeeded : Sql ε) (params : List (Option Str)) (a : PreparedAnswers) :
    Exec ε PgResult :=
  match c.ensure_connected a.connect with
  | (.error e, c) => ⟨.error e, c, db, false⟩
  | (.ok (), c) =>
      let p := c.do_prepare db stmtName sqlIfPrepareNeeded a.prepare
      match p.result with
      | .error e => ⟨.error e, p.conn, p.db, false⟩
      | .ok () =>
          p.conn.execOrRetry p.db stmtName sqlIfPrepareNeeded
            ⟨c_str stmtName, paramValues params, sqlIfPrepareNeeded.command⟩ a

def begin (c : PgConnection ε) (db : List ε) (a : ExecAnswers) : Exec ε PgResult :=
  c.execParams db ⟨"BEGIN".toList, .begin⟩ [] a

def commit (c : PgConnection ε) (db : List ε) (a : ExecAnswers) : Exec ε PgResult :=
  c.execParams db ⟨"COMMIT".toList, .commit⟩ [] a

def rollback (c : PgConnection ε) (db : List ε) (a : ExecAnswers) : Exec ε PgResult :=
  c.execParams db ⟨"ROLLBACK".toList, .rollback⟩ [] a

end PgConnection

/-! ### Some complete exchanges -/

def ConnectAnswers.reached : ConnectAnswers := ⟨true, true, true, [.PGRES_POLLING_OK], []⟩

def ConnectAnswers.unreachable : ConnectAnswers := ⟨true, true, true, [.PGRES_POLLING_FAILED], []⟩

def ExecAnswers.completed : ExecAnswers where
  connect := .reached
  query := ⟨true, [.flushed], [⟨.ready, true, false⟩], [⟨.PGRES_COMMAND_OK, [], [], none, none⟩],
    false, []⟩

/-- The server reports a unique violation. -/
def ExecAnswers.rejected : ExecAnswers where
  connect := .reached
  query := ⟨true, [.flushed], [⟨.ready, true, false⟩],
    [⟨.PGRES_FATAL_ERROR, [], [], some "duplicate key".toList, some "23505".toList⟩], false, []⟩

end AdequateApi.DbConnection
