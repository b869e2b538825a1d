import AdequateApi.ChannelQueue
import AdequateApi.DbTransaction
import AdequateApi.PoolBreaker
import AdequateApi.TransitionRuns

/-! `PgPool` and the coroutines that use it. A step runs one coroutine from one `co_await`
to the next, or one closure that was dispatched to the strand. Tasks in the lists below are
the suspended ones, so a schedule of steps is an arbitrary interleaving. -/
namespace AdequateApi.PoolModel
open ChannelQueue DbConnection DbTransaction PoolBreaker TransitionRuns StdString

abbrev ConnId := ℕ

/-- Who acquires: `PgPool::query`, `Transaction::begin` until its BEGIN has returned, a
`Transaction` in the hands of its owner, or another caller of `acquire`. -/
inductive Holder
  | query
  | opening
  | transaction
  | caller
  deriving DecidableEq, Repr

structure Task where
  ticket : ℕ
  holder : Holder
  deriving DecidableEq, Repr

structure Lease where
  ticket : ℕ
  holder : Holder
  conn : ConnId
  deriving DecidableEq, Repr

/-- The first six fields are the members of `PgPool`, with `idle_` from back to front. Then
come the coroutines: acquires inside `connect()`, acquires whose message is on its way,
leases outstanding, and closures dispatched by `release`. `probe` and `existing` are
bookkeeping for the statements: the acquire last admitted while the breaker was not Closed,
and the connected objects not yet destroyed. -/
structure State (ε : Type) where
  size : ℕ
  breaker : CircuitBreaker
  idle : List ConnId
  created_at : ℕ
  stopping : Bool
  channel : Channel Task ConnId
  connecting : List Lease
  handed : List Lease
  leased : List Lease
  releasing : List ConnId
  heap : ConnId → PgConnection ε
  next : ConnId
  db : List ε
  tickets : ℕ
  probe : Option ℕ
  existing : List ConnId

variable {ε : Type}

namespace State

def init (ε : Type) (size : ℕ) : State ε where
  size := size
  breaker := {}
  idle := []
  created_at := 0
  stopping := false
  channel := .empty (if size = 0 then 1 else size)
  connecting := []
  handed := []
  leased := []
  releasing := []
  heap := fun _ => .create
  next := 0
  db := []
  tickets := 0
  probe := none
  existing := []

/-- The object behind `c` and the database after a call on it. -/
def store (s : State ε) (c : ConnId) (k : PgConnection ε) (db : List ε) : State ε :=
  { s with heap := Function.update s.heap c k, db := db }

/-- The last reference to `c` goes away. -/
def destroy (s : State ε) (c : ConnId) : State ε :=
  { s with heap := Function.update s.heap c (s.heap c).close, existing := s.existing.erase c }

/-- `breaker_.allow(now)` for the acquire that draws the next ticket. -/
def enter (s : State ε) (now : ℤ) : State ε :=
  { s with
    breaker := (s.breaker.allow now).2
    tickets := s.tickets + 1
    probe := if (s.breaker.allow now).1 ∧ s.breaker.state ≠ .Closed then some s.tickets
      else s.probe }

/-- `make_or_wait` up to its first suspension; an error is an exception thrown before it. -/
def make_or_wait (s : State ε) (holder : Holder) (now : ℤ) : Except Str Unit × State ε :=
  if s.stopping then (.error "PgPool is shutting down".toList, s)
  else
    let admitted := (s.breaker.allow now).1
    let ticket := s.tickets
    let s := s.enter now
    if !admitted then
      (.error "Database temporarily unavailable (circuit open)".toList, s)
    else
      match s.idle with
      | c :: rest =>
          (.ok (), { s with idle := rest, leased := ⟨ticket, holder, c⟩ :: s.leased })
      | [] =>
          if s.created_at < s.size then
            (.ok (), { s with
              connecting := ⟨ticket, holder, s.next⟩ :: s.connecting
              heap := Function.update s.heap s.next .create
              next := s.next + 1 })
          else
            match s.channel.async_receive ⟨ticket, holder⟩ with
            | (ch, .message c) =>
                (.ok (), { s with channel := ch, handed := ⟨ticket, holder, c⟩ :: s.handed })
            | (ch, .waits) => (.ok (), { s with channel := ch })
            | (ch, .closed) => (.error "Channel closed".toList, { s with channel := ch })

/-- `make_or_wait` from the end of `connect()` on. -/
def finish_connect (s : State ε) (ℓ : Lease) (a : ConnectAnswers) (now : ℤ) : State ε :=
  let s := { s with connecting := s.connecting.erase ℓ }
  match (s.heap ℓ.conn).connect a with
  | (.ok (), k) =>
      { s.store ℓ.conn k s.db with
        created_at := s.created_at + 1
        breaker := s.breaker.on_success
        leased := ℓ :: s.leased
        existing := ℓ.conn :: s.existing }
  | (.error _, k) =>
      { s.store ℓ.conn k.close s.db with breaker := s.breaker.on_failure now }

/-- `PgPool::query` from the end of `execParams` on; each exit calls the lease's release. -/
def finish_query (s : State ε) (ℓ : Lease) (sql : Sql ε) (params : List (Option Str))
    (a : ExecAnswers) (now : ℤ) : State ε :=
  let r := (s.heap ℓ.conn).execParams s.db sql params a
  let s := { s.store ℓ.conn r.conn r.db with
    leased := s.leased.erase ℓ, releasing := ℓ.conn :: s.releasing }
  match r.result with
  | .ok _ => { s with breaker := s.breaker.on_success }
  | .error (.db _ _) => s
  | .error (.infra _) => { s with breaker := s.breaker.on_failure now }

/-- `Transaction::begin` from the end of BEGIN on. When BEGIN throws, the lease goes out of
scope and nobody calls its release. -/
def finish_begin (s : State ε) (ℓ : Lease) (a : ExecAnswers) : State ε :=
  let r := Transaction.begin (s.heap ℓ.conn) s.db a
  let s := { s.store ℓ.conn r.conn r.db with leased := s.leased.erase ℓ }
  match r.result with
  | .ok _ => { s with leased := { ℓ with holder := .transaction } :: s.leased }
  | .error _ => s.destroy ℓ.conn

def run_call (s : State ε) (ℓ : Lease) (q : Call ε) : State ε :=
  let r := q.run (s.heap ℓ.conn) s.db
  s.store ℓ.conn r.conn r.db

/-- `Transaction::commit` and `rollback`, with the release they call. -/
def finish_transaction (s : State ε) (ℓ : Lease) (r : Ended ε) : State ε :=
  let s := s.store ℓ.conn r.conn r.db
  if r.released then
    { s with leased := s.leased.erase ℓ, releasing := ℓ.conn :: s.releasing }
  else s

/-- The closure that `PgPool::release` dispatches. -/
def release (s : State ε) (c : ConnId) : State ε :=
  let s := { s with releasing := s.releasing.erase c }
  if s.stopping then { s.destroy c with created_at := s.created_at - 1 }
  else if !(s.heap c).healthy then { s.destroy c with created_at := s.created_at - 1 }
  else
    match s.channel.try_send c with
    | (ch, .delivered t) =>
        { s with channel := ch, handed := ⟨t.ticket, t.holder, c⟩ :: s.handed }
    | (ch, .buffered) => { s with channel := ch }
    | (ch, .refused) => { s with channel := ch, idle := c :: s.idle }

/-- Waiting receivers are cancelled, so their acquires throw. -/
def shutdown (s : State ε) : State ε :=
  { s with
    stopping := true
    channel := s.channel.close
    idle := []
    created_at := 0
    heap := fun c => if c ∈ s.idle then (s.heap c).close else s.heap c
    existing := s.existing.filter (· ∉ s.idle) }

end State

inductive Event (ε : Type)
  | acquire (holder : Holder) (now : ℤ)
  | connected (ℓ : Lease) (a : ConnectAnswers) (now : ℤ)
  | received (ℓ : Lease)
  | queried (ℓ : Lease) (sql : Sql ε) (params : List (Option Str)) (a : ExecAnswers) (now : ℤ)
  | begun (ℓ : Lease) (a : ExecAnswers)
  | statement (ℓ : Lease) (q : Call ε)
  | commit (ℓ : Lease) (a : ExecAnswers)
  | rollback (ℓ : Lease) (a : ExecAnswers)
  | abandon (ℓ : Lease)
  | release (ℓ : Lease)
  | released (c : ConnId)
  | shutdown

/-- A lease's release is called at most once: the lease is gone from `leased` by then. -/
def step (s : State ε) : Event ε → Option (State ε)
  | .acquire holder now =>
      if holder = .transaction then none else some (s.make_or_wait holder now).2
  | .connected ℓ a now => if ℓ ∈ s.connecting then some (s.finish_connect ℓ a now) else none
  | .received ℓ =>
      if ℓ ∈ s.handed then some { s with handed := s.handed.erase ℓ, leased := ℓ :: s.leased }
      else none
  | .queried ℓ sql params a now =>
      if ℓ ∈ s.leased ∧ ℓ.holder = .query then some (s.finish_query ℓ sql params a now) else none
  | .begun ℓ a =>
      if ℓ ∈ s.leased ∧ ℓ.holder = .opening then some (s.finish_begin ℓ a) else none
  | .statement ℓ q =>
      if ℓ ∈ s.leased ∧ (ℓ.holder = .transaction ∨ ℓ.holder = .caller) then some (s.run_call ℓ q)
      else none
  | .commit ℓ a =>
      if ℓ ∈ s.leased ∧ ℓ.holder = .transaction then
        some (s.finish_transaction ℓ (Transaction.commit (s.heap ℓ.conn) s.db a))
      else none
  | .rollback ℓ a =>
      if ℓ ∈ s.leased ∧ ℓ.holder = .transaction then
        some (s.finish_transaction ℓ (Transaction.rollback (s.heap ℓ.conn) s.db a))
      else none
  | .abandon ℓ =>
      if ℓ ∈ s.leased ∧ (ℓ.holder = .transaction ∨ ℓ.holder = .caller) then
        some { s.destroy ℓ.conn with leased := s.leased.erase ℓ }
      else none
  | .release ℓ =>
      if ℓ ∈ s.leased ∧ ℓ.holder = .caller then
        some { s with leased := s.leased.erase ℓ, releasing := ℓ.conn :: s.releasing }
      else none
  | .released c => if c ∈ s.releasing then some (s.release c) else none
  | .shutdown => some s.shutdown

end AdequateApi.PoolModel
