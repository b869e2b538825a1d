import AdequateApi.AnswerKinds

/-! Connections. On each of them requests are read, dispatched and answered in turn until an
answer or a failure ends it. The listener runs one coroutine for each connection; here they take
turns at reading and writing in any order, but a request is dispatched to its end before another
one is: the points inside `dispatch` where a handler waits are not among the turns. -/
namespace AdequateApi.HttpSession
open StdString HttpMessages AccountStore AccountServices AccountCreation RouterModel ServerStep
  AnswerKinds

/-! ### The session -/

/-- What is read from the socket: a message, or the text of a system error. -/
inductive Incoming
  | message (request : Request)
  | failed (what : Str)

/-- A turn of the loop: what is read, what the dispatch meets, and the failure of the write. -/
structure Exchange where
  incoming : Incoming
  surroundings : Surroundings
  write : Option Str

/-- The parser reads no longer body than the router takes. -/
def receive (env : EnvConfig) : Incoming → Except Str Request
  | .failed what => .error what
  | .message request =>
      if env.file_upload_limit_size < request.body.length then
        .error "body limit exceeded".toList
      else .ok request

def sessionError (what : Str) : LogRecord := warnText "Session error: " what

def sessionException (e : Exn) : LogRecord :=
  ⟨.ERR, "Session exception: ".toList ++ c_str e.what, []⟩

variable {app : Application}

/-- Where a session stands: the store, the answers that were written, its own records, and whether
it reads on. -/
structure Session (app : Application) where
  store : Store app
  written : List Response
  log : List LogRecord
  reading : Bool

/-- `HttpSession::run`. -/
def run (st : Store app) : List Exchange → Session app
  | [] => ⟨st, [], [], true⟩
  | x :: rest =>
      match receive app.env x.incoming with
      | .error what => ⟨st, [], [sessionError what], false⟩
      | .ok request =>
          match st.step x.surroundings request with
          -- no handler catches it, and nobody waits for the coroutine
          | (t, .error .other) => ⟨t, [], [], false⟩
          | (t, .error e) => ⟨t, [], [sessionException e], false⟩
          | (t, .ok response) =>
              match x.write with
              | some what => ⟨t, [], [sessionError what], false⟩
              | none =>
                  if response.keep_alive then
                    let later := run t rest
                    { later with written := response :: later.written }
                  else ⟨t, [response], [], false⟩

/-! ### One turn -/

theorem step_parts {st t : Store app} {e : Surroundings} {request : Request}
    {answer : Except Exn Response} (h : st.step e request = (t, answer)) :
    (st.step e request).1 = t ∧ (st.step e request).2 = answer := by
  rw [h]
  exact ⟨rfl, rfl⟩

/-- How a turn ends. -/
inductive Turn (st : Store app) (x : Exchange) (rest : List Exchange) : Session app → Prop
  | unread (what : Str) (h : receive app.env x.incoming = .error what) :
      Turn st x rest ⟨st, [], [sessionError what], false⟩
  | unanswered (request : Request) (h : receive app.env x.incoming = .ok request)
      (log : List LogRecord)
      (hanswer : (∃ e, (st.step x.surroundings request).2 = .error e) ∨ x.write.isSome) :
      Turn st x rest ⟨(st.step x.surroundings request).1, [], log, false⟩
  | last (request : Request) (h : receive app.env x.incoming = .ok request) (response : Response)
      (hanswer : (st.step x.surroundings request).2 = .ok response)
      (hclose : response.keep_alive = false) :
      Turn st x rest ⟨(st.step x.surroundings request).1, [response], [], false⟩
  | next (request : Request) (h : receive app.env x.incoming = .ok request) (response : Response)
      (hanswer : (st.step x.surroundings request).2 = .ok response)
      (hkeep : response.keep_alive = true) :
      Turn st x rest
        { run (st.step x.surroundings request).1 rest with
          written := response :: (run (st.step x.surroundings request).1 rest).written }

theorem run_turn (st : Store app) (x : Exchange) (rest : List Exchange) :
    Turn st x rest (run st (x :: rest)) := by
  rw [run]
  cases hreceive : receive app.env x.incoming with
  | error what => exact .unread what hreceive
  | ok request =>
    dsimp only
    cases hstep : st.step x.surroundings request with
    | mk t answer =>
      obtain ⟨rfl, hanswer⟩ := step_parts hstep
      cases answer with
      | error e =>
        have hunanswered : ∀ log, Turn st x rest
            ⟨(st.step x.surroundings request).1, [], log, false⟩ :=
          fun log => .unanswered request hreceive log (.inl ⟨e, hanswer⟩)
        cases e <;> exact hunanswered _
      | ok response =>
        dsimp only
        cases hwrite : x.write with
        | some what =>
          exact .unanswered request hreceive _ (.inr (by rw [hwrite]; rfl))
        | none =>
          dsimp only
          split
          · rename_i hkeep
            exact .next request hreceive response hanswer hkeep
          · rename_i hclose
            exact .last request hreceive response hanswer (by simpa using hclose)

/-! ### Whole sessions -/

/-- No request in a session is over the limit. -/
theorem receive_size {env : EnvConfig} {incoming : Incoming} {request : Request}
    (h : receive env incoming = .ok request) :
    request.body.length ≤ env.file_upload_limit_size := by
  cases incoming with
  | failed what => cases h
  | message r =>
    rw [receive] at h
    split at h
    · cases h
    · rename_i hsize
      cases h
      exact Nat.le_of_not_lt hsize

theorem step_framed {st : Store app} {x : Exchange} {request : Request} {response : Response}
    (h : receive app.env x.incoming = .ok request)
    (hanswer : (st.step x.surroundings request).2 = .ok response) :
    Framed response ∧ response.status ≠ 413 := by
  obtain ⟨event, _, hreply⟩ := step_reply hanswer
  obtain ⟨_, hframed, hlarge⟩ := hreply.kind
  exact ⟨hframed, fun h413 => absurd (hlarge h413) (Nat.not_lt.mpr (receive_size h))⟩

theorem session_framed (st : Store app) (xs : List Exchange) :
    ∀ response ∈ (run st xs).written, Framed response ∧ response.status ≠ 413 := by
  induction xs generalizing st with
  | nil => exact fun _ h => absurd h List.not_mem_nil
  | cons x rest ih =>
    have hturn := run_turn st x rest
    generalize run st (x :: rest) = session at hturn ⊢
    cases hturn with
    | unread what h => exact fun _ h => absurd h List.not_mem_nil
    | unanswered request h log hanswer => exact fun _ h => absurd h List.not_mem_nil
    | last request h response hanswer hclose =>
      exact List.forall_mem_singleton.mpr (step_framed h hanswer)
    | next request h response hanswer hkeep =>
      exact List.forall_mem_cons.mpr ⟨step_framed h hanswer, ih _⟩

/-- An answer that keeps the connection open is no error of the router. -/
theorem step_keeping {st : Store app} {e : Surroundings} {request : Request} {response : Response}
    (hanswer : (st.step e request).2 = .ok response) (hkeep : response.keep_alive = true) :
    response.status ∉ [400, 404, 405, 413, 415, 500] := by
  obtain ⟨event, _, hreply⟩ := step_reply hanswer
  obtain ⟨hkind, _, _⟩ := hreply.kind
  cases hkind with
  | closing status closes => exact absurd (closes.symm.trans hkeep) Bool.false_ne_true
  | keeping status keeps =>
    have h : response.status = 401 ∨ response.status = 200 := status.imp_right And.right
    rcases h with h | h <;> rw [h] <;> decide
  | mirroring status mirrors =>
    simp only [List.mem_cons, List.not_mem_nil, or_false] at status ⊢
    omega

/-- All answers in a session but the last keep it open. -/
theorem session_closing (st : Store app) (xs : List Exchange) :
    ∀ response ∈ (run st xs).written.dropLast,
      response.keep_alive = true ∧ response.status ∉ [400, 404, 405, 413, 415, 500] := by
  induction xs generalizing st with
  | nil => exact fun _ h => absurd h List.not_mem_nil
  | cons x rest ih =>
    have hturn := run_turn st x rest
    generalize run st (x :: rest) = session at hturn ⊢
    cases hturn with
    | unread what h => exact fun _ h => absurd h List.not_mem_nil
    | unanswered request h log hanswer => exact fun _ h => absurd h List.not_mem_nil
    | last request h response hanswer hclose => exact fun _ h => absurd h List.not_mem_nil
    | next request h response hanswer hkeep =>
      have hlater := ih (st.step x.surroundings request).1
      intro answer hmem
      dsimp only at hmem
      cases hwritten : (run (st.step x.surroundings request).1 rest).written with
      | nil =>
        rw [hwritten] at hmem
        exact absurd hmem List.not_mem_nil
      | cons second others =>
        rw [hwritten] at hmem hlater
        rw [List.dropLast_cons_cons, List.mem_cons] at hmem
        rcases hmem with rfl | hmem
        · exact ⟨hkeep, step_keeping hanswer hkeep⟩
        · exact hlater answer hmem

theorem session_reading_iff (st : Store app) (xs : List Exchange) :
    (run st xs).reading = true ↔ (run st xs).written.length = xs.length ∧
      ∀ response ∈ (run st xs).written, response.keep_alive = true := by
  induction xs generalizing st with
  | nil => simp [run]
  | cons x rest ih =>
    have hturn := run_turn st x rest
    generalize run st (x :: rest) = session at hturn ⊢
    cases hturn with
    | unread what h => simp
    | unanswered request h log hanswer => simp
    | last request h response hanswer hclose => simp [hclose]
    | next request h response hanswer hkeep => simp [hkeep, ih]

/-- A session reads on exactly when every message was answered with an answer that keeps it open.
Every answer says how long it is, and none that the body is too large: such a body ends the
session unanswered. An error of the router, or of a handler that throws, is the last answer. -/
theorem session_answers_in_turn (st : Store app) (xs : List Exchange) :
    ((run st xs).reading = true ↔ (run st xs).written.length = xs.length ∧
        ∀ response ∈ (run st xs).written, response.keep_alive = true) ∧
      (∀ response ∈ (run st xs).written, Framed response ∧ response.status ≠ 413) ∧
      ∀ response ∈ (run st xs).written.dropLast,
        response.keep_alive = true ∧ response.status ∉ [400, 404, 405, 413, 415, 500] :=
  ⟨session_reading_iff st xs, session_framed st xs, session_closing st xs⟩

/-! ### Several connections -/

/-- Where the coroutine of a connection waits: for a message, for the end of a write, or nowhere
any more. -/
inductive Phase
  | reading
  | answering (response : Response) (write : Option Str)
  | ended

structure Connection where
  inbox : List Exchange
  phase : Phase
  written : List Response
  log : List LogRecord

structure Server (app : Application) where
  store : Store app
  connections : ℕ → Connection

/-- Every connection is new, and has these messages to read. -/
def accepted (st : Store app) (inboxes : ℕ → List Exchange) : Server app :=
  ⟨st, fun i => ⟨inboxes i, .reading, [], []⟩⟩

namespace Server

def set (s : Server app) (i : ℕ) (t : Store app) (c : Connection) : Server app :=
  ⟨t, Function.update s.connections i c⟩

/-- The coroutine of connection `i` runs on until it waits again. -/
def resume (s : Server app) (i : ℕ) : Server app :=
  let c := s.connections i
  match c.phase, c.inbox with
  | .reading, x :: rest =>
      match receive app.env x.incoming with
      | .error what =>
          s.set i s.store ⟨rest, .ended, c.written, c.log ++ [sessionError what]⟩
      | .ok request =>
          match s.store.step x.surroundings request with
          | (t, .error .other) => s.set i t ⟨rest, .ended, c.written, c.log⟩
          | (t, .error e) => s.set i t ⟨rest, .ended, c.written, c.log ++ [sessionException e]⟩
          | (t, .ok response) => s.set i t ⟨rest, .answering response x.write, c.written, c.log⟩
  | .answering _ (some what), inbox =>
      s.set i s.store ⟨inbox, .ended, c.written, c.log ++ [sessionError what]⟩
  | .answering response none, inbox =>
      s.set i s.store
        ⟨inbox, if response.keep_alive then .reading else .ended, c.written ++ [response], c.log⟩
  | _, _ => s

def resumeAll (s : Server app) (picks : List ℕ) : Server app := picks.foldl resume s

@[simp] theorem set_store (s : Server app) (i : ℕ) (t : Store app) (c : Connection) :
    (s.set i t c).store = t := rfl

@[simp] theorem set_self (s : Server app) (i : ℕ) (t : Store app) (c : Connection) :
    (s.set i t c).connections i = c := by simp [set]

theorem set_other (s : Server app) {i j : ℕ} (h : j ≠ i) (t : Store app) (c : Connection) :
    (s.set i t c).connections j = s.connections j := by simp [set, h]

end Server

/-- A coroutine that has ended does nothing. -/
theorem resumeAll_ended {s : Server app} {i : ℕ} (h : (s.connections i).phase = .ended) (n : ℕ) :
    s.resumeAll (List.replicate n i) = s := by
  have hresume : s.resume i = s := by
    unfold Server.resume
    dsimp only
    rw [h]
  induction n with
  | zero => rfl
  | succ n ih =>
    rw [List.replicate_succ, Server.resumeAll, List.foldl_cons, hresume]
    exact ih

/-- Left to itself, a connection runs as a session does. -/
theorem resumeAll_alone (s : Server app) (i : ℕ) {inbox : List Exchange}
    {written : List Response} {log : List LogRecord}
    (h : s.connections i = ⟨inbox, .reading, written, log⟩) :
    let t := s.resumeAll (List.replicate (2 * inbox.length) i)
    t.store = (run s.store inbox).store ∧
      (t.connections i).written = written ++ (run s.store inbox).written ∧
      (t.connections i).log = log ++ (run s.store inbox).log := by
  induction inbox generalizing s written log with
  | nil => simp [Server.resumeAll, run, h]
  | cons x rest ih =>
    have hpicks : List.replicate (2 * (x :: rest).length) i =
        i :: i :: List.replicate (2 * rest.length) i := by
      rw [List.length_cons, Nat.mul_add, Nat.mul_one]
      rfl
    have hends : ∀ t l, ((s.set i t ⟨rest, .ended, written, l⟩).resumeAll
        (i :: List.replicate (2 * rest.length) i)) = s.set i t ⟨rest, .ended, written, l⟩ :=
      fun t l => resumeAll_ended (n := 2 * rest.length + 1) (by rw [Server.set_self])
    have hfirst : s.resumeAll (i :: i :: List.replicate (2 * rest.length) i) =
        (s.resume i).resumeAll (i :: List.replicate (2 * rest.length) i) := rfl
    dsimp only
    rw [hpicks, hfirst]
    unfold Server.resume run
    rw [h]
    dsimp only
    cases hreceive : receive app.env x.incoming with
    | error what =>
      dsimp only
      rw [hends]
      simp
    | ok request =>
      dsimp only
      obtain ⟨t, answer⟩ := s.store.step x.surroundings request
      cases answer with
      | error e =>
        cases e <;> (dsimp only; rw [hends]; simp)
      | ok response =>
        dsimp only
        have hsecond : (s.set i t ⟨rest, .answering response x.write, written, log⟩).resumeAll
            (i :: List.replicate (2 * rest.length) i) =
            ((s.set i t ⟨rest, .answering response x.write, written, log⟩).resume i).resumeAll
              (List.replicate (2 * rest.length) i) := rfl
        rw [hsecond]
        unfold Server.resume
        rw [Server.set_self]
        dsimp only
        cases hwrite : x.write with
        | some what =>
          dsimp only
          rw [resumeAll_ended (by rw [Server.set_self])]
          simp
        | none =>
          dsimp only
          by_cases hkeep : response.keep_alive = true
          · rw [if_pos hkeep, if_pos hkeep, Server.set_store]
            obtain ⟨hstore, hwritten, hlog⟩ := ih
              ((s.set i t ⟨rest, .answering response none, written, log⟩).set i t
                ⟨rest, .reading, written ++ [response], log⟩) (Server.set_self _ _ _ _)
            exact ⟨hstore, by rw [hwritten, List.append_assoc]; rfl, hlog⟩
          · rw [if_neg hkeep, if_neg hkeep, resumeAll_ended (by rw [Server.set_self])]
            simp

/-- A request that was dispatched, with the connection it came on. -/
structure Service where
  connection : ℕ
  surroundings : Surroundings
  request : Request
  answer : Except Exn Response

def Service.asked (v : Service) : Surroundings × Request := (v.surroundings, v.request)

/-- What was dispatched for one connection. -/
def servicesOf (i : ℕ) (services : List Service) : List Service :=
  services.filter fun v => v.connection = i

/-- The exchange brings this request, with these surroundings. -/
def Brings (app : Application) (x : Exchange) (y : Surroundings × Request) : Prop :=
  x.surroundings = y.1 ∧ receive app.env x.incoming = .ok y.2

/-- How far a connection has come with the answers to its requests. -/
def Connection.Answered (c : Connection) (answers : List (Except Exn Response)) : Prop :=
  match c.phase with
  | .reading => answers = c.written.map .ok
  | .answering response _ => answers = c.written.map .ok ++ [.ok response]
  | .ended => c.written.map .ok <+: answers ∧ answers.length ≤ c.written.length + 1

/-- A connection whose messages were `inbox`, after `mine` was dispatched for it. -/
structure Connection.Served (app : Application) (inbox : List Exchange) (mine : List Service)
    (c : Connection) : Prop where
  brings : List.Forall₂ (Brings app) (inbox.take mine.length) (mine.map Service.asked)
  rest : c.phase ≠ .ended → c.inbox = inbox.drop mine.length
  answered : c.Answered (mine.map Service.answer)

/-- All that was dispatched is one run, and every connection has come along with it. -/
structure OneRun (st : Store app) (inboxes : ℕ → List Exchange) (services : List Service)
    (s : Server app) : Prop where
  run : st.run (services.map Service.asked) = (s.store, services.map Service.answer)
  served : ∀ i, (s.connections i).Served app (inboxes i) (servicesOf i services)

theorem run_snoc (st : Store app) (requests : List (Surroundings × Request)) (e : Surroundings)
    (request : Request) :
    st.run (requests ++ [(e, request)]) =
      (((st.run requests).1.step e request).1,
        (st.run requests).2 ++ [((st.run requests).1.step e request).2]) := by
  induction requests generalizing st with
  | nil => rfl
  | cons x rest ih =>
    obtain ⟨e', request'⟩ := x
    change (((st.step e' request').1.run (rest ++ [(e, request)])).1,
      (st.step e' request').2 :: ((st.step e' request').1.run (rest ++ [(e, request)])).2) = _
    rw [ih]
    rfl

section served
variable {inbox : List Exchange} {mine : List Service} {c : Connection} {x : Exchange}
  {rest : List Exchange}

/-- A connection that has ended keeps what it has. -/
theorem Connection.Served.ends (h : c.Served app inbox mine)
    (hanswered : c.written.map .ok <+: mine.map Service.answer ∧
      (mine.map Service.answer).length ≤ c.written.length + 1) (left : List Exchange)
    (log : List LogRecord) :
    Connection.Served app inbox mine ⟨left, .ended, c.written, log⟩ :=
  ⟨h.brings, fun hne => absurd rfl hne, hanswered⟩

/-- The next message is the first that was not dispatched. -/
theorem Connection.Served.dispatched (h : c.Served app inbox mine) (hphase : c.phase = .reading)
    (hinbox : c.inbox = x :: rest) {v : Service} (hbrings : Brings app x v.asked)
    {phase : Phase} {log : List LogRecord}
    (hanswered : Connection.Answered ⟨rest, phase, c.written, log⟩
      (c.written.map .ok ++ [v.answer])) :
    Connection.Served app inbox (mine ++ [v]) ⟨rest, phase, c.written, log⟩ := by
  have hdrop : inbox.drop mine.length = x :: rest := by
    rw [← h.rest (by rw [hphase]; exact Phase.noConfusion), hinbox]
  have hanswers : mine.map Service.answer = c.written.map .ok := by
    have h := h.answered
    rwa [Connection.Answered, hphase] at h
  have hnext : inbox[mine.length]? = some x := by
    rw [← List.head?_drop, hdrop]
    rfl
  refine ⟨?_, fun _ => ?_, ?_⟩
  · rw [List.length_append, List.length_singleton, List.take_add_one, hnext, List.map_append]
    exact List.rel_append h.brings (.cons hbrings .nil)
  · rw [List.length_append, List.length_singleton, ← List.drop_drop, hdrop]
    rfl
  · rw [List.map_append, hanswers]
    exact hanswered

end served

variable {st : Store app} {inboxes : ℕ → List Exchange} {services : List Service} {s : Server app}

/-- Nothing is dispatched; only connection `i` is another. -/
theorem OneRun.set (h : OneRun st inboxes services s) {i : ℕ} {c : Connection}
    (hc : c.Served app (inboxes i) (servicesOf i services)) :
    OneRun st inboxes services (s.set i s.store c) where
  run := h.run
  served j := by
    by_cases hj : j = i
    · subst hj
      rw [Server.set_self]
      exact hc
    · rw [Server.set_other s hj]
      exact h.served j

/-- A request of connection `i` is dispatched, at the end of the run. -/
theorem OneRun.dispatched (h : OneRun st inboxes services s) {i : ℕ} {x : Exchange}
    {rest : List Exchange} (hphase : (s.connections i).phase = .reading)
    (hinbox : (s.connections i).inbox = x :: rest) {request : Request}
    (hreceive : receive app.env x.incoming = .ok request) {phase : Phase} {log : List LogRecord}
    (hanswered : Connection.Answered ⟨rest, phase, (s.connections i).written, log⟩
      ((s.connections i).written.map .ok ++ [(s.store.step x.surroundings request).2])) :
    OneRun st inboxes
      (services ++ [⟨i, x.surroundings, request, (s.store.step x.surroundings request).2⟩])
      (s.set i (s.store.step x.surroundings request).1
        ⟨rest, phase, (s.connections i).written, log⟩) where
  run := by
    rw [List.map_append, List.map_append, List.map_singleton, Service.asked, run_snoc, h.run]
    rfl
  served j := by
    by_cases hj : j = i
    · subst hj
      have hmine : servicesOf j (services ++
          [⟨j, x.surroundings, request, (s.store.step x.surroundings request).2⟩]) =
          servicesOf j services ++
            [⟨j, x.surroundings, request, (s.store.step x.surroundings request).2⟩] := by
        simp [servicesOf]
      rw [Server.set_self, hmine]
      exact Connection.Served.dispatched (h.served j) hphase hinbox
        (v := ⟨j, x.surroundings, request, (s.store.step x.surroundings request).2⟩)
        ⟨rfl, hreceive⟩ hanswered
    · have hmine : servicesOf j (services ++
          [⟨i, x.surroundings, request, (s.store.step x.surroundings request).2⟩]) =
          servicesOf j services := by
        simp [servicesOf, Ne.symm hj]
      rw [Server.set_other s hj, hmine]
      exact h.served j

/-- One turn of any connection dispatches one request at most. -/
theorem OneRun.resume (h : OneRun st inboxes services s) (i : ℕ) :
    ∃ more, OneRun st inboxes (services ++ more) (s.resume i) := by
  have hc := h.served i
  have hanswered := hc.answered
  unfold Connection.Answered at hanswered
  unfold Server.resume
  dsimp only
  split
  · rename_i x rest hphase hinbox
    rw [hphase] at hanswered
    dsimp only at hanswered
    cases hreceive : receive app.env x.incoming with
    | error what =>
      refine ⟨[], ?_⟩
      rw [List.append_nil]
      refine h.set (hc.ends ?_ rest _)
      rw [hanswered]
      exact ⟨List.prefix_rfl, by simp⟩
    | ok request =>
      dsimp only
      have hlast : ∀ answer : Except Exn Response,
          (s.connections i).written.map Except.ok <+:
              (s.connections i).written.map Except.ok ++ [answer] ∧
            ((s.connections i).written.map Except.ok ++ [answer]).length ≤
              (s.connections i).written.length + 1 :=
        fun answer => ⟨List.prefix_append _ _, by simp⟩
      refine ⟨[⟨i, x.surroundings, request, (s.store.step x.surroundings request).2⟩], ?_⟩
      split
      · rename_i t hstep
        rw [← (step_parts hstep).1]
        exact h.dispatched hphase hinbox hreceive (hlast _)
      · rename_i t e _ hstep
        rw [← (step_parts hstep).1]
        exact h.dispatched hphase hinbox hreceive (hlast _)
      · rename_i t response hstep
        rw [← (step_parts hstep).1]
        refine h.dispatched hphase hinbox hreceive ?_
        rw [(step_parts hstep).2]
        rfl
  · rename_i response what hphase
    rw [hphase] at hanswered
    dsimp only at hanswered
    refine ⟨[], ?_⟩
    rw [List.append_nil]
    refine h.set (hc.ends ?_ _ _)
    rw [hanswered]
    exact ⟨List.prefix_append _ _, by simp⟩
  · rename_i inbox response hphase
    rw [hphase] at hanswered
    dsimp only at hanswered
    refine ⟨[], ?_⟩
    rw [List.append_nil]
    refine h.set ⟨hc.brings, fun _ => hc.rest (by rw [hphase]; exact Phase.noConfusion), ?_⟩
    cases response.keep_alive
    · simp [Connection.Answered, hanswered]
    · simp [Connection.Answered, hanswered]
  · exact ⟨[], by rwa [List.append_nil]⟩

theorem accepted_oneRun (st : Store app) (inboxes : ℕ → List Exchange) :
    OneRun st inboxes [] (accepted st inboxes) :=
  ⟨rfl, fun _ => ⟨.nil, fun _ => rfl, rfl⟩⟩

theorem resumeAll_oneRun (st : Store app) (inboxes : ℕ → List Exchange) (picks : List ℕ) :
    ∃ services, OneRun st inboxes services ((accepted st inboxes).resumeAll picks) := by
  induction picks using List.reverseRecOn with
  | nil => exact ⟨[], accepted_oneRun st inboxes⟩
  | append_singleton picks i ih =>
    obtain ⟨services, h⟩ := ih
    obtain ⟨more, hmore⟩ := h.resume i
    refine ⟨services ++ more, ?_⟩
    rw [Server.resumeAll, List.foldl_append]
    exact hmore

/-- However the connections take their turns, they make one run of the server, over the requests
of all of them in the order of their dispatch. On every connection the messages are dispatched
once and in order, and what is written are the run's answers to them, in the same order and all
but at most the last. -/
theorem connections_are_one_run (st : Store app) (inboxes : ℕ → List Exchange)
    (picks : List ℕ) :
    ∃ services : List Service,
      st.run (services.map Service.asked) =
        (((accepted st inboxes).resumeAll picks).store, services.map Service.answer) ∧
      ∀ i, List.Forall₂ (Brings app) ((inboxes i).take (servicesOf i services).length)
          ((servicesOf i services).map Service.asked) ∧
        (((accepted st inboxes).resumeAll picks).connections i).written.map Except.ok <+:
          (servicesOf i services).map Service.answer ∧
        (servicesOf i services).length ≤
          (((accepted st inboxes).resumeAll picks).connections i).written.length + 1 := by
  obtain ⟨services, hrun, hserved⟩ := resumeAll_oneRun st inboxes picks
  refine ⟨services, hrun, fun i => ⟨(hserved i).brings, ?_⟩⟩
  have hanswered := (hserved i).answered
  unfold Connection.Answered at hanswered
  have hlength : ((servicesOf i services).map Service.answer).length =
      (servicesOf i services).length := List.length_map _
  split at hanswered
  · rw [← hlength, hanswered]
    exact ⟨List.prefix_rfl, by simp⟩
  · rw [← hlength, hanswered]
    exact ⟨List.prefix_append _ _, by simp⟩
  · exact hlength ▸ hanswered

end AdequateApi.HttpSession
