import AdequateApi.AccountAccess

/-! The server as one store that requests go through one after another: what each request does to
the rows and to the files. The listener runs a coroutine for each connection, so that in the
program the handlers of several requests can take turns wherever they wait; here each request is
served from start to end, alone. The pool and its breaker are no part of the store: what becomes
of a query is part of what each request meets. -/
namespace AdequateApi.ServerStep
open StdString FileTree DbConnection HttpMessages UsersRepository UsersListing
  AdequateApi.UsersService AdequateApi.UsersController AccountStore AccountServices AccountCreation
  RouterModel ApplicationRoutes UsersIndex UserUpdateAnswers ServerErrors AccountStatements
  AccountCalls ApplicationDispatch AccountAccess

/-! ### The controllers without a store -/

def HealthController.index (request : Request) : Except Exn Outcome :=
  .ok (.json ⟨.obj [("status".toList, .str "alive".toList)], 200, request.keep_alive, -1⟩)

def Response.redirect (version : ℕ) (keepAlive : Bool) (location : Str) (code : ℕ) :
    Except Exn Response :=
  Response.prepare_payload
    { status := code
      version := version
      keep_alive := keepAlive
      headers := (Dict.set [] "Location".toList location).set "Content-Type".toList
        "text/plain; charset=utf-8".toList
      body := "Redirecting to ".toList ++ location }

/-- `SwaggerFilter` asks only whether the query has the key `json`. -/
def SwaggerController.index (urls : Str → Option (List (Str × Str))) (request : Request) :
    Except Exn Outcome :=
  let location := if ((Request.query urls request).find "json".toList).isSome then
    "/openapi/swagger.json".toList else "/openapi/".toList
  (Response.redirect request.version request.keep_alive location 302).map .response

/-- The handlers that meet no store; a `World` brings the others. -/
def systemHandlers (urls : Str → Option (List (Str × Str))) : Handlers :=
  { noHandlers with
    health := fun request => (request, HealthController.index request)
    swagger := fun request => (request, SwaggerController.index urls request) }

/-! ### The store and a request -/

structure Store (app : Application) where
  accounts : Accounts app.db
  disk : Disk

/-- What a request meets besides the store. -/
structure Surroundings where
  moment : Moment
  urls : Str → Option (List (Str × Str))
  updating : UpdateAnswers
  removing : RemoveAnswers

/-- The table answers a statement that reaches the server, unless its answer is lost. -/
def settled (table : QueryAnswer) : QueryAnswer → QueryAnswer
  | .done _ => table
  | .failed e none => .failed e none
  | .failed e (some _) => .failed e table.executed

section step
variable {app : Application}

namespace Store
variable (st : Store app) (e : Surroundings)

/-- The answers to an update, with those of the hasher and of the table. -/
def answering (request : Request) : UpdateAnswers :=
  let a := hashing app request e.moment e.updating
  { a with
    query := (sentEntity app.toServices st.disk request a).elim a.query fun user =>
      settled (AccountStatements.update st.accounts user e.moment.now).2 a.query }

def world : World app where
  base := systemHandlers e.urls
  accounts := st.accounts
  disk := st.disk
  moment := e.moment
  urls := e.urls
  updating := st.answering e
  removing := e.removing

/-- The request as a handler gets it. No handler reads the id that the middleware adds. -/
def handed (request : Request) : Request :=
  match (router (st.world e).handlers).matchRoute (normalizeTarget request) with
  | some (_, params) => checked app.lib app.env { request with path_params := params }
  | none => request

def updated (request : Request) : Store app where
  accounts :=
    written st.accounts (updateWrite app.toServices st.disk request (st.answering e request))
  disk := (AdequateApi.UsersController.update app.toServices (st.world e).state request
    (st.answering e request)).1.disk

def removed (request : Request) : Store app where
  accounts := written st.accounts (removeWrite app.toServices st.disk request e.removing)
  disk := (AdequateApi.UsersController.remove app.toServices (st.world e).state request
    e.removing).1.disk

/-- The store as a handler leaves it. -/
def handled (request : Request) (template : Str) : Verb → Store app
  | .post =>
      if template = "/register".toList then
        { st with
          accounts :=
            (AuthenticationController.registration app request e.moment st.accounts).state }
      else if template = "/users".toList then
        { st with
          accounts :=
            (AccountServices.UsersController.store app request e.moment st.accounts).state }
      else st
  | .patch => if template = "/users/{id}".toList then st.updated e request else st
  | .delete_ => if template = "/users/{id}".toList then st.removed e request else st
  | _ => st

/-- The store after the handler that ran, if one did. -/
def after (request : Request) : Option Event → Store app
  | some (.handler template method) => st.handled e (st.handed e request) template method
  | _ => st

/-- A request from start to end, nothing coming in between. -/
def step (request : Request) : Store app × Except Exn Response :=
  let d := dispatch app.lib app.env (router (st.world e).handlers) request
  (st.after e request (d.trace.find? Event.isHandler), d.result)

end Store

/-! ### What a request does to the store -/

/-- The ways in which a request changes the store. -/
inductive Touched (st : Store app) (e : Surroundings) (request : Request) : Store app → Prop
  | nothing : Touched st e request st
  | registered (method : request.method = .post)
      (path : normalizeTarget request = "/register".toList) :
      Touched st e request { st with
        accounts := written st.accounts (registrationWrite app (st.handed e request) e.moment) }
  | created (method : request.method = .post) (path : normalizeTarget request = "/users".toList)
      (auth : (st.world e).Authenticated request) :
      Touched st e request { st with
        accounts := written st.accounts (storeWrite app (st.handed e request) e.moment) }
  | updated (segment : Str) (method : request.method = .patch)
      (path : normalizeTarget request = userPath segment)
      (auth : (st.world e).Authenticated request)
      (params : (st.handed e request).path_params = [("id".toList, segment)]) :
      Touched st e request (st.updated e (st.handed e request))
  | removed (segment : Str) (method : request.method = .delete_)
      (path : normalizeTarget request = userPath segment)
      (auth : (st.world e).Authenticated request)
      (params : (st.handed e request).path_params = [("id".toList, segment)]) :
      Touched st e request (st.removed e (st.handed e request))

theorem step_touched (st : Store app) (e : Surroundings) (request : Request) :
    Touched st e request (st.step e request).1 := by
  have hexit : Exit app st.accounts e.moment (st.world e).handlers request _ _ :=
    dispatch_exit rfl request
  change Touched st e request (st.after e request _)
  generalize (dispatch app.lib app.env (router (st.world e).handlers) request).trace.find?
    Event.isHandler = event at hexit ⊢
  generalize (dispatch app.lib app.env (router (st.world e).handlers) request).result = result
    at hexit
  cases hexit with
  | closed => exact .nothing
  | options => exact .nothing
  | @handled entry params fn types matched serves run hrun =>
    obtain ⟨hregister, husers, huser⟩ := selects_path (selects_of_match matched)
    have hhanded : st.handed e request =
        checked app.lib app.env { request with path_params := params } := by
      unfold Store.handed
      rw [matched]
    have hhead := checked_head app.lib app.env { request with path_params := params }
    rw [hrun]
    rcases chained_event st.accounts e.moment (normalizeTarget request) entry.original
      request.method fn (checked app.lib app.env { request with path_params := params }) with
      hnone | ⟨hsome, hguard⟩
    · rw [hnone]
      exact .nothing
    · rw [hsome]
      have hauth : startsWith (normalizeTarget request) "/users".toList = true →
          (st.world e).Authenticated request := by
        intro hbelow
        obtain ⟨id, hid⟩ := hguard hbelow
        rw [authenticate_headers hhead.headers] at hid
        exact ⟨id, hid⟩
      change Touched st e request
        (st.handled e (st.handed e request) entry.original request.method)
      generalize hm : request.method = method at serves ⊢
      generalize entry.original = tmpl at hregister husers huser serves ⊢
      cases serves with
      | health => exact .nothing
      | registration =>
        rw [Store.handled, if_pos rfl, registration_written]
        exact .registered hm (hregister rfl)
      | login =>
        rw [Store.handled, if_neg (by decide), if_neg (by decide)]
        exact .nothing
      | index => exact .nothing
      | store =>
        rw [Store.handled, if_neg (by decide), if_pos rfl, store_written]
        exact .created hm (husers rfl) (hauth (by rw [husers rfl]; rfl))
      | update =>
        obtain ⟨segment, _, _, hpath, hparams⟩ := huser rfl
        rw [Store.handled, if_pos rfl]
        refine .updated segment hm hpath (hauth (by rw [hpath]; rfl)) ?_
        rw [hhanded, hhead.path_params]
        exact hparams
      | remove =>
        obtain ⟨segment, _, _, hpath, hparams⟩ := huser rfl
        rw [Store.handled, if_pos rfl]
        refine .removed segment hm hpath (hauth (by rw [hpath]; rfl)) ?_
        rw [hhanded, hhead.path_params]
        exact hparams
      | swagger => exact .nothing
  | @head entry params fn types matched method serves run hrun =>
    rw [hrun]
    rcases chained_event st.accounts e.moment (normalizeTarget request) entry.original
      .get fn { request with path_params := params } with hnone | ⟨hsome, _⟩
    · rw [hnone]
      exact .nothing
    · rw [hsome]
      exact .nothing

/-! ### The rows of the service are those of the table -/

theorem update_executed {s : Accounts app.db} {user : UserEntity} {t now : ℤ}
    (h : (AccountStatements.update s user t).2.executed = some now) :
    (AccountStatements.update s user now).2 = .done now := by
  have hcases : (AccountStatements.update s user t).2 = .done t ∨
      ∃ e, (AccountStatements.update s user t).2 = .failed e none := by
    unfold AccountStatements.update
    dsimp only
    split
    · split
      · exact .inr ⟨_, rfl⟩
      · split
        · exact .inl rfl
        · exact .inr ⟨_, rfl⟩
    · exact .inr ⟨_, rfl⟩
  rcases hcases with hdone | ⟨e, hfailed⟩
  · rw [hdone] at h
    cases h
    exact hdone
  · rw [hfailed] at h
    cases h

theorem settled_executed {table a : QueryAnswer} {now : ℤ}
    (h : (settled table a).executed = some now) : table.executed = some now := by
  cases a with
  | done t => exact h
  | failed e carried =>
    cases carried with
    | none => cases h
    | some t => exact h

theorem answering_truthful (st : Store app) (e : Surroundings) (request : Request) :
    Truthful st.accounts (updateWrite app.toServices st.disk request (st.answering e request)) := by
  intro user now hwrite
  simp only [updateWrite, Option.bind_eq_bind, Option.bind_eq_some_iff,
    Option.ite_none_left_eq_some] at hwrite
  obtain ⟨sent, hsent, executed, hexecuted, _, hsame⟩ := hwrite
  cases hsame
  -- the answer of the query decides nothing about what is sent
  have hsame : sentEntity app.toServices st.disk request
      (hashing app request e.moment e.updating) = some user := hsent
  rw [Store.answering, hsame] at hexecuted
  exact update_executed (settled_executed hexecuted)

theorem updated_rows (st : Store app) (e : Surroundings) (request : Request) :
    rows (st.updated e request).accounts =
      (AdequateApi.UsersController.update app.toServices (st.world e).state request
        (st.answering e request)).1.users :=
  (update_written app.toServices (answering_truthful st e request)).symm

theorem removed_rows (st : Store app) (e : Surroundings) (request : Request) :
    rows (st.removed e request).accounts =
      (AdequateApi.UsersController.remove app.toServices (st.world e).state request
        e.removing).1.users :=
  (remove_written app.toServices st.accounts st.disk request e.removing).symm

/-! ### Runs -/

/-- Requests one after another, each answered before the next one begins and each with its
surroundings: the store and the answers. -/
def Store.run (st : Store app) :
    List (Surroundings × Request) → Store app × List (Except Exn Response)
  | [] => (st, [])
  | (e, request) :: rest =>
      let (t, answer) := st.step e request
      let (u, answers) := t.run rest
      (u, answer :: answers)

/-- Every request of the run meets `ok`, in the store as it is then. -/
def Along (ok : Store app → Surroundings → Request → Prop) :
    Store app → List (Surroundings × Request) → Prop
  | _, [] => True
  | st, (e, request) :: rest => ok st e request ∧ Along ok (st.step e request).1 rest

/-- What each such request does to the store, the run does. -/
theorem run_along {ok : Store app → Surroundings → Request → Prop}
    {R : Store app → Store app → Prop} (hR : LoggedAction.Action.Composes R)
    (hstep : ∀ st e request, ok st e request → R st (st.step e request).1) {st : Store app}
    {requests : List (Surroundings × Request)} (h : Along ok st requests) :
    R st (st.run requests).1 := by
  induction requests generalizing st with
  | nil => exact hR.refl st
  | cons x rest ih =>
    obtain ⟨e, request⟩ := x
    exact hR.trans (hstep st e request h.1) (ih h.2)

/-- A valid token, and a path whose last segment is read as the id. -/
def Addresses (st : Store app) (e : Surroundings) (request : Request) (id : ℤ) : Prop :=
  (request.method = .patch ∨ request.method = .delete_) ∧ (st.world e).Authenticated request ∧
    ∃ segment, normalizeTarget request = userPath segment ∧ stoi segment = .ok id

/-- No request of the run addresses the user. -/
def NeverAddressed (id : ℤ) : Store app → List (Surroundings × Request) → Prop :=
  Along fun st e request => ¬ Addresses st e request id

/-- What a user has in the store: the row, and the files of the picture. -/
structure Kept (id : ℤ) (st t : Store app) : Prop where
  row : ∀ row, rows st.accounts id = some row → rows t.accounts id = some row
  files : ∀ q, Disk.below (picturePath app.toServices id) q = true →
    t.disk.files q = st.disk.files q

theorem Kept.refl (id : ℤ) (st : Store app) : Kept id st st := ⟨fun _ h => h, fun _ _ => rfl⟩

theorem composes_kept (id : ℤ) : LoggedAction.Action.Composes (@Kept app id) where
  refl := Kept.refl id
  trans := fun h h' => ⟨fun row hrow => h'.row row (h.row row hrow),
    fun q hq => (h'.files q hq).trans (h.files q hq)⟩

/-- A new row takes the place of none. -/
theorem inserted_kept (st : Store app) (id : ℤ) (n : NewUser) (now : ℤ) :
    Kept id st { st with accounts := Write.apply st.accounts (.insert n now) } := by
  refine ⟨fun row hrow => ?_, fun _ _ => rfl⟩
  change rows (st.accounts.insert n now).1 id = some row
  rcases insert_cases st.accounts n now with ⟨_, e, he⟩ | ⟨_, _, _, e, he⟩ | ⟨_, h, _, he⟩
  · rw [he]
    exact hrow
  · rw [he]
    exact hrow
  · rw [he, rows_append, Function.update_of_ne, hrow]
    rintro rfl
    obtain ⟨u, hu, hid, _⟩ := mem_of_rows hrow
    exact (Accounts.violation_none h).2.1 ⟨u, hu, Int64.toInt_inj.mp hid⟩

theorem accountWrite_kept (st : Store app) (id : ℤ) (username email password : Str) (m : Moment) :
    Kept id st { st with
      accounts := written st.accounts (accountWrite app username email password m) } := by
  unfold accountWrite
  cases (app.hasher.hash m.salt password).toOption with
  | none => exact .refl id st
  | some hash => exact inserted_kept st id _ _

theorem registrationWrite_kept (st : Store app) (id : ℤ) (request : Request) (m : Moment) :
    Kept id st { st with accounts := written st.accounts (registrationWrite app request m) } := by
  unfold registrationWrite
  cases (request.json app.lib).toOption with
  | none => exact .refl id st
  | some j =>
    simp only [Option.bind_eq_bind, Option.bind_some]
    cases (AccountSerializers.RegisterSerializer.from_json j).toOption with
    | none => exact .refl id st
    | some data => exact accountWrite_kept st id _ _ _ m

theorem storeWrite_kept (st : Store app) (id : ℤ) (request : Request) (m : Moment) :
    Kept id st { st with accounts := written st.accounts (storeWrite app request m) } := by
  unfold storeWrite
  cases (request.json app.lib).toOption with
  | none => exact .refl id st
  | some j =>
    simp only [Option.bind_eq_bind, Option.bind_some]
    cases (AccountSerializers.UserCreateSerializer.from_json j).toOption with
    | none => exact .refl id st
    | some data => exact accountWrite_kept st id _ _ _ m

/-- A handler for another user leaves this one alone. -/
theorem kept_of_handler {st t : Store app} {e : Surroundings} {handler : PathHandler}
    {segment : Str} {id : ℤ} {r : UsersService.State × Except Exn Outcome} (hid : 1 ≤ id)
    (hmax : id ≤ 9223372036854775807) (hother : ∀ v, stoi segment = .ok v → id ≠ v)
    (hrun : handler app.toServices segment (st.world e).state r)
    (hrejects : ∀ e, stoi segment = .error e → handler.Rejects segment)
    (hconfined : ∀ v, stoi segment = .ok v → Confined app.toServices v (st.world e).state r.1)
    (hrows : rows t.accounts = r.1.users) (hdisk : t.disk = r.1.disk) : Kept id st t := by
  cases hv : stoi segment with
  | error what =>
    obtain ⟨hsame, _⟩ := hrejects what hv _ _ _ hrun
    rw [hsame] at hrows hdisk
    refine ⟨fun row hrow => ?_, fun q _ => ?_⟩
    · rw [hrows]
      exact hrow
    · rw [hdisk]
      rfl
  | ok v =>
    obtain ⟨husers, hfiles⟩ := hconfined v hv
    refine ⟨fun row hrow => ?_, fun q hq => ?_⟩
    · rw [hrows, husers id (hother v hv)]
      exact hrow
    · rw [hdisk]
      exact hfiles id hid hmax (hother v hv) q hq

theorem step_kept {st : Store app} {e : Surroundings} {request : Request} {id : ℤ} (hid : 1 ≤ id)
    (hmax : id ≤ 9223372036854775807) (h : ¬ Addresses st e request id) :
    Kept id st (st.step e request).1 := by
  have htouched := step_touched st e request
  generalize (st.step e request).1 = t at htouched ⊢
  cases htouched with
  | nothing => exact .refl id st
  | registered method path => exact registrationWrite_kept st id _ _
  | created method path auth => exact storeWrite_kept st id _ _
  | updated segment method path auth params =>
    have hfind : (st.handed e request).path_params.find "id".toList = some segment := by
      rw [params]
      rfl
    have hrun : Patched app.toServices segment (st.world e).state _ :=
      ⟨_, st.answering e (st.handed e request), hfind, rfl⟩
    exact kept_of_handler hid hmax
      (fun v hv hsame => h ⟨.inl method, auth, segment, path, hsame ▸ hv⟩) hrun
      (fun _ hv => patched_rejects hv) (fun _ hv => patched_confined hv hrun)
      (updated_rows st e _) rfl
  | removed segment method path auth params =>
    have hfind : (st.handed e request).path_params.find "id".toList = some segment := by
      rw [params]
      rfl
    have hrun : Deleted app.toServices segment (st.world e).state _ :=
      ⟨_, e.removing, hfind, rfl⟩
    exact kept_of_handler hid hmax
      (fun v hv hsame => h ⟨.inr method, auth, segment, path, hsame ▸ hv⟩) hrun
      (fun _ hv => deleted_rejects hv) (fun _ hv => deleted_confined hv hrun)
      (removed_rows st e _) rfl

/-- In every run of requests one after another the row of a user and the files of the picture stay
as they are, unless a request with a valid token addresses the user by a PATCH or a DELETE. -/
theorem kept_unless_addressed (st : Store app) (requests : List (Surroundings × Request)) {id : ℤ}
    (hid : 1 ≤ id) (hmax : id ≤ 9223372036854775807) (h : NeverAddressed id st requests) :
    Kept id st (st.run requests).1 :=
  run_along (composes_kept id) (fun _ _ _ => step_kept hid hmax) h

end step

/-- Nothing fails around a request. -/
def smooth : Surroundings where
  moment := firstMoment
  urls := fun _ => some []
  updating := ⟨.ok "h".toList, false, none, FileSystemService.smoothAnswers, .done 0⟩
  removing := ⟨false, none, .done 0⟩

def annStore : Store gateApp :=
  ⟨afterCalls gateApp (migrated gateApp.db) annCalls, FileSystemService.noFiles⟩

/-- The deletion of another account. -/
def deleteSecond : Request := { annRequest "/users/2" with method := .delete_ }

theorem kept_unless_addressed_ann : Kept 1 annStore (annStore.run [(smooth, deleteSecond)]).1 := by
  refine kept_unless_addressed annStore [(smooth, deleteSecond)] (by decide) (by decide)
    ⟨?_, trivial⟩
  rintro ⟨_, _, segment, hpath, hid⟩
  have hsame : userPath "2".toList = userPath segment := hpath
  rw [← List.append_cancel_left hsame] at hid
  exact absurd hid (by decide)

section idle
variable {app : Application}

/-! ### Requests that may not write -/

/-- The method promises to change nothing, or no token is valid and the path is another than that
of a registration. -/
def Idle (st : Store app) (e : Surroundings) (request : Request) : Prop :=
  (request.method ≠ .post ∧ request.method ≠ .patch ∧ request.method ≠ .delete_) ∨
    (¬ (st.world e).Authenticated request ∧ normalizeTarget request ≠ "/register".toList)

theorem step_idle {st : Store app} {e : Surroundings} {request : Request}
    (h : Idle st e request) : (st.step e request).1 = st := by
  have htouched := step_touched st e request
  generalize (st.step e request).1 = t at htouched ⊢
  cases htouched with
  | nothing => rfl
  | registered method path =>
    rcases h with ⟨hpost, _⟩ | ⟨_, hpath⟩
    · exact absurd method hpost
    · exact absurd path hpath
  | created method path auth =>
    rcases h with ⟨hpost, _⟩ | ⟨hauth, _⟩
    · exact absurd method hpost
    · exact absurd auth hauth
  | updated segment method path auth params =>
    rcases h with ⟨_, hpatch, _⟩ | ⟨hauth, _⟩
    · exact absurd method hpatch
    · exact absurd auth hauth
  | removed segment method path auth params =>
    rcases h with ⟨_, _, hdelete⟩ | ⟨hauth, _⟩
    · exact absurd method hdelete
    · exact absurd auth hauth

/-- Whatever they carry and whatever they meet, one after another: requests of safe methods, and
requests without a valid token that do not register, leave rows and files as they are. -/
theorem idle_requests_change_nothing (st : Store app) (requests : List (Surroundings × Request))
    (h : ∀ x ∈ requests, Idle st x.1 x.2) : (st.run requests).1 = st := by
  induction requests with
  | nil => rfl
  | cons x rest ih =>
    obtain ⟨e, request⟩ := x
    obtain ⟨hfirst, hrest⟩ := List.forall_mem_cons.mp h
    change ((st.step e request).1.run rest).1 = st
    rw [step_idle hfirst]
    exact ih hrest

end idle

theorem idle_requests_change_nothing_ann :
    (annStore.run [(smooth, { annRequest "/users" with method := .get }),
      (smooth, { annRequest "/users" with headers := [] })]).1 = annStore := by
  refine idle_requests_change_nothing annStore _ ?_
  simp only [List.mem_cons, List.not_mem_nil, or_false, forall_eq_or_imp, forall_eq]
  refine ⟨.inl ⟨by decide, by decide, by decide⟩, .inr ⟨?_, by decide⟩⟩
  rintro ⟨id, hid⟩
  cases hid

section calls
variable {app : Application}

/-! ### Requests are calls -/

theorem touched_calls {st t : Store app} {e : Surroundings} {request : Request}
    (h : Touched st e request t) : ∃ calls, t.accounts = afterCalls app st.accounts calls := by
  cases h with
  | nothing => exact ⟨[], rfl⟩
  | registered method path =>
    exact ⟨[.registration (st.handed e request) e.moment], (registration_written _ _ _).symm⟩
  | created method path auth =>
    exact ⟨[.store (st.handed e request) e.moment], (store_written _ _ _).symm⟩
  | updated segment method path auth params =>
    exact ⟨[.update (st.handed e request) e.moment st.disk
      (st.answering e (st.handed e request))], rfl⟩
  | removed segment method path auth params =>
    exact ⟨[.remove (st.handed e request) st.disk e.removing], rfl⟩

/-- What holds after every run of calls holds of the server. -/
theorem run_calls (st : Store app) (requests : List (Surroundings × Request)) :
    ∃ calls, (st.run requests).1.accounts = afterCalls app st.accounts calls := by
  induction requests generalizing st with
  | nil => exact ⟨[], rfl⟩
  | cons x rest ih =>
    obtain ⟨e, request⟩ := x
    obtain ⟨first, hfirst⟩ := touched_calls (step_touched st e request)
    obtain ⟨later, hlater⟩ := ih (st.step e request).1
    refine ⟨first ++ later, ?_⟩
    change ((st.step e request).1.run rest).1.accounts = _
    rw [hlater, hfirst]
    exact List.foldl_append.symm

end calls
end AdequateApi.ServerStep
