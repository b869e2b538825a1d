import AdequateApi.ServerErrors

/-! What becomes of a request to the application: the router answers it, the middleware refuses
it, or one handler runs. -/
namespace AdequateApi.ApplicationDispatch
open StdString HttpMessages RouterModel ApplicationRoutes AccountStore AccountServices
  AccountCreation LoggedAction ServerErrors

/-! ### Which handler a path and a method select -/

section routes
variable {h : Handlers} {path : Str} {entry : RouteEntry} {params : Dict Str}

/-- A template without parameters is the only path that it fits. -/
theorem path_of_literal {name : Str} {captures : RegexPattern.Captures}
    (hs : segments ('/' :: name) = [name]) (hn : isParam name = false)
    (hm : regex_match path (compileRoute ('/' :: name)).regex = some captures) :
    path = '/' :: name := by
  obtain ⟨pieces, ⟨hall, hpath⟩, _⟩ := captures_of_match hm
  rw [hs] at hall
  cases hall with
  | cons hpiece hrest =>
    cases hrest
    rw [Instantiates, if_neg (by simp [hn])] at hpiece
    subst hpiece
    rw [hpath]
    simp [joined]

theorem path_of_param {tmpl name param : Str} {captures : RegexPattern.Captures}
    (hs : segments tmpl = [name, param]) (hn : isParam name = false)
    (hp : isParam param = true)
    (hm : regex_match path (compileRoute tmpl).regex = some captures) :
    ∃ segment, segment ≠ [] ∧ '/' ∉ segment ∧ path = '/' :: (name ++ '/' :: segment) ∧
      captures = [(1, segment)] := by
  obtain ⟨pieces, ⟨hall, hpath⟩, hcaptures⟩ := captures_of_match hm
  rw [hs] at hall hcaptures
  cases hall with
  | cons hname hrest =>
    cases hrest with
    | cons hid hnil =>
      rename_i segment _
      cases hnil
      rw [Instantiates, if_neg (by simp [hn])] at hname
      rw [Instantiates, if_pos hp] at hid
      subst hname
      refine ⟨segment, hid.1, hid.2, ?_, ?_⟩
      · rw [hpath]
        simp [joined]
      · simp [hcaptures, paramPieces, hn, hp, groupsFrom]

/-- Each path of the application with its entry. -/
inductive Selects (h : Handlers) : Str → RouteEntry → Dict Str → Prop
  | health : Selects h "/health".toList
      (Router.RouteEntry.set (compileRoute "/health".toList) .get h.health []) []
  | register : Selects h "/register".toList (registerEntry h) []
  | login : Selects h "/login".toList (loginEntry h) []
  | users : Selects h "/users".toList (usersEntry h) []
  | user (segment : Str) (hne : segment ≠ []) (hs : '/' ∉ segment) :
      Selects h (userPath segment) (userEntry h) [("id".toList, segment)]
  | swagger : Selects h "/swagger".toList
      (Router.RouteEntry.set (compileRoute "/swagger".toList) .get h.swagger []) []

theorem selects_of_match (hm : (router h).matchRoute path = some (entry, params)) :
    Selects h path entry params := by
  obtain ⟨hhealth, hregister, hlogin, husers, huser⟩ := segments_templates
  have hswagger : segments "/swagger".toList = ["swagger".toList] := by decide
  obtain ⟨e, he, hfound⟩ := List.exists_of_findSome?_eq_some hm
  obtain ⟨captures, hc, heq⟩ := Option.map_eq_some_iff.mp hfound
  obtain ⟨rfl, rfl⟩ := Prod.mk.inj heq
  rw [router_table] at he
  simp only [List.mem_cons, List.not_mem_nil, or_false] at he
  have hnil : ∀ c, pathParams [] c = [] := fun _ => rfl
  rcases he with rfl | rfl | rfl | rfl | rfl | rfl
  · rw [path_of_literal hhealth rfl hc]
    exact .health
  · rw [path_of_literal hregister rfl hc]
    exact .register
  · rw [path_of_literal hlogin rfl hc]
    exact .login
  · rw [path_of_literal husers rfl hc]
    exact .users
  · obtain ⟨segment, hne, hs, hpath, rfl⟩ := path_of_param huser rfl rfl hc
    have hnames : (userEntry h).paramNames = ["id".toList] := by
      change (compileRoute "/users/{id}".toList).paramNames = _
      decide
    rw [hpath, hnames]
    exact .user segment hne hs
  · rw [path_of_literal hswagger rfl hc]
    exact .swagger

/-- The path of an entry, and what it captures. -/
theorem selects_path (hsel : Selects h path entry params) :
    (entry.original = "/register".toList → path = "/register".toList) ∧
    (entry.original = "/users".toList → path = "/users".toList) ∧
    (entry.original = "/users/{id}".toList → ∃ segment, segment ≠ [] ∧ '/' ∉ segment ∧
      path = userPath segment ∧ params = [("id".toList, segment)]) := by
  have hne : ∀ {s t : String} {p : Prop}, s.toList ≠ t.toList →
      (compileRoute s.toList).original = t.toList → p := fun hst h => absurd h hst
  cases hsel with
  | health => exact ⟨hne (by decide), hne (by decide), hne (by decide)⟩
  | register => exact ⟨fun _ => rfl, hne (by decide), hne (by decide)⟩
  | login => exact ⟨hne (by decide), hne (by decide), hne (by decide)⟩
  | users => exact ⟨hne (by decide), fun _ => rfl, hne (by decide)⟩
  | user segment hnil hslash =>
    exact ⟨hne (by decide), hne (by decide), fun _ => ⟨segment, hnil, hslash, rfl, rfl⟩⟩
  | swagger => exact ⟨hne (by decide), hne (by decide), hne (by decide)⟩

/-- The routes: template, method, handler, and the content types it is limited to. -/
inductive Serves (h : Handlers) : Str → Verb → RouteFn → List Str → Prop
  | health : Serves h "/health".toList .get h.health []
  | registration : Serves h "/register".toList .post h.registration []
  | login : Serves h "/login".toList .post h.login []
  | index : Serves h "/users".toList .get h.index []
  | store : Serves h "/users".toList .post h.store []
  | update : Serves h "/users/{id}".toList .patch h.update ["multipart/form-data".toList]
  | remove : Serves h "/users/{id}".toList .delete_ h.remove []
  | swagger : Serves h "/swagger".toList .get h.swagger []

/-- One method more for an entry. -/
theorem serves_set {e : RouteEntry} {method v : Verb} {f fn : RouteFn} {types : List Str}
    (hserves : Serves h e.original method f types)
    (hrest : e.methods v = some fn →
      Serves h e.original v fn ((e.allowedContentTypes v).getD []))
    (hfn : (Router.RouteEntry.set e method f types).methods v = some fn) :
    Serves h e.original v fn
      (((Router.RouteEntry.set e method f types).allowedContentTypes v).getD []) := by
  by_cases hv : v = method
  · subst hv
    rw [methods_set] at hfn
    cases hfn
    rw [types_set]
    exact hserves
  · rw [methods_set_ne _ _ _ hv] at hfn
    have htypes : (Router.RouteEntry.set e method f types).allowedContentTypes v =
        e.allowedContentTypes v := Function.update_of_ne hv _ _
    rw [htypes]
    exact hrest hfn

theorem serves_of_selects (hsel : Selects h path entry params) {v : Verb} {fn : RouteFn}
    (hfn : entry.methods v = some fn) :
    Serves h entry.original v fn ((entry.allowedContentTypes v).getD []) := by
  have hnone : ∀ tmpl, (compileRoute tmpl).methods v = some fn →
      Serves h (compileRoute tmpl).original v fn
        (((compileRoute tmpl).allowedContentTypes v).getD []) := fun _ hf => by cases hf
  cases hsel with
  | health => exact serves_set .health (hnone _) hfn
  | register => exact serves_set .registration (hnone _) hfn
  | login => exact serves_set .login (hnone _) hfn
  | users => exact serves_set .store (serves_set .index (hnone _)) hfn
  | user segment hne hs => exact serves_set .remove (serves_set .update (hnone _)) hfn
  | swagger => exact serves_set .swagger (hnone _) hfn

end routes

/-! ### The chain -/

section chain
variable {app : Application} {s : Accounts app.db} {m : Moment} {h : Handlers}

/-- A request behind the middleware: refused, or handed to the handler with the user's id. -/
def guarded (s : Accounts app.db) (m : Moment) (tmpl : Str) (method : Verb) (fn : RouteFn)
    (request : Request) : Run :=
  match (authenticate app request m s).result with
  | .error e => ⟨[.entered 0], request, .error e⟩
  | .ok (.error outcome) => ⟨[.entered 0], request, .ok outcome⟩
  | .ok (.ok id) =>
      let r := fn { request with user_id := some id }
      ⟨[.entered 0, .called 0, .handler tmpl method], r.1, r.2⟩

/-- What the chain for a path does with a request. -/
def chained (s : Accounts app.db) (m : Moment) (path tmpl : Str) (method : Verb) (fn : RouteFn)
    (request : Request) : Run :=
  if startsWith path "/users".toList then guarded s m tmpl method fn request
  else runLeaf tmpl method fn request

theorem runChain_eq (hauth : h.authentication = authentication app s m) (path tmpl : Str)
    (method : Verb) (fn : RouteFn) (request : Request) :
    runChain (runLeaf tmpl method fn) ((router h).collectMiddlewaresFor path) request =
      chained s m path tmpl method fn request := by
  unfold chained
  cases hp : startsWith path "/users".toList with
  | false =>
    rw [middlewares_public h hp]
    rfl
  | true =>
    rw [middlewares_users h hp, hauth, if_pos rfl]
    have hchain : runChain (runLeaf tmpl method fn) [authentication app s m] request =
        (authentication app s m).run (runLeaf tmpl method fn) request := rfl
    rw [hchain]
    unfold guarded
    cases hr : (authenticate app request m s).result with
    | error e => simp only [Middleware.run, authentication, hr, Handling.run]
    | ok refused =>
      cases refused with
      | error outcome => simp only [Middleware.run, authentication, hr, Handling.run]
      | ok id =>
        rw [authentication_run hr]
        rfl

theorem authenticate_headers {s : Accounts app.db} {m : Moment} {request r : Request}
    (h : r.headers = request.headers) :
    authenticate app r m s = authenticate app request m s := by
  unfold authenticate
  rw [h]

theorem checked_head (lib : Library) (env : EnvConfig) (r : Request) :
    AnswerStatus.SameHead r (checked lib env r) := by
  unfold checked
  split
  · rename_i hr
    exact AnswerStatus.parseBody_head hr
  · exact ⟨rfl, rfl⟩

/-- A handler runs at the end of the chain, behind the middleware with a valid token only. -/
theorem chained_event (s : Accounts app.db) (m : Moment) (path tmpl : Str) (method : Verb)
    (fn : RouteFn) (r : Request) :
    (chained s m path tmpl method fn r).trace.find? Event.isHandler = none ∨
      (chained s m path tmpl method fn r).trace.find? Event.isHandler =
          some (.handler tmpl method) ∧
        (startsWith path "/users".toList = true →
          ∃ id, (authenticate app r m s).result = .ok (.ok id)) := by
  unfold chained guarded
  split
  · cases hr : (authenticate app r m s).result with
    | error e => exact .inl rfl
    | ok answer =>
      cases answer with
      | error outcome => exact .inl rfl
      | ok id => exact .inr ⟨rfl, fun _ => ⟨id, rfl⟩⟩
  · rename_i hp
    exact .inr ⟨rfl, fun h => absurd h hp⟩

theorem quiet_application (hauth : h.authentication = authentication app s m) (path : Str) :
    Quiet ((router h).collectMiddlewaresFor path) := by
  cases hp : startsWith path "/users".toList with
  | false =>
    rw [middlewares_public h hp]
    simp [Quiet]
  | true =>
    rw [middlewares_users h hp, hauth]
    intro middleware hmem request response
    rw [List.mem_singleton.mp hmem]
    rfl

end chain

/-! ### The exits -/

/-- The answer to a HEAD request that is served by a GET handler. -/
def headAnswer (lib : Library) (run : Run) : Except Exn Response :=
  (run.rendered lib).map fun response =>
    { response with
      body := [], headers := response.headers.set "Content-Length".toList "0".toList }

/-- The entry has no handler for the method, and none stands in for it. -/
def Unserved (methods : Verb → Option RouteFn) (v : Verb) : Prop :=
  methods v = none ∧ v ≠ .options ∧ (v = .head → methods .get = none)

/-- A request that the router refuses: what the status and the headers say about it. -/
structure Refused (app : Application) (h : Handlers) (request : Request) (status : ℕ)
    (headers : Dict Str) : Prop where
  among : status ∈ [400, 404, 405, 413, 415]
  size : status = 413 → app.file_upload_limit_size < request.body.length
  allow : status ∈ [405, 413, 415] → ∃ entry params,
    (router h).matchRoute (normalizeTarget request) = some (entry, params) ∧
      headers = allowHeader entry.methods ∧ (status = 405 → Unserved entry.methods request.method)

/-- The handler that ran, if one did, and the answer. -/
inductive Exit (app : Application) (s : Accounts app.db) (m : Moment) (h : Handlers)
    (request : Request) : Option Event → Except Exn Response → Prop
  | closed (r : Request) (status : ℕ) (message : Str) (headers : Dict Str)
      (refused : Refused app h request status headers) :
      Exit app s m h request none
        ((makeError app.lib r status message headers).bind (render app.lib r))
  | options (r : Request) {entry : RouteEntry} {params : Dict Str}
      (matched : (router h).matchRoute (normalizeTarget request) = some (entry, params))
      (method : request.method = .options) :
      Exit app s m h request none
        ((makeOptionsAllow app.lib r entry.methods).bind (render app.lib r))
  | handled {entry : RouteEntry} {params : Dict Str} {fn : RouteFn} {types : List Str}
      (matched : (router h).matchRoute (normalizeTarget request) = some (entry, params))
      (serves : Serves h entry.original request.method fn types) (run : Run)
      (hrun : run = chained s m (normalizeTarget request) entry.original request.method fn
        (checked app.lib app.env { request with path_params := params })) :
      Exit app s m h request (run.trace.find? Event.isHandler) (answer app.lib run)
  | head {entry : RouteEntry} {params : Dict Str} {fn : RouteFn} {types : List Str}
      (matched : (router h).matchRoute (normalizeTarget request) = some (entry, params))
      (method : request.method = .head) (serves : Serves h entry.original .get fn types)
      (run : Run) (hrun : run = chained s m (normalizeTarget request) entry.original .get fn
        { request with path_params := params }) :
      Exit app s m h request (run.trace.find? Event.isHandler) (headAnswer app.lib run)

section exits
variable {app : Application} {s : Accounts app.db} {m : Moment} {h : Handlers} {request : Request}

theorem find_finish (lib : Library) (r : Request) (middlewares : List Middleware)
    (outcome : Except Exn Outcome) :
    (finish lib r middlewares outcome).trace.find? Event.isHandler = none := by
  rw [List.find?_eq_none]
  intro e he
  rw [finish_silent lib r middlewares outcome e he]
  decide

theorem find_autoHead (lib : Library) (run : Run) (middlewares : List Middleware) :
    (autoHead lib run middlewares).trace.find? Event.isHandler =
      run.trace.find? Event.isHandler := by
  unfold autoHead
  split
  · rfl
  · have hsilent : ∀ r response,
        (runAfter r middlewares response).trace.find? Event.isHandler = none := by
      intro r response
      rw [List.find?_eq_none]
      intro e he
      rw [runAfter_silent r middlewares response e he]
      decide
    dsimp only
    rw [List.find?_append, hsilent, Option.or_none]

theorem Quiet.autoHead {lib : Library} {middlewares : List Middleware} (hq : Quiet middlewares)
    (run : Run) : (RouterModel.autoHead lib run middlewares).result = headAnswer lib run := by
  have hrendered : run.rendered lib = run.result.bind (render lib run.request) := rfl
  unfold RouterModel.autoHead headAnswer
  rw [← hrendered]
  cases run.rendered lib with
  | error e => rfl
  | ok response => exact hq.runAfter _ _

/-- The checks before a handler refuse with an error that closes the connection. -/
theorem refusal_refused {entry : RouteEntry} {params : Dict Str} {outcome : Except Exn Outcome}
    (hm : (router h).matchRoute (normalizeTarget request) = some (entry, params))
    (hr : refusal app.lib app.env entry { request with path_params := params } = some outcome) :
    ∃ status message headers, Refused app h request status headers ∧
      outcome =
        makeError app.lib { request with path_params := params } status message headers := by
  unfold refusal at hr
  dsimp only at hr
  split at hr
  · cases hr
    exact ⟨415, _, _, ⟨by decide, by simp, fun _ => ⟨entry, params, hm, rfl, by simp⟩⟩, rfl⟩
  · split at hr
    · rename_i hsize
      cases hr
      exact ⟨413, _, _, ⟨by decide, fun _ => hsize, fun _ => ⟨entry, params, hm, rfl, by simp⟩⟩,
        rfl⟩
    · split at hr
      · cases hr
      · split at hr
        · cases hr
          exact ⟨400, _, _, ⟨by decide, by simp, by simp⟩, rfl⟩
        · cases hr

/-- Every request ends in one of these ways. -/
theorem dispatch_exit (hauth : h.authentication = authentication app s m) (request : Request) :
    Exit app s m h request
      ((dispatch app.lib app.env (router h) request).trace.find? Event.isHandler)
      (dispatch app.lib app.env (router h) request).result := by
  have hq := quiet_application hauth (normalizeTarget request)
  have hclosed : ∀ (r : Request) (status : ℕ) (message : Str) (headers : Dict Str),
      Refused app h request status headers → ∀ d,
      d = finish app.lib r ((router h).collectMiddlewaresFor (normalizeTarget request))
        (makeError app.lib r status message headers) →
      Exit app s m h request (d.trace.find? Event.isHandler) d.result := by
    rintro r status message headers hrefused d rfl
    rw [find_finish, hq.finish]
    exact .closed r status message headers hrefused
  rw [dispatch_decision]
  unfold Router.decision
  cases hm : (router h).matchRoute (normalizeTarget request) with
  | none => exact hclosed request 404 _ _ ⟨by decide, by simp, by simp⟩ _ rfl
  | some found =>
    obtain ⟨entry, params⟩ := found
    have hsel := selects_of_match hm
    dsimp only
    cases hf : entry.methods request.method with
    | some fn =>
      dsimp only [Decision.run]
      cases hrefusal : refusal app.lib app.env entry { request with path_params := params } with
      | some outcome =>
        obtain ⟨status, message, headers, hrefused, rfl⟩ := refusal_refused hm hrefusal
        rw [handle_refused app.lib app.env hrefusal]
        exact hclosed _ status message headers hrefused _ rfl
      | none =>
        rw [handle_checked app.lib app.env hrefusal, runChain_eq hauth, find_runHandler,
          hq.runHandler]
        exact .handled hm (serves_of_selects hsel hf) _ rfl
    | none =>
      dsimp only
      split
      · rename_i fn hmethod hget
        dsimp only [Decision.run]
        rw [runChain_eq hauth, find_autoHead, Quiet.autoHead hq]
        exact .head hm hmethod (serves_of_selects hsel hget) _ rfl
      · rename_i hmethod
        dsimp only [Decision.run]
        rw [find_finish, hq.finish]
        exact .options _ hm hmethod
      · rename_i hoptions hhead
        have hunserved : Unserved entry.methods request.method := by
          refine ⟨hf, hoptions, fun hmethod => ?_⟩
          cases hget : entry.methods .get with
          | none => rfl
          | some fn => exact absurd hget (hhead fn hmethod)
        exact hclosed _ 405 _ _
          ⟨by decide, by simp, fun _ => ⟨entry, params, hm, rfl, fun _ => hunserved⟩⟩ _ rfl

end exits
end AdequateApi.ApplicationDispatch
