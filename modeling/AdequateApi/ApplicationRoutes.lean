import AdequateApi.AccountServices
import AdequateApi.RouteReachability
import AdequateApi.RouterHooks

/-! `app::define_routes`, and how `dispatch` answers a request to one of its routes. -/
namespace AdequateApi.ApplicationRoutes
open StdString HttpMessages RouterModel

/-- The handlers of the controllers and the middleware of the users' routes. -/
structure Handlers where
  health : RouteFn
  registration : RouteFn
  login : RouteFn
  index : RouteFn
  store : RouteFn
  update : RouteFn
  remove : RouteFn
  swagger : RouteFn
  authentication : Middleware

def define_routes (h : Handlers) : List Registration :=
  [.add .get "/health".toList h.health [],
    .add .post "/register".toList h.registration [],
    .add .post "/login".toList h.login [],
    .useAt "/users".toList h.authentication,
    .add .get "/users".toList h.index [],
    .add .post "/users".toList h.store [],
    .add .patch "/users/{id}".toList h.update ["multipart/form-data".toList],
    .add .delete_ "/users/{id}".toList h.remove [],
    .add .get "/swagger".toList h.swagger []]

def router (h : Handlers) : Router := .build (define_routes h)

/-! ### The table -/

section table
variable (h : Handlers)

def registerEntry : RouteEntry :=
  Router.RouteEntry.set (compileRoute "/register".toList) .post h.registration []

def loginEntry : RouteEntry :=
  Router.RouteEntry.set (compileRoute "/login".toList) .post h.login []

def usersEntry : RouteEntry :=
  Router.RouteEntry.set (Router.RouteEntry.set (compileRoute "/users".toList) .get h.index [])
    .post h.store []

def userEntry : RouteEntry :=
  Router.RouteEntry.set (Router.RouteEntry.set (compileRoute "/users/{id}".toList) .patch h.update
    ["multipart/form-data".toList]) .delete_ h.remove []

theorem router_table :
    (router h).table =
      [Router.RouteEntry.set (compileRoute "/health".toList) .get h.health [], registerEntry h,
        loginEntry h, usersEntry h, userEntry h,
        Router.RouteEntry.set (compileRoute "/swagger".toList) .get h.swagger []] := rfl

/-- The entry after those that do not match. -/
theorem matchRoute_at {r : Router} {before after : List RouteEntry} {entry : RouteEntry}
    {path : Str} {captures : RegexPattern.Captures} (ht : r.table = before ++ entry :: after)
    (hb : ∀ e ∈ before, regex_match path e.regex = none)
    (hc : regex_match path entry.regex = some captures) :
    r.matchRoute path = some (entry, pathParams entry.paramNames captures) := by
  unfold Router.matchRoute
  rw [ht]
  clear ht
  induction before with
  | nil => rw [List.nil_append, List.findSome?_cons, hc, Option.map_some]
  | cons e before ih =>
    rw [List.cons_append, List.findSome?_cons, hb e List.mem_cons_self, Option.map_none]
    exact ih fun e he => hb e (List.mem_cons_of_mem _ he)

/-- A path has one list of pieces, so a template that these do not fit does not match. -/
theorem no_match {tmpl tmpl' path : Str} {pieces : List Str} (hfits : Fits tmpl path pieces)
    (hne : ¬ List.Forall₂ Instantiates (segments tmpl') pieces) :
    regex_match path (compileRoute tmpl').regex = none := by
  by_contra hmatch
  obtain ⟨captures, hc⟩ := Option.ne_none_iff_exists'.mp hmatch
  obtain ⟨pieces', hfits', _⟩ := captures_of_match hc
  exact hne (hfits.unique hfits' ▸ hfits'.1)

theorem match_captures {tmpl path : Str} {pieces : List Str} (hfits : Fits tmpl path pieces) :
    regex_match path (compileRoute tmpl).regex =
      some (groupsFrom 1 (paramPieces (segments tmpl) pieces)) := by
  obtain ⟨captures, hc⟩ := Option.isSome_iff_exists.mp (match_of_fits hfits)
  obtain ⟨pieces', hp, rfl⟩ := captures_of_match hc
  rw [hc, hp.unique hfits]

/-- The templates of the table, cut into segments. -/
theorem segments_templates :
    segments "/health".toList = ["health".toList] ∧
    segments "/register".toList = ["register".toList] ∧
    segments "/login".toList = ["login".toList] ∧
    segments "/users".toList = ["users".toList] ∧
    segments "/users/{id}".toList = ["users".toList, "{id}".toList] := by decide

theorem matchRoute_register :
    (router h).matchRoute "/register".toList = some (registerEntry h, []) := by
  have hfits : Fits "/register".toList "/register".toList ["register".toList] :=
    ⟨.cons (by decide) .nil, by decide⟩
  obtain ⟨hhealth, _⟩ := segments_templates
  refine @matchRoute_at _ [_] _ _ _ _ (router_table h) ?_ (match_captures hfits)
  rintro e he
  rw [List.mem_singleton.mp he]
  refine no_match hfits ?_
  rw [hhealth]
  decide

theorem matchRoute_login :
    (router h).matchRoute "/login".toList = some (loginEntry h, []) := by
  have hfits : Fits "/login".toList "/login".toList ["login".toList] :=
    ⟨.cons (by decide) .nil, by decide⟩
  obtain ⟨hhealth, hregister, _⟩ := segments_templates
  refine @matchRoute_at _ [_, _] _ _ _ _ (router_table h) ?_ (match_captures hfits)
  simp only [List.mem_cons, List.not_mem_nil, or_false, forall_eq_or_imp, forall_eq]
  constructor
  · refine no_match hfits ?_
    rw [hhealth]
    decide
  · refine no_match hfits ?_
    rw [hregister]
    decide

theorem matchRoute_users :
    (router h).matchRoute "/users".toList = some (usersEntry h, []) := by
  have hfits : Fits "/users".toList "/users".toList ["users".toList] :=
    ⟨.cons (by decide) .nil, by decide⟩
  obtain ⟨hhealth, hregister, hlogin, _⟩ := segments_templates
  refine @matchRoute_at _ [_, _, _] _ _ _ _ (router_table h) ?_ (match_captures hfits)
  simp only [List.mem_cons, List.not_mem_nil, or_false, forall_eq_or_imp, forall_eq]
  refine ⟨no_match hfits ?_, no_match hfits ?_, no_match hfits ?_⟩
  · rw [hhealth]
    decide
  · rw [hregister]
    decide
  · rw [hlogin]
    decide

def userPath (segment : Str) : Str := "/users/".toList ++ segment

theorem matchRoute_user {segment : Str} (hne : segment ≠ []) (hs : '/' ∉ segment) :
    (router h).matchRoute (userPath segment) = some (userEntry h, [("id".toList, segment)]) := by
  obtain ⟨hhealth, hregister, hlogin, husers, huser⟩ := segments_templates
  have hid : Instantiates "{id}".toList segment := by
    unfold Instantiates
    rw [if_pos (by decide)]
    exact ⟨hne, hs⟩
  have hfits : Fits "/users/{id}".toList (userPath segment) ["users".toList, segment] := by
    have hpath : userPath segment = joined ["users".toList, segment] := by
      have hnil : joined [] = [] := rfl
      rw [joined_cons, joined_cons, hnil, List.append_nil]
      rfl
    have husers : Instantiates "users".toList "users".toList := by decide
    refine ⟨?_, hpath⟩
    rw [huser]
    exact List.Forall₂.cons husers (List.Forall₂.cons hid List.Forall₂.nil)
  -- one segment never fits two pieces
  have hshort : ∀ seg : Str, ¬ List.Forall₂ Instantiates [seg] ["users".toList, segment] := by
    intro seg hf
    cases hf.length_eq
  have hpieces : paramPieces ["users".toList, "{id}".toList] ["users".toList, segment] =
      [segment] := by
    rw [paramPieces, if_neg (by decide), paramPieces, if_pos (by decide), paramPieces]
    simp
  have hnames : (userEntry h).paramNames = ["id".toList] := by
    change (compileRoute "/users/{id}".toList).paramNames = _
    decide
  have hcaptures := match_captures hfits
  rw [huser, hpieces] at hcaptures
  have hfound := @matchRoute_at _ [_, _, _, _] _ _ _ _ (router_table h) ?_ hcaptures
  · rw [hfound, hnames]
    rfl
  simp only [List.mem_cons, List.not_mem_nil, or_false, forall_eq_or_imp, forall_eq]
  refine ⟨no_match hfits ?_, no_match hfits ?_, no_match hfits ?_, no_match hfits ?_⟩
  · rw [hhealth]
    exact hshort _
  · rw [hregister]
    exact hshort _
  · rw [hlogin]
    exact hshort _
  · rw [husers]
    exact hshort _

theorem middlewares_public {path : Str} (hp : startsWith path "/users".toList = false) :
    (router h).collectMiddlewaresFor path = [] := by
  have hscoped : (router h).scoped_middlewares = [("/users".toList, h.authentication)] := rfl
  have hglobal : (router h).global_middlewares = [] := rfl
  rw [Router.collectMiddlewaresFor, hscoped, hglobal, List.filter_cons_of_neg (by simpa using hp)]
  rfl

theorem middlewares_users {path : Str} (hp : startsWith path "/users".toList = true) :
    (router h).collectMiddlewaresFor path = [h.authentication] := by
  have hscoped : (router h).scoped_middlewares = [("/users".toList, h.authentication)] := rfl
  have hglobal : (router h).global_middlewares = [] := rfl
  rw [Router.collectMiddlewaresFor, hscoped, hglobal, List.filter_cons_of_pos (by simpa using hp)]
  rfl

end table

/-! ### Middlewares without hooks -/

section hooks
variable {lib : Library} {env : EnvConfig} {middlewares : List Middleware}

/-- The middlewares leave every response as it is, as `MiddlewareInterface::after` does. -/
def Quiet (middlewares : List Middleware) : Prop :=
  ∀ m ∈ middlewares, ∀ request response, m.after request response = .ok response

theorem Quiet.runAfter (h : Quiet middlewares) (request : Request) (response : Response) :
    (RouterModel.runAfter request middlewares response).result = .ok response := by
  induction middlewares with
  | nil => rfl
  | cons m ms ih =>
    rw [RouterModel.runAfter, h m List.mem_cons_self]
    exact ih fun n hn => h n (List.mem_cons_of_mem _ hn)

theorem Quiet.finish (h : Quiet middlewares) (request : Request) (outcome : Except Exn Outcome) :
    (RouterModel.finish lib request middlewares outcome).result =
      outcome.bind (render lib request) := by
  unfold RouterModel.finish
  cases outcome.bind (render lib request) with
  | error e => rfl
  | ok response => exact h.runAfter request response

/-- The answer to the run of a handler: what it gave, or the 500 answer. -/
def answer (lib : Library) (run : Run) : Except Exn Response :=
  match run.rendered lib with
  | .ok response => .ok response
  | .error .other => .error .other
  | .error e => (make500 lib run.request (failureText e)).bind (render lib run.request)

theorem Quiet.runHandler (h : Quiet middlewares) (run : Run) :
    (RouterModel.runHandler lib run middlewares).result = answer lib run := by
  have hfinish := @Quiet.finish lib _ h run.request run.result
  have hrendered : run.rendered lib = run.result.bind (render lib run.request) := rfl
  rw [← hrendered] at hfinish
  unfold answer
  cases hr : run.rendered lib with
  | ok response =>
    rw [hr] at hfinish
    have hcaught : ∀ e, (RouterModel.finish lib run.request middlewares run.result).result =
        .error e → e = .other := by
      rw [hfinish]
      rintro e ⟨⟩
    rw [runHandler_first hcaught]
    exact hfinish
  | error e =>
    rw [hr] at hfinish
    by_cases he : e = .other
    · subst he
      have hcaught : ∀ e, (RouterModel.finish lib run.request middlewares run.result).result =
          .error e → e = .other := by
        rw [hfinish]
        rintro e ⟨⟩
        rfl
      rw [runHandler_first hcaught]
      exact hfinish
    · rw [runHandler_failed hfinish he]
      refine (h.finish run.request _).trans ?_
      cases e with
      | other => exact absurd rfl he
      | db => rfl
      | validation => rfl
      | std => rfl

theorem rendered_status {request : Request} {status : ℕ} {body : Json} {keepAlive : Bool}
    {headers : Dict Str} {indent : ℤ} {response : Response}
    (h : JsonRenderer.render lib request status body keepAlive headers indent = .ok response) :
    response.status = status := by
  unfold JsonRenderer.render at h
  split at h
  · cases h
  · dsimp only at h
    split at h
    · cases h
      rfl
    · unfold Response.prepare_payload at h
      split at h
      · cases h
      · cases h
        rfl

theorem make500_status {request : Request} {message : Str} {response : Response}
    (h : (make500 lib request message).bind (render lib request) = .ok response) :
    response.status = 500 := by
  unfold make500 makeError JsonRenderer.error at h
  cases hr : JsonRenderer.render lib request 500
      (.obj [("error".toList, .str message), ("status".toList, .int (500 : ℕ))]) false [] (-1) with
  | error e =>
    rw [hr] at h
    cases h
  | ok r =>
    rw [hr] at h
    cases h
    exact rendered_status hr

/-- A handler that throws is answered with 500, if at all. -/
theorem answer_failed {run : Run} {e : Exn} (hr : run.result = .error e) {response : Response}
    (h : answer lib run = .ok response) : response.status = 500 := by
  have hrendered : run.rendered lib = .error e := by
    rw [Run.rendered, hr]
    rfl
  unfold answer at h
  rw [hrendered] at h
  split at h
  · rename_i heq
    cases heq
  · cases h
  · exact make500_status h

end hooks

/-! ### Posting a JSON body -/

/-- A request that posts this value to a path, small enough to be read. -/
structure PostsJson (lib : Library) (env : EnvConfig) (path : Str) (j : Json)
    (request : Request) : Prop where
  method : request.method = .post
  target : normalizeTarget request = path
  content_type : contains request.content_type "application/json".toList = true
  size : request.body.length ≤ env.file_upload_limit_size
  body : lib.parse_json request.body = .ok j

section post
variable {lib : Library} {env : EnvConfig} {j : Json} {path : Str} {request : Request}

theorem PostsJson.json (h : PostsJson lib env path j request) : request.json lib = .ok j := by
  rw [Request.json, h.body]
  rfl

/-- A route without content types of its own hands the request to its handler. -/
theorem PostsJson.dispatch (hp : PostsJson lib env path j request) {r : Router}
    {entry : RouteEntry} {fn : RouteFn} (hm : r.matchRoute path = some (entry, []))
    (hfn : entry.methods .post = some fn) (htypes : entry.allowedContentTypes .post = some []) :
    RouterModel.dispatch lib env r request =
      runHandler lib (runChain (runLeaf entry.original .post fn) (r.collectMiddlewaresFor path)
        { request with path_params := [] }) (r.collectMiddlewaresFor path) := by
  have hparse : parseBody lib env { request with path_params := [] } =
      .ok { request with path_params := [] } := by
    have hct : contains (Request.content_type { request with path_params := [] })
        "application/json".toList = true := hp.content_type
    have hjson : Request.json lib { request with path_params := [] } = .ok j := hp.json
    rw [parseBody, if_pos hct, hjson]
    rfl
  have hpass : refusal lib env entry { request with path_params := [] } = none := by
    have hallowed : (entry.allowedContentTypes request.method).getD [] = [] := by
      rw [hp.method, htypes]
      rfl
    unfold refusal
    rw [hparse]
    dsimp only
    rw [hallowed, if_neg (fun h => h.1 rfl), if_neg (Nat.not_lt.mpr hp.size)]
  have hdecision : r.decision request.method (normalizeTarget request) = .handled entry [] fn := by
    unfold Router.decision
    rw [hp.target, hm, hp.method]
    simp only [hfn]
  rw [dispatch_decision, hdecision, hp.target]
  dsimp only [Decision.run]
  rw [handle_checked lib env hpass, checked, hparse]
  dsimp only
  rw [hp.method]

end post
end AdequateApi.ApplicationRoutes
