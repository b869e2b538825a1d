import AdequateApi.AccountCreation

/-! Which answers are sent with a status below 500: how the router ends a request whose body
nlohmann::json can write, or cannot. -/
namespace AdequateApi.AnswerStatus
open StdString HttpMessages AdequateApi.UsersController RouterModel ApplicationRoutes
  AccountCreation Utf8Text JsonText

theorem written_member {j v : Json} {key : Str} (h : Written j) (hv : member j key = some v) :
    Written v := by
  cases j with
  | obj ms =>
    obtain ⟨m, hm, rfl⟩ := Option.map_eq_some_iff.mp hv
    exact (written_members.mp h m (List.mem_of_find?_eq_some hm)).2
  | _ => cases hv

/-! ### Rendering -/

theorem not_serverError {r : Except Exn Response} :
    ¬ ServerError r ↔ ∃ response, r = .ok response ∧ response.status < 500 := by
  unfold ServerError
  push Not
  exact Iff.rfl

/-- Beast takes a body with this status, or `render` gives it none. -/
def MayHaveBody (status : ℕ) : Prop := status / 100 ≠ 1 ∧ status ≠ 304

instance : DecidablePred MayHaveBody := fun _ => inferInstanceAs (Decidable (_ ∧ _))

/-- A body is written with its status, or nothing is. -/
theorem render_cases {lib : Library} (hlib : JsonLibrary lib) {status : ℕ}
    (hs : MayHaveBody status) (request : Request) (body : Json) (keepAlive : Bool)
    (headers : Dict Str) (indent : ℤ) :
    (Written body ∧ ∃ response,
      JsonRenderer.render lib request status body keepAlive headers indent = .ok response ∧
        response.status = status) ∨
    (¬ Written body ∧ ∃ e,
      JsonRenderer.render lib request status body keepAlive headers indent = .error e) := by
  have hdump := hlib.dump body (if 0 ≤ indent then indent else -1)
  by_cases hw : Written body
  · left
    obtain ⟨text, htext⟩ := hdump.mpr hw
    have hrender : ∃ response,
        JsonRenderer.render lib request status body keepAlive headers indent = .ok response := by
      unfold JsonRenderer.render
      rw [htext]
      dsimp only
      split
      · exact ⟨_, rfl⟩
      · rename_i hno
        unfold Response.prepare_payload
        rw [if_neg (by rintro (h | h | h); exacts [hs.1 h, hno h, hs.2 h])]
        exact ⟨_, rfl⟩
    obtain ⟨response, hresponse⟩ := hrender
    exact ⟨hw, response, hresponse, rendered_status hresponse⟩
  · right
    refine ⟨hw, ?_⟩
    unfold JsonRenderer.render
    split
    · exact ⟨_, rfl⟩
    · rename_i text htext
      exact absurd (hdump.mp ⟨text, htext⟩) hw

/-! ### The ends of a handler -/

/-- What a handler ends with, and whether that is sent with a status below 500. -/
inductive Sent : Except Exn Outcome → Prop → Prop
  | failed {e : Exn} {p : Prop} (h : ¬ p) : Sent (.error e) p
  | answered {result : JsonResult} {p : Prop} (below : result.status < 500)
      (may : MayHaveBody result.status) (h : p ↔ Written result.body) : Sent (.ok (.json result)) p

theorem Sent.json {p : Prop} {body : Json} {status : ℕ} {keepAlive : Bool} {indent : ℤ}
    (below : status < 500) (may : MayHaveBody status) (h : p ↔ Written body) :
    Sent (.ok (.json ⟨body, status, keepAlive, indent⟩)) p := .answered below may h

theorem Sent.congr {r : Except Exn Outcome} {p q : Prop} (h : Sent r p) (hpq : p ↔ q) :
    Sent r q := propext hpq ▸ h

section answer
variable {lib : Library} {run : Run} {p : Prop} {middlewares : List Middleware}

/-- The outcome of a handler as it is rendered. -/
theorem Sent.rendered (hlib : JsonLibrary lib) (h : Sent run.result p) :
    (p ∧ ∃ response, run.rendered lib = .ok response ∧ response.status < 500) ∨
      (¬ p ∧ ∃ e, run.rendered lib = .error e) := by
  generalize hr : run.result = r at h
  cases h with
  | failed hp =>
    rename_i e
    right
    refine ⟨hp, e, ?_⟩
    rw [Run.rendered, hr]
    rfl
  | answered below may hp =>
    rename_i result
    have hrender : run.rendered lib = JsonRenderer.render lib run.request result.status result.body
        result.keepAlive [] result.dumpIndent := by
      rw [Run.rendered, hr]
      rfl
    rw [hrender, hp]
    rcases render_cases hlib may run.request result.body result.keepAlive [] result.dumpIndent with
      ⟨hw, response, hresponse, hstatus⟩ | ⟨hw, e, he⟩
    · exact .inl ⟨hw, response, hresponse, hstatus ▸ below⟩
    · exact .inr ⟨hw, e, he⟩

theorem Sent.answer (hlib : JsonLibrary lib) (h : Sent run.result p) :
    ¬ ServerError (ApplicationRoutes.answer lib run) ↔ p := by
  rw [not_serverError]
  unfold ApplicationRoutes.answer
  rcases h.rendered hlib with ⟨hp, response, hr, hlt⟩ | ⟨hp, e, hr⟩
  · rw [hr]
    exact ⟨fun _ => hp, fun _ => ⟨response, rfl, hlt⟩⟩
  · rw [hr]
    refine ⟨?_, fun h => absurd h hp⟩
    rintro ⟨response, hresponse, hlt⟩
    split at hresponse
    · rename_i heq
      cases heq
    · cases hresponse
    · rw [make500_status hresponse] at hlt
      exact absurd hlt (by decide)

theorem Sent.runHandler (hlib : JsonLibrary lib) (hq : Quiet middlewares) (h : Sent run.result p) :
    ¬ ServerError (RouterModel.runHandler lib run middlewares).result ↔ p := by
  rw [hq.runHandler]
  exact h.answer hlib

/-- A GET handler that answers a HEAD request. -/
theorem Sent.autoHead (hlib : JsonLibrary lib) (hq : Quiet middlewares) (h : Sent run.result p) :
    ¬ ServerError (RouterModel.autoHead lib run middlewares).result ↔ p := by
  have hrendered : run.rendered lib = run.result.bind (render lib run.request) := rfl
  rw [not_serverError]
  unfold RouterModel.autoHead
  rw [← hrendered]
  rcases h.rendered hlib with ⟨hp, response, hr, hlt⟩ | ⟨hp, e, hr⟩
  · rw [hr]
    dsimp only
    rw [hq.runAfter]
    exact ⟨fun _ => hp, fun _ => ⟨_, rfl, hlt⟩⟩
  · rw [hr]
    refine ⟨?_, fun h => absurd h hp⟩
    rintro ⟨response, hresponse, _⟩
    cases hresponse

end answer

/-! ### The router's own answers -/

section router
variable {lib : Library} {env : EnvConfig} {request : Request} {middlewares : List Middleware}

theorem finish_error (hlib : JsonLibrary lib) (hq : Quiet middlewares) {request' : Request}
    {status : ℕ} (hlt : status < 500) (hs : MayHaveBody status) (message : Str)
    (headers : Dict Str) :
    ¬ ServerError (finish lib request middlewares
      (makeError lib request' status message headers)).result ↔ Utf8 message := by
  have hkeys : Utf8 "error".toList ∧ Utf8 "status".toList :=
    ⟨utf8_literal (by decide), utf8_literal (by decide)⟩
  have hbody : Written (.obj [("error".toList, .str message), ("status".toList, .int status)]) ↔
      Utf8 message := by
    rw [written_members, List.forall_mem_cons, List.forall_mem_singleton, written_str]
    exact ⟨fun h => h.1.2, fun h => ⟨⟨hkeys.1, h⟩, hkeys.2, written_int _⟩⟩
  rw [not_serverError, hq.finish, ← hbody]
  unfold makeError JsonRenderer.error
  rcases render_cases hlib hs request'
    (.obj [("error".toList, .str message), ("status".toList, .int status)]) false headers (-1) with
    ⟨hw, response, hr, hstatus⟩ | ⟨hw, e, he⟩
  · rw [hr]
    exact ⟨fun _ => hw, fun _ => ⟨response, rfl, hstatus ▸ hlt⟩⟩
  · rw [he]
    refine ⟨?_, fun h => absurd h hw⟩
    rintro ⟨response, hresponse, _⟩
    cases hresponse

theorem utf8_intercalate {sep : Str} {xs : List Str} (hsep : Utf8 sep) (h : ∀ x ∈ xs, Utf8 x) :
    Utf8 (sep.intercalate xs) := by
  induction xs with
  | nil => exact .nil
  | cons x xs ih =>
    have hrest := ih fun y hy => h y (List.mem_cons_of_mem x hy)
    by_cases hxs : xs = []
    · rw [hxs, List.intercalate_singleton]
      exact h x List.mem_cons_self
    · rw [List.intercalate_cons_of_ne_nil hxs]
      exact ((h x List.mem_cons_self).append hsep).append hrest

theorem utf8_buildAllowHeader (mm : Verb → Option RouteFn) : Utf8 (buildAllowHeader mm) := by
  have hnames : ∀ name ∈ ["GET".toList, "HEAD".toList, "POST".toList, "PUT".toList,
      "PATCH".toList, "DELETE".toList, "OPTIONS".toList], Utf8 name := by
    intro name hname
    apply utf8_literal
    revert name
    decide
  refine utf8_intercalate (utf8_literal (by decide)) fun name hname => hnames name ?_
  obtain ⟨item, hitem, rfl⟩ := List.mem_map.mp hname
  exact List.mem_map_of_mem (List.mem_of_mem_filter hitem)

theorem finish_options (hlib : JsonLibrary lib) (hq : Quiet middlewares) {request' : Request}
    (mm : Verb → Option RouteFn) :
    ¬ ServerError (finish lib request middlewares (makeOptionsAllow lib request' mm)).result := by
  have hkey : Utf8 "allow".toList := utf8_literal (by decide)
  have hbody : Written (.obj [("allow".toList,
      .arr [.arr [.int lib.allow_field, .str (buildAllowHeader mm)]])]) := by
    rw [written_members, List.forall_mem_singleton, written_items, List.forall_mem_singleton,
      written_items, List.forall_mem_cons, List.forall_mem_singleton, written_str]
    exact ⟨hkey, written_int _, utf8_buildAllowHeader mm⟩
  obtain ⟨_, response, hr, hstatus⟩ := (render_cases hlib (by decide : MayHaveBody 200) request' _
    true (allowHeader mm) (-1)).resolve_right fun h => h.1 hbody
  rw [not_serverError, hq.finish]
  unfold makeOptionsAllow
  dsimp only
  rw [hr]
  exact ⟨response, rfl, hstatus ▸ by decide⟩

end router

/-! ### Requests through the router -/

/-- The route takes other content types only. -/
def Unsupported (types : List Str) (request : Request) : Prop :=
  types ≠ [] ∧ request.body ≠ [] ∧
    (request.content_type = [] ∨ ¬ types.any (contains request.content_type))

/-- The checks before the handler refuse the request with a text that can be written, or hand on
a request with `p`. An error without a text is passed over. -/
def Admitted (lib : Library) (env : EnvConfig) (types : List Str) (p : Request → Prop)
    (request : Request) : Prop :=
  Unsupported types request ∨ env.file_upload_limit_size < request.body.length ∨
    match parseBody lib env request with
    | .ok r => p r
    | .error e => if c_str e.what = [] then p request else Utf8 (c_str e.what)

section dispatch
variable {lib : Library} {env : EnvConfig} {request : Request} {middlewares : List Middleware}
  {entry : RouteEntry} {fn : RouteFn} {p : Request → Prop} {types : List Str}

/-- Parsing the body keeps headers and captures. -/
structure SameHead (request r : Request) : Prop where
  headers : r.headers = request.headers
  path_params : r.path_params = request.path_params

theorem parseBody_head {r : Request} (h : parseBody lib env request = .ok r) :
    SameHead request r := by
  unfold parseBody at h
  split at h
  · cases hj : request.json lib with
    | error e =>
      rw [hj] at h
      cases h
    | ok j =>
      rw [hj] at h
      cases h
      exact ⟨rfl, rfl⟩
  split at h
  · unfold Request.parseMultipart at h
    split at h
    · cases h
    · cases h
      exact ⟨rfl, rfl⟩
  · cases h
    exact ⟨rfl, rfl⟩

theorem handle_admitted (hlib : JsonLibrary lib) (hq : Quiet middlewares)
    (htypes : (entry.allowedContentTypes request.method).getD [] = types)
    (hsent : ∀ r, SameHead request r →
      Sent (runChain (runLeaf entry.original request.method fn) middlewares r).result (p r)) :
    ¬ ServerError (handle lib env entry fn middlewares request).result ↔
      Admitted lib env types p request := by
  unfold handle refusal Admitted checked Unsupported
  dsimp only
  rw [htypes]
  by_cases hunsupported : types ≠ [] ∧ request.body ≠ [] ∧
      (request.content_type = [] ∨ ¬ types.any (contains request.content_type) = true)
  · rw [if_pos hunsupported]
    exact ⟨fun _ => .inl hunsupported, fun _ =>
      (finish_error hlib hq (by decide) (by decide) _ _).mpr (utf8_literal (by decide))⟩
  by_cases hsize : env.file_upload_limit_size < request.body.length
  · rw [if_neg hunsupported, if_pos hsize]
    exact ⟨fun _ => .inr (.inl hsize), fun _ =>
      (finish_error hlib hq (by decide) (by decide) _ _).mpr (utf8_literal (by decide))⟩
  rw [if_neg hunsupported, if_neg hsize, or_iff_right hunsupported, or_iff_right hsize]
  cases hparse : parseBody lib env request with
  | ok r => exact (hsent r (parseBody_head hparse)).runHandler hlib hq
  | error e =>
    dsimp only
    by_cases hwhat : c_str e.what = []
    · rw [if_neg (not_not.mpr hwhat), if_pos hwhat]
      exact (hsent request ⟨rfl, rfl⟩).runHandler hlib hq
    · rw [if_pos hwhat, if_neg hwhat]
      exact finish_error hlib hq (by decide) (by decide) _ _

variable {r : Router} {params : Dict Str}

theorem dispatch_handled (hlib : JsonLibrary lib)
    (hq : Quiet (r.collectMiddlewaresFor (normalizeTarget request)))
    (hm : r.matchRoute (normalizeTarget request) = some (entry, params))
    (hfn : entry.methods request.method = some fn)
    (htypes : (entry.allowedContentTypes request.method).getD [] = types)
    (hsent : ∀ request', SameHead { request with path_params := params } request' →
      Sent (runChain (runLeaf entry.original request.method fn)
        (r.collectMiddlewaresFor (normalizeTarget request)) request').result (p request')) :
    ¬ ServerError (RouterModel.dispatch lib env r request).result ↔
      Admitted lib env types p { request with path_params := params } := by
  have hdecision : r.decision request.method (normalizeTarget request) =
      .handled entry params fn := by
    unfold Router.decision
    rw [hm]
    simp only [hfn]
  rw [dispatch_decision, hdecision]
  exact handle_admitted hlib hq htypes hsent

/-- The checks of the body are for requests with a handler of their own. -/
theorem dispatch_head (hlib : JsonLibrary lib)
    (hq : Quiet (r.collectMiddlewaresFor (normalizeTarget request)))
    (hm : r.matchRoute (normalizeTarget request) = some (entry, params))
    (hmethod : request.method = .head) (hnone : entry.methods .head = none)
    (hfn : entry.methods .get = some fn)
    (hsent : ∀ request', SameHead { request with path_params := params } request' →
      Sent (runChain (runLeaf entry.original .get fn)
        (r.collectMiddlewaresFor (normalizeTarget request)) request').result (p request')) :
    ¬ ServerError (RouterModel.dispatch lib env r request).result ↔
      p { request with path_params := params } := by
  have hdecision : r.decision request.method (normalizeTarget request) =
      .autoHead entry params fn := by
    unfold Router.decision
    rw [hm, hmethod]
    simp only [hnone, hfn]
  rw [dispatch_decision, hdecision]
  exact (hsent { request with path_params := params } ⟨rfl, rfl⟩).autoHead hlib hq

theorem dispatch_unhandled (hlib : JsonLibrary lib)
    (hq : Quiet (r.collectMiddlewaresFor (normalizeTarget request)))
    (hm : r.matchRoute (normalizeTarget request) = some (entry, params))
    (hnone : entry.methods request.method = none)
    (hget : request.method = .head → entry.methods .get = none) :
    ¬ ServerError (RouterModel.dispatch lib env r request).result := by
  have hallow : ∀ request' : Request, ¬ ServerError (finish lib request'
      (r.collectMiddlewaresFor (normalizeTarget request))
      (make405 lib request' entry.methods)).result := fun request' =>
    (finish_error hlib hq (by decide) (by decide) _ _).mpr (utf8_literal (by decide))
  rw [dispatch_decision]
  unfold Router.decision
  rw [hm]
  simp only [hnone]
  cases hmethod : request.method with
  | head =>
    rw [hget hmethod]
    exact hallow _
  | options => exact finish_options hlib hq _
  | _ => exact hallow _

/-- A condition that does not look at the captures may be asked of the request as it came. -/
theorem admitted_params {q : Request → Prop}
    (h : ∀ request', p { request' with path_params := params } ↔ q request') :
    Admitted lib env types p { request with path_params := params } ↔
      Admitted lib env types q request := by
  have hjson : Request.json lib { request with path_params := params } = request.json lib := rfl
  have hct : Request.content_type { request with path_params := params } =
      request.content_type := rfl
  have hform : Request.parseMultipart lib env { request with path_params := params } =
      (request.parseMultipart lib env).map fun r => { r with path_params := params } := by
    unfold Request.parseMultipart
    rw [hct]
    dsimp only
    cases MultipartForm.parseMultipart lib.poco env.multipart_adapter request.content_type
      request.body with
    | error e => rfl
    | ok form => rfl
  have hparse : parseBody lib env { request with path_params := params } =
      (parseBody lib env request).map fun r => { r with path_params := params } := by
    unfold parseBody
    rw [hjson, hform, hct]
    split
    · cases request.json lib <;> rfl
    · split <;> rfl
  unfold Admitted
  rw [hparse]
  cases parseBody lib env request with
  | ok r => exact or_congr Iff.rfl (or_congr Iff.rfl (h r))
  | error e =>
    refine or_congr Iff.rfl (or_congr Iff.rfl ?_)
    simp only [Except.map, h]

end dispatch

end AdequateApi.AnswerStatus
