import AdequateApi.RouterModel

/-! The exits of `dispatch`: which handler it selects, and what it checks before running it. -/
namespace AdequateApi.RouterModel
open StdString HttpMessages

/-- What becomes of a request, by the entry its path selects. -/
inductive Decision
  | notFound
  | autoHead (entry : RouteEntry) (params : Dict Str) (fn : RouteFn)
  | autoOptions (entry : RouteEntry) (params : Dict Str)
  | notAllowed (entry : RouteEntry) (params : Dict Str)
  | handled (entry : RouteEntry) (params : Dict Str) (fn : RouteFn)

def Router.decision (r : Router) (method : Verb) (path : Str) : Decision :=
  match r.matchRoute path with
  | none => .notFound
  | some (entry, params) =>
      match entry.methods method with
      | some fn => .handled entry params fn
      | none =>
          match method, entry.methods .get with
          | .head, some fn => .autoHead entry params fn
          | .options, _ => .autoOptions entry params
          | _, _ => .notAllowed entry params

/-- A handler is selected by the entry that the path selects. -/
theorem decision_handled_iff {r : Router} {method : Verb} {path : Str} {entry : RouteEntry}
    {params : Dict Str} {fn : RouteFn} :
    r.decision method path = .handled entry params fn ↔
      r.matchRoute path = some (entry, params) ∧ entry.methods method = some fn := by
  unfold Router.decision
  constructor
  · intro h
    split at h
    · cases h
    · rename_i e ps hm
      split at h
      · rename_i hfn
        cases h
        exact ⟨hm, hfn⟩
      · split at h <;> cases h
  · rintro ⟨hm, hfn⟩
    rw [hm]
    dsimp only
    rw [hfn]

section checks
variable (lib : Library) (env : EnvConfig)

/-- The answer of the checks of content type, size and body, if they refuse the request. -/
def refusal (entry : RouteEntry) (request : Request) : Option (Except Exn Outcome) :=
  let allowed := (entry.allowedContentTypes request.method).getD []
  let ct := request.content_type
  let hasBody := request.body ≠ []
  if allowed ≠ [] ∧ hasBody ∧ (ct = [] ∨ ¬ allowed.any (contains ct)) then
    some (make415 lib request entry.methods)
  else if env.file_upload_limit_size < request.body.length then
    some (make413 lib request entry.methods)
  else
    match parseBody lib env request with
    | .ok _ => none
    | .error e => if c_str e.what ≠ [] then some (make400 lib request (c_str e.what)) else none

/-- The request that the chain gets after the checks. -/
def checked (request : Request) : Request :=
  match parseBody lib env request with
  | .ok r => r
  | .error _ => request

/-- Checks first, then the chain and the hooks. -/
def handle (entry : RouteEntry) (fn : RouteFn) (middlewares : List Middleware)
    (request : Request) : Dispatched :=
  match refusal lib env entry request with
  | some outcome => finish lib request middlewares outcome
  | none =>
      runHandler lib
        (runChain (runLeaf entry.original request.method fn) middlewares (checked lib env request))
        middlewares

def Decision.run (middlewares : List Middleware) (request : Request) : Decision → Dispatched
  | .notFound => finish lib request middlewares (make404 lib request)
  | .autoHead entry params fn =>
      let request := { request with path_params := params }
      RouterModel.autoHead lib (runChain (runLeaf entry.original .get fn) middlewares request)
        middlewares
  | .autoOptions entry params =>
      let request := { request with path_params := params }
      finish lib request middlewares (makeOptionsAllow lib request entry.methods)
  | .notAllowed entry params =>
      let request := { request with path_params := params }
      finish lib request middlewares (make405 lib request entry.methods)
  | .handled entry params fn =>
      handle lib env entry fn middlewares { request with path_params := params }

/-- Parsing the body adds the form, at most. -/
theorem checked_form (r : Request) :
    ∃ form, checked lib env r = { r with multipart := form } := by
  unfold checked
  split
  · rename_i parsed hparsed
    unfold parseBody at hparsed
    split at hparsed
    · cases hj : r.json lib with
      | error e =>
        rw [hj] at hparsed
        cases hparsed
      | ok j =>
        rw [hj] at hparsed
        cases hparsed
        exact ⟨_, rfl⟩
    · split at hparsed
      · unfold Request.parseMultipart at hparsed
        split at hparsed
        · cases hparsed
        · cases hparsed
          exact ⟨_, rfl⟩
      · cases hparsed
        exact ⟨_, rfl⟩
  · exact ⟨_, rfl⟩

theorem handle_refused {entry : RouteEntry} {request : Request} {outcome : Except Exn Outcome}
    (h : refusal lib env entry request = some outcome) (fn : RouteFn)
    (middlewares : List Middleware) :
    handle lib env entry fn middlewares request = finish lib request middlewares outcome := by
  rw [handle, h]

theorem handle_checked {entry : RouteEntry} {request : Request}
    (h : refusal lib env entry request = none) (fn : RouteFn) (middlewares : List Middleware) :
    handle lib env entry fn middlewares request =
      runHandler lib (runChain (runLeaf entry.original request.method fn) middlewares
        (checked lib env request)) middlewares := by
  rw [handle, h]

theorem checked_method (request : Request) :
    (checked lib env request).method = request.method := by
  unfold checked parseBody
  split
  · rename_i r hr
    split at hr
    · cases hj : request.json lib with
      | error e => simp [hj, Except.map] at hr
      | ok j =>
        simp only [hj, Except.map, Except.ok.injEq] at hr
        rw [hr]
    split at hr
    · unfold Request.parseMultipart at hr
      split at hr
      · cases hr
      · cases hr
        rfl
    · cases hr
      rfl
  · rfl

variable {lib env}

theorem dispatchTo_handled {entry : RouteEntry} {request : Request} {fn : RouteFn}
    (h : entry.methods request.method = some fn) (middlewares : List Middleware) :
    dispatchTo lib env entry middlewares request =
      handle lib env entry fn middlewares request := by
  unfold dispatchTo
  dsimp only
  split
  · rename_i hv hhead _
    rw [hv, hhead] at h
    cases h
  · rename_i hnone
    rw [h] at hnone
    cases hnone
  · rename_i hnone _ _
    rw [h] at hnone
    cases hnone
  · rename_i f hf _
    rw [h] at hf
    cases hf
    unfold handle refusal
    dsimp only
    generalize ht : (entry.allowedContentTypes request.method).getD [] = allowed
    by_cases hct : allowed ≠ [] ∧ request.content_type = [] ∧ request.body ≠ []
    · rw [if_pos hct, if_pos ⟨hct.1, hct.2.2, .inl hct.2.1⟩]
    rw [if_neg hct]
    by_cases hany : allowed ≠ [] ∧ request.body ≠ [] ∧
        ¬ allowed.any (contains request.content_type) = true
    · rw [if_pos hany, if_pos ⟨hany.1, hany.2.1, .inr hany.2.2⟩]
    have hpass : ¬ (allowed ≠ [] ∧ request.body ≠ [] ∧
        (request.content_type = [] ∨ ¬ allowed.any (contains request.content_type) = true)) := by
      rintro ⟨ha, hb, hc | hc⟩
      · exact hct ⟨ha, hc, hb⟩
      · exact hany ⟨ha, hb, hc⟩
    rw [if_neg hany, if_neg hpass]
    by_cases hsize : env.file_upload_limit_size < request.body.length
    · rw [if_pos hsize, if_pos hsize]
    rw [if_neg hsize, if_neg hsize, ← checked_method lib env request]
    unfold checked
    cases parseBody lib env request with
    | ok r => rfl
    | error e =>
      dsimp only
      split <;> rfl

theorem dispatchTo_unhandled {entry : RouteEntry} {request : Request}
    (h : entry.methods request.method = none) (middlewares : List Middleware) :
    dispatchTo lib env entry middlewares request =
      match request.method, entry.methods .get with
      | .head, some fn =>
          autoHead lib (runChain (runLeaf entry.original .get fn) middlewares request) middlewares
      | .options, _ => finish lib request middlewares (makeOptionsAllow lib request entry.methods)
      | _, _ => finish lib request middlewares (make405 lib request entry.methods) := by
  unfold dispatchTo
  dsimp only
  rw [h]
  cases hv : request.method with
  | head =>
    rw [hv] at h
    rw [h]
    cases entry.methods .get with
    | none => rfl
    | some fn => rfl
  | _ => rfl

theorem dispatch_decision (router : Router) (request : Request) :
    dispatch lib env router request =
      (router.decision request.method (normalizeTarget request)).run lib env
        (router.collectMiddlewaresFor (normalizeTarget request)) request := by
  unfold dispatch Router.decision
  dsimp only
  cases router.matchRoute (normalizeTarget request) with
  | none => rfl
  | some found =>
    obtain ⟨entry, params⟩ := found
    dsimp only
    cases hm : entry.methods request.method with
    | some fn =>
      apply dispatchTo_handled
      exact hm
    | none =>
      refine Eq.trans (dispatchTo_unhandled ?_ _) ?_
      · exact hm
      obtain ⟨method⟩ := request
      dsimp only
      cases method with
      | head =>
        cases entry.methods .get with
        | none => rfl
        | some fn => rfl
      | _ => rfl

end checks
end AdequateApi.RouterModel
