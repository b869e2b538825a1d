import AdequateApi.AnswerStatus

/-! The content-type gate of `dispatch`: a listed type anywhere in the header opens it. When this
is the comparison of media types. -/
namespace AdequateApi.ContentTypeGate
open StdString HttpMessages AdequateApi.UsersController RouterModel ApplicationRoutes AnswerStatus
  AccountCreation Utf8Text JsonText

/-! ### What dispatch does before the handler -/

/-- The checks of a request with a handler of its own, by the answer they end with. -/
inductive Check
  | unsupported
  | tooLarge
  | malformed (error : Str)
  | passed
  deriving DecidableEq, Repr

/-- The types listed for the method of the request. -/
def allowed (entry : RouteEntry) (request : Request) : List Str :=
  (entry.allowedContentTypes request.method).getD []

section checks

variable (lib : Library) (env : EnvConfig)

def check (entry : RouteEntry) (request : Request) : Check :=
  if allowed entry request ≠ [] ∧ request.body ≠ [] ∧
      (request.content_type = [] ∨
        ¬ (allowed entry request).any (contains request.content_type)) then
    .unsupported
  else if env.file_upload_limit_size < request.body.length then .tooLarge
  else
    match parseBody lib env request with
    | .ok _ => .passed
    | .error e => if c_str e.what ≠ [] then .malformed (c_str e.what) else .passed

/-- The rest of `dispatch`, after a check. -/
def Check.run (entry : RouteEntry) (fn : RouteFn) (middlewares : List Middleware)
    (request : Request) : Check → Dispatched
  | .unsupported => finish lib request middlewares (make415 lib request entry.methods)
  | .tooLarge => finish lib request middlewares (make413 lib request entry.methods)
  | .malformed error => finish lib request middlewares (make400 lib request error)
  | .passed => runHandler lib (runChain (runLeaf entry.original request.method fn) middlewares
      (checked lib env request)) middlewares

variable {lib env}

theorem handle_check (entry : RouteEntry) (fn : RouteFn) (middlewares : List Middleware)
    (request : Request) :
    handle lib env entry fn middlewares request =
      (check lib env entry request).run lib env entry fn middlewares request := by
  unfold handle refusal check allowed
  dsimp only
  by_cases hgate : (entry.allowedContentTypes request.method).getD [] ≠ [] ∧ request.body ≠ [] ∧
      (request.content_type = [] ∨
        ¬ ((entry.allowedContentTypes request.method).getD []).any (contains request.content_type))
  · rw [if_pos hgate, if_pos hgate]
    rfl
  rw [if_neg hgate, if_neg hgate]
  by_cases hsize : env.file_upload_limit_size < request.body.length
  · rw [if_pos hsize, if_pos hsize]
    rfl
  rw [if_neg hsize, if_neg hsize]
  cases parseBody lib env request with
  | ok r => rfl
  | error e =>
    dsimp only
    by_cases hwhat : c_str e.what ≠ []
    · rw [if_pos hwhat, if_pos hwhat]
      rfl
    · rw [if_neg hwhat, if_neg hwhat]
      rfl

variable {router : Router} {request : Request} {entry : RouteEntry} {params : Dict Str}
  {fn : RouteFn}

/-- A route method with its own handler. -/
theorem dispatch_check (hm : router.matchRoute (normalizeTarget request) = some (entry, params))
    (hfn : entry.methods request.method = some fn) :
    dispatch lib env router request =
      (check lib env entry { request with path_params := params }).run lib env entry fn
        (router.collectMiddlewaresFor (normalizeTarget request))
        { request with path_params := params } := by
  have hdecision : router.decision request.method (normalizeTarget request) =
      .handled entry params fn := by
    unfold Router.decision
    rw [hm]
    simp only [hfn]
  rw [dispatch_decision, hdecision, ← handle_check]
  rfl

end checks

/-! ### Media types -/

/-- The header value before the first semicolon, without blanks around it, in lower case. -/
def mediaType (contentType : Str) : Str :=
  toLower (MultipartForm.trimCopy (contentType.takeWhile (· ≠ ';')))

/-- The media type is one of the listed ones. -/
def Listed (types : List Str) (contentType : Str) : Prop :=
  ∃ t ∈ types, mediaType contentType = toLower t

/-- A listed type stands anywhere in the header value. -/
def Occurs (types : List Str) (contentType : Str) : Prop :=
  contentType ≠ [] ∧ ∃ t ∈ types, contains contentType t = true

instance (types : List Str) (contentType : Str) : Decidable (Listed types contentType) :=
  inferInstanceAs (Decidable (∃ t ∈ types, _))

theorem check_unsupported_iff {lib : Library} {env : EnvConfig} {entry : RouteEntry}
    {request : Request} (htypes : allowed entry request ≠ []) (hbody : request.body ≠ []) :
    check lib env entry request = .unsupported ↔
      ¬ Occurs (allowed entry request) request.content_type := by
  have hgate : (allowed entry request ≠ [] ∧ request.body ≠ [] ∧ (request.content_type = [] ∨
      ¬ (allowed entry request).any (contains request.content_type) = true)) ↔
        ¬ Occurs (allowed entry request) request.content_type := by
    rw [and_iff_right htypes, and_iff_right hbody, Occurs, not_and_or, not_not, List.any_eq_true]
  rw [← hgate]
  unfold check
  constructor
  · intro h
    by_contra hclosed
    rw [if_neg hclosed] at h
    split at h
    · cases h
    · split at h
      · cases h
      · split at h
        · cases h
        · cases h
  · exact fun h => if_pos h

/-! ### Answers -/

def Answers415 (d : Dispatched) : Prop :=
  ∃ response, d.result = .ok response ∧ response.status = 415

section answers

variable {lib : Library} {env : EnvConfig} {router : Router} {request : Request}
  {entry : RouteEntry} {params : Dict Str} {fn : RouteFn} {types : List Str}
  {middlewares : List Middleware}

theorem makeError_status {status : ℕ} {message : Str} {headers : Dict Str} {response : Response}
    (h : (makeError lib request status message headers).bind (render lib request) = .ok response) :
    response.status = status := by
  unfold makeError JsonRenderer.error at h
  cases hr : JsonRenderer.render lib request status
      (.obj [("error".toList, .str message), ("status".toList, .int status)]) false headers
      (-1) with
  | error e =>
    rw [hr] at h
    cases h
  | ok r =>
    rw [hr] at h
    cases h
    exact rendered_status hr

/-- A response keeps the status of its outcome, or is a 500 answer. -/
theorem answer_status {run : Run} {response : Response} (h : answer lib run = .ok response) :
    (∃ outcome, run.result = .ok outcome ∧ response.status = outcome.status) ∨
      response.status = 500 := by
  unfold answer at h
  split at h
  · rename_i written hwritten
    cases h
    left
    unfold Run.rendered at hwritten
    cases hr : run.result with
    | error e =>
      rw [hr] at hwritten
      cases hwritten
    | ok outcome =>
      rw [hr] at hwritten
      refine ⟨outcome, rfl, ?_⟩
      cases outcome with
      | response r =>
        cases hwritten
        rfl
      | json j => exact rendered_status hwritten
  · cases h
  · exact .inr (make500_status h)

/-- With texts that can be written, middlewares that leave responses alone, and no 415 from the
chain itself, the status tells which exit was taken. -/
theorem answers415_iff (hlib : JsonLibrary lib) (hq : Quiet middlewares)
    (hown : ∀ outcome, (runChain (runLeaf entry.original request.method fn) middlewares
      (checked lib env request)).result = .ok outcome → outcome.status ≠ 415) (c : Check) :
    Answers415 (c.run lib env entry fn middlewares request) ↔ c = .unsupported := by
  have herror {status : ℕ} {message : Str} {headers : Dict Str} (hstatus : status ≠ 415) :
      ¬ Answers415 (finish lib request middlewares
        (makeError lib request status message headers)) := by
    rintro ⟨response, hresponse, h415⟩
    rw [hq.finish] at hresponse
    exact hstatus ((makeError_status hresponse).symm.trans h415)
  cases c with
  | unsupported =>
    have hsent : ¬ ServerError (finish lib request middlewares
        (make415 lib request entry.methods)).result :=
      (finish_error hlib hq (by decide) (by decide) _ _).mpr (utf8_literal (by decide))
    obtain ⟨response, hresponse, -⟩ := not_serverError.mp hsent
    refine iff_of_true ⟨response, hresponse, ?_⟩ rfl
    rw [hq.finish] at hresponse
    exact makeError_status hresponse
  | tooLarge => exact iff_of_false (herror (by decide)) (by simp)
  | malformed error => exact iff_of_false (herror (by decide)) (by simp)
  | passed =>
    refine iff_of_false ?_ (by simp)
    rintro ⟨response, hresponse, h415⟩
    rw [Check.run, hq.runHandler] at hresponse
    rcases answer_status hresponse with ⟨outcome, houtcome, hstatus⟩ | hstatus
    · exact hown outcome houtcome (hstatus.symm.trans h415)
    · rw [hstatus] at h415
      cases h415

/-- Where the header has a listed type, it is the media type; and a listed media type is written
with the letters of some listed type. -/
structure Exact (types : List Str) (contentType : Str) : Prop where
  belongs : Occurs types contentType → Listed types contentType
  spelled : Listed types contentType → Occurs types contentType

/-- The exit of `dispatch`, and the status where nothing else gives or hides a 415, depend on the
media type for exactly these headers. -/
theorem gate_decides_iff
    (hm : router.matchRoute (normalizeTarget request) = some (entry, params))
    (hfn : entry.methods request.method = some fn)
    (htypes : entry.allowedContentTypes request.method = some types) (hne : types ≠ [])
    (hbody : request.body ≠ []) :
    let sent := { request with path_params := params }
    let middlewares := router.collectMiddlewaresFor (normalizeTarget request)
    dispatch lib env router request =
        (check lib env entry sent).run lib env entry fn middlewares sent ∧
      ((check lib env entry sent = .unsupported ↔ ¬ Listed types request.content_type) ↔
        Exact types request.content_type) ∧
      (JsonLibrary lib → Quiet middlewares →
        (∀ outcome, (runChain (runLeaf entry.original sent.method fn) middlewares
          (checked lib env sent)).result = .ok outcome → outcome.status ≠ 415) →
        ((Answers415 (dispatch lib env router request) ↔ ¬ Listed types request.content_type) ↔
          Exact types request.content_type)) := by
  intro sent middlewares
  have hallowed : allowed entry sent = types := by
    rw [allowed, htypes, Option.getD_some]
  have hgate : check lib env entry sent = .unsupported ↔
      ¬ Occurs (allowed entry sent) request.content_type :=
    check_unsupported_iff (hallowed ▸ hne) hbody
  have hexit : (check lib env entry sent = .unsupported ↔ ¬ Listed types request.content_type) ↔
      Exact types request.content_type := by
    rw [hgate, hallowed, not_iff_not]
    exact ⟨fun h => ⟨h.mp, h.mpr⟩, fun h => ⟨h.belongs, h.spelled⟩⟩
  refine ⟨dispatch_check hm hfn, hexit, fun hlib hq hown => ?_⟩
  rw [dispatch_check hm hfn, answers415_iff hlib hq hown]
  exact hexit

end answers

/-! ### Headers the gate misreads -/

/-- A route that takes JSON. -/
def jsonRouter : Router :=
  Router.empty.add .post "/items".toList
    (fun r => (r, .ok (.response ⟨201, 11, false, [], []⟩))) ["application/json".toList]

def posted (contentType : Str) : Request where
  method := .post
  version := 11
  target := "/items".toList
  keep_alive := false
  headers := [("Content-Type".toList, contentType)]
  body := "null".toList
  user_id := none
  path_params := []
  multipart := none

def jsonEntry : RouteEntry :=
  Router.RouteEntry.set (compileRoute "/items".toList) .post
    (fun r => (r, .ok (.response ⟨201, 11, false, [], []⟩))) ["application/json".toList]

theorem matchRoute_items (contentType : Str) :
    jsonRouter.matchRoute (normalizeTarget (posted contentType)) = some (jsonEntry, []) := by
  have htarget : normalizeTarget (posted contentType) = "/items".toList := rfl
  have hmatch : regex_match "/items".toList jsonEntry.regex = some [] := by decide +kernel
  have htable : jsonRouter.table = [jsonEntry] := rfl
  rw [htarget, Router.matchRoute, htable, List.findSome?_cons, hmatch]
  rfl

/-- Reads the body of the requests. -/
def nullLibrary : Library := readingOnly [("null".toList, .null)]

theorem nullLibrary_json : JsonLibrary nullLibrary :=
  readingOnly_library (List.forall_mem_singleton.mpr written_null)

/-- The listed type with a parameter, and a handler that answers 201. -/
theorem gate_decides_items :
    ((check nullLibrary ⟨1000, []⟩ jsonEntry (posted "application/json; charset=utf-8".toList) =
        .unsupported ↔
      ¬ Listed ["application/json".toList] "application/json; charset=utf-8".toList) ↔
      Exact ["application/json".toList] "application/json; charset=utf-8".toList) ∧
    ((Answers415 (dispatch nullLibrary ⟨1000, []⟩ jsonRouter
        (posted "application/json; charset=utf-8".toList)) ↔
      ¬ Listed ["application/json".toList] "application/json; charset=utf-8".toList) ↔
      Exact ["application/json".toList] "application/json; charset=utf-8".toList) := by
  obtain ⟨_, hexit, hstatus⟩ := @gate_decides_iff nullLibrary ⟨1000, []⟩ _ _ _ _ _ _
    (matchRoute_items "application/json; charset=utf-8".toList) rfl rfl (List.cons_ne_nil _ _)
    (List.cons_ne_nil _ _)
  refine ⟨hexit, hstatus nullLibrary_json ?_ ?_⟩
  · exact fun middleware hmem => absurd hmem List.not_mem_nil
  · intro outcome houtcome
    cases houtcome
    decide

/-- Another type that starts like the listed one is let in, and the listed one in capitals is
answered with 415. -/
theorem gate_misreads :
    (check nullLibrary ⟨1000, []⟩ jsonEntry (posted "application/json-patch+json".toList) ≠
        .unsupported ∧
      ¬ Listed ["application/json".toList] "application/json-patch+json".toList) ∧
    Answers415 (dispatch nullLibrary ⟨1000, []⟩ jsonRouter (posted "Application/JSON".toList)) ∧
      Listed ["application/json".toList] "Application/JSON".toList := by
  have hrefused : check nullLibrary ⟨1000, []⟩ jsonEntry (posted "Application/JSON".toList) =
      .unsupported := by decide +kernel
  have hdispatch : dispatch nullLibrary ⟨1000, []⟩ jsonRouter (posted "Application/JSON".toList) =
      finish nullLibrary (posted "Application/JSON".toList) []
        (make415 nullLibrary (posted "Application/JSON".toList) jsonEntry.methods) := by
    rw [dispatch_check (matchRoute_items _) rfl]
    exact congrArg (fun c : Check => c.run _ _ _ _ _ _) hrefused
  refine ⟨⟨by decide +kernel, by decide +kernel⟩, ?_, by decide +kernel⟩
  rw [hdispatch]
  exact ⟨_, rfl, rfl⟩

end AdequateApi.ContentTypeGate
