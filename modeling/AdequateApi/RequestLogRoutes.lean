import AdequateApi.RequestLog

/-! The records of the requests that carry a password, from `dispatch` to their handlers. -/
namespace AdequateApi.RequestLogRoutes
open StdString MultipartForm DbConnection HttpMessages UsersRepository AdequateApi.UsersService
  AdequateApi.UsersController AccountSerializers AccountStore AccountServices LoggedAction Action
  RouterModel ApplicationRoutes AccountCreation RequestLog

/-! ### JSON bodies -/

/-- A request that sends this value as JSON, small enough to be read. Without a content type of
its own the body is still read as JSON by the handlers. -/
structure SendsJson (lib : Library) (env : EnvConfig) (method : Verb) (path : Str) (j : Json)
    (r : Request) : Prop where
  method : r.method = method
  target : normalizeTarget r = path
  content_type : contains r.content_type "application/json".toList = true ∨
    contains r.content_type "multipart/form-data".toList = false
  size : r.body.length ≤ env.file_upload_limit_size
  body : lib.parse_json r.body = .ok j

section json
variable {lib : Library} {env : EnvConfig} {method : Verb} {path : Str} {j : Json} {r : Request}

theorem SendsJson.json (h : SendsJson lib env method path j r) : r.json lib = .ok j := by
  rw [Request.json, h.body]
  rfl

theorem SendsJson.parsed (h : SendsJson lib env method path j r) :
    parseBody lib env r = .ok r ∧ parseBodyLog lib env r = [] := by
  unfold parseBody parseBodyLog
  cases hj : contains r.content_type "application/json".toList with
  | true =>
    rw [if_pos rfl, if_pos rfl, h.json]
    exact ⟨rfl, rfl⟩
  | false =>
    have hm : contains r.content_type "multipart/form-data".toList = false := by
      rcases h.content_type with hc | hc
      · rw [hj] at hc
        cases hc
      · exact hc
    rw [hm]
    exact ⟨rfl, rfl⟩

theorem SendsJson.path_params (h : SendsJson lib env method path j r) (params : Dict Str) :
    SendsJson lib env method path j { r with path_params := params } :=
  ⟨h.method, h.target, h.content_type, h.size, h.body⟩

/-- A route without content types of its own. -/
theorem SendsJson.dispatchLog (h : SendsJson lib env method path j r) {router : Router}
    {entry : RouteEntry} {params : Dict Str} {fn : RouteFn}
    (hm : router.matchRoute path = some (entry, params)) (hfn : entry.methods method = some fn)
    (htypes : entry.allowedContentTypes method = some [])
    (chain : Str → Verb → Request → List LogRecord) :
    RequestLog.dispatchLog lib env router chain r =
      dispatchedLog r ++ chain entry.original method { r with path_params := params } := by
  obtain ⟨hparse, _⟩ := (h.path_params params).parsed
  have hallowed : (entry.allowedContentTypes r.method).getD [] = [] := by
    rw [h.method, htypes]
    rfl
  have hpass : refusal lib env entry { r with path_params := params } = none := by
    unfold refusal
    rw [hparse]
    dsimp only
    rw [hallowed, if_neg (fun h => h.1 rfl), if_neg (Nat.not_lt.mpr h.size)]
  have hchecked : checked lib env { r with path_params := params } =
      { r with path_params := params } := by
    unfold checked
    rw [hparse]
  rw [dispatchLog_passed (h.target ▸ hm) (h.method ▸ hfn) hpass, h.parsed.2, hchecked, h.method]
  rfl

end json

section routes
variable {app : Application} {s : Accounts app.db} {t : State} {m : Moment} {a : UpdateAnswers}
  {others : Str → Verb → Request → List LogRecord} {base : Handlers} {j : Json} {r : Request}

theorem register_log (h : SendsJson app.lib app.env .post "/register".toList j r) :
    requestLog app s t m a others base r = dispatchedLog r ++
      (AuthenticationController.registration app { r with path_params := [] } m s).log := by
  have hpublic : startsWith (normalizeTarget { r with path_params := [] }) "/users".toList =
      false := by
    rw [(h.path_params []).target]
    decide
  unfold requestLog
  rw [h.dispatchLog (matchRoute_register _) rfl rfl, chainLog, hpublic]
  rfl

theorem login_log (h : SendsJson app.lib app.env .post "/login".toList j r) :
    requestLog app s t m a others base r = dispatchedLog r ++
      (AuthenticationController.login app { r with path_params := [] } m s).log := by
  have hpublic : startsWith (normalizeTarget { r with path_params := [] }) "/users".toList =
      false := by
    rw [(h.path_params []).target]
    decide
  unfold requestLog
  rw [h.dispatchLog (matchRoute_login _) rfl rfl, chainLog, hpublic]
  rfl

theorem create_log (h : SendsJson app.lib app.env .post "/users".toList j r) :
    requestLog app s t m a others base r = dispatchedLog r ++ authorizedLog app s m r fun id =>
      (AccountServices.UsersController.store app { r with path_params := [], user_id := some id }
        m s).log := by
  have husers : startsWith (normalizeTarget { r with path_params := [] }) "/users".toList =
      true := by
    rw [(h.path_params []).target]
    decide
  unfold requestLog
  rw [h.dispatchLog (matchRoute_users _) rfl rfl, chainLog, husers]
  rfl

end routes

/-! ### Forms -/

def formOf (parts : List Part) : Form := parts.foldl Form.add ⟨[], []⟩

/-- A form that is sent to a user's path. -/
structure SendsForm (lib : Library) (env : EnvConfig) (segment : Str) (parts : List Part)
    (r : Request) : Prop where
  method : r.method = .patch
  target : normalizeTarget r = userPath segment
  segment : segment ≠ [] ∧ '/' ∉ segment
  content_type : contains r.content_type "multipart/form-data".toList = true
  not_json : contains r.content_type "application/json".toList = false
  size : r.body.length ≤ env.file_upload_limit_size
  adapter : env.multipart_adapter = "POCO".toList
  parts : parse lib.poco r.content_type r.body = .ok parts

section form
variable {lib : Library} {env : EnvConfig} {segment : Str} {parts : List Part} {r : Request}

theorem SendsForm.path_params (h : SendsForm lib env segment parts r) (params : Dict Str) :
    SendsForm lib env segment parts { r with path_params := params } :=
  ⟨h.method, h.target, h.segment, h.content_type, h.not_json, h.size, h.adapter, h.parts⟩

theorem SendsForm.parsed (h : SendsForm lib env segment parts r) :
    parseBody lib env r = .ok { r with multipart := some (formOf parts) } ∧
      parseBodyLog lib env r = parts.flatMap partLog := by
  unfold parseBody parseBodyLog
  rw [h.not_json, h.content_type]
  constructor
  · have hform : parseMultipart lib.poco env.multipart_adapter r.content_type r.body =
        .ok (formOf parts) := by
      rw [parseMultipart, if_neg (not_not.mpr h.adapter), h.parts]
      rfl
    rw [if_neg (by decide), if_pos rfl, Request.parseMultipart, hform]
  · rw [if_neg (by decide), if_pos rfl, parseMultipartLog, if_neg (not_not.mpr h.adapter), h.parts]

end form

section form_log
variable {app : Application} {s : Accounts app.db} {t : State} {m : Moment} {a : UpdateAnswers}
  {others : Str → Verb → Request → List LogRecord} {base : Handlers} {segment : Str}
  {parts : List Part} {r : Request}

/-- The request as the handler of the update gets it. -/
def handedOn (segment : Str) (form : Option Form) (r : Request) (id : ℤ) : Request :=
  { r with path_params := [("id".toList, segment)], multipart := form, user_id := some id }

/-- A body that is announced as a form and can be read leads to the handler. -/
theorem userRoute_log {form : Option Form} (hmethod : r.method = .patch)
    (htarget : normalizeTarget r = userPath segment) (hsegment : segment ≠ [] ∧ '/' ∉ segment)
    (hct : contains r.content_type "multipart/form-data".toList = true)
    (hsize : r.body.length ≤ app.env.file_upload_limit_size)
    (hparsed : parseBody app.lib app.env { r with path_params := [("id".toList, segment)] } =
      .ok { r with path_params := [("id".toList, segment)], multipart := form }) :
    requestLog app s t m a others base r = dispatchedLog r ++ (parseBodyLog app.lib app.env r ++
      authorizedLog app s m r fun id =>
        (RequestLog.update app.toServices (handedOn segment form r id) a t).log) := by
  have hm : (router (accountHandlers app base s m)).matchRoute (normalizeTarget r) =
      some (userEntry (accountHandlers app base s m), [("id".toList, segment)]) := by
    rw [htarget, matchRoute_user _ hsegment.1 hsegment.2]
  have hfn : (userEntry (accountHandlers app base s m)).methods r.method = some base.update := by
    rw [hmethod]
    rfl
  have htypes : ((userEntry (accountHandlers app base s m)).allowedContentTypes r.method).getD [] =
      ["multipart/form-data".toList] := by
    rw [hmethod]
    rfl
  have hallowed : ¬ (r.content_type = [] ∨
      ¬ ["multipart/form-data".toList].any (contains r.content_type) = true) := by
    rintro (hnil | hnone)
    · rw [hnil] at hct
      exact absurd hct (by decide)
    · exact hnone (by rw [List.any_cons, hct, Bool.true_or])
  have hpass : refusal app.lib app.env (userEntry (accountHandlers app base s m))
      { r with path_params := [("id".toList, segment)] } = none := by
    unfold refusal
    rw [hparsed]
    dsimp only
    rw [htypes, if_neg (fun h => hallowed h.2.2), if_neg (Nat.not_lt.mpr hsize)]
  have husers : startsWith (normalizeTarget r) "/users".toList = true := by
    rw [htarget]
    rfl
  have hpath : (userEntry (accountHandlers app base s m)).original = "/users/{id}".toList := rfl
  have hother : ∀ {template : Str} {method : Verb}, "/users/{id}".toList ≠ template →
      ¬ ("/users/{id}".toList = template ∧ r.method = method) := fun hne h => hne h.1
  unfold requestLog
  rw [dispatchLog_passed hm hfn hpass, checked, hparsed, chainLog]
  refine congrArg (_ ++ ·) (congrArg (_ ++ ·) ((if_pos husers).trans ?_))
  refine congrArg (authorizedLog app s m r) (funext fun id => ?_)
  unfold handlerLog
  rw [hpath, if_neg (hother (by decide)), if_neg (hother (by decide)), if_neg (hother (by decide)),
    if_pos ⟨rfl, hmethod⟩]
  rfl

theorem form_log (h : SendsForm app.lib app.env segment parts r) :
    requestLog app s t m a others base r = dispatchedLog r ++ (parts.flatMap partLog ++
      authorizedLog app s m r fun id => (RequestLog.update app.toServices
        (handedOn segment (some (formOf parts)) r id) a t).log) := by
  rw [userRoute_log h.method h.target h.segment h.content_type h.size (h.path_params _).parsed.1,
    h.parsed.2]

/-- The update of a body that is not a form. -/
def refusedUpdateLog (segment : Str) (r : Request) : List LogRecord :=
  match stoi segment with
  | .error _ => []
  | .ok _ => [info "UsersController::update: called" (methodAndTarget r)]

/-- A JSON body is refused for its content type. Where this names both types, the handler finds
no form. -/
theorem json_update_log {j : Json} (h : SendsJson app.lib app.env .patch (userPath segment) j r)
    (hsegment : segment ≠ [] ∧ '/' ∉ segment) (hbody : r.body ≠ []) (hform : r.multipart = none) :
    requestLog app s t m a others base r =
      if contains r.content_type "multipart/form-data".toList then
        dispatchedLog r ++ authorizedLog app s m r fun _ => refusedUpdateLog segment r
      else [info "Router::dispatch: called" (methodAndTarget r)] := by
  by_cases hct : contains r.content_type "multipart/form-data".toList = true
  · have hparsed := (h.path_params [("id".toList, segment)]).parsed.1
    have hupdate : ∀ id, (RequestLog.update app.toServices
        (handedOn segment r.multipart r id) a t).log = refusedUpdateLog segment r := by
      intro id
      have hread : readBody app.toServices (handedOn segment r.multipart r id) =
          .error (.std "multipart was not parsed".toList) := by
        rw [hform]
        exact if_pos hct
      have hid : pathId (handedOn segment r.multipart r id) =
          (stoi segment).mapError Exn.std := rfl
      unfold RequestLog.update refusedUpdateLog
      rw [hid, hread]
      cases stoi segment with
      | error e => rfl
      | ok n => rfl
    rw [if_pos hct, userRoute_log h.method h.target hsegment hct h.size hparsed, h.parsed.2]
    simp only [hupdate]
    rfl
  · have hm : (router (accountHandlers app base s m)).matchRoute (normalizeTarget r) =
        some (userEntry (accountHandlers app base s m), [("id".toList, segment)]) := by
      rw [h.target, matchRoute_user _ hsegment.1 hsegment.2]
    have htypes : ((userEntry (accountHandlers app base s m)).allowedContentTypes r.method).getD []
        = ["multipart/form-data".toList] := by
      rw [h.method]
      rfl
    have hfn : (userEntry (accountHandlers app base s m)).methods r.method = some base.update := by
      rw [h.method]
      rfl
    rw [if_neg hct]
    refine dispatchLog_unsupported hm hfn ?_ _
    rw [htypes]
    refine ⟨List.cons_ne_nil _ _, hbody, .inr ?_⟩
    simpa using hct

end form_log

end AdequateApi.RequestLogRoutes
