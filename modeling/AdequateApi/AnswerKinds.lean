import AdequateApi.ServerStep

/-! The answers of the application: their statuses, whether they keep the connection open, and
how long they say they are. -/
namespace AdequateApi.AnswerKinds
open StdString HttpMessages AdequateApi.UsersController AccountStore AccountServices
  AccountCreation LoggedAction Action RouterModel ApplicationRoutes UsersIndex ServerErrors
  ApplicationDispatch AccountAccess ServerStep

/-! ### Rendering -/

/-- The length that the answer announces is that of its body. -/
def Framed (response : Response) : Prop :=
  response.headers.find "Content-Length".toList = some (to_string response.body.length)

/-- A key that a filter on the keys keeps. -/
theorem find_filter_ne {m : Dict Str} {k l : Str} (h : l ≠ k) :
    Dict.find (List.filter (fun e => e.1 ≠ k) m) l = m.find l := by
  unfold Dict.find
  rw [List.find?_filter]
  congr 2
  funext e
  by_cases he : e.1 = l
  · simp [he, h]
  · simp [he]

theorem prepare_payload_framed {r response : Response} (h : r.prepare_payload = .ok response) :
    response.status = r.status ∧ response.keep_alive = r.keep_alive ∧ Framed response := by
  unfold Response.prepare_payload at h
  split at h
  · cases h
  · cases h
    exact ⟨rfl, rfl, Dict.find_set_self _ _ _⟩

theorem render_framed {lib : Library} {request : Request} {status : ℕ} {body : Json}
    {keepAlive : Bool} {headers : Dict Str} {indent : ℤ} {response : Response}
    (h : JsonRenderer.render lib request status body keepAlive headers indent = .ok response) :
    response.status = status ∧ response.keep_alive = keepAlive ∧ Framed response := by
  unfold JsonRenderer.render at h
  split at h
  · cases h
  · dsimp only at h
    split at h
    · rename_i h204
      cases h
      refine ⟨h204.symm ▸ rfl, rfl, ?_⟩
      unfold Framed
      rw [find_filter_ne (by decide)]
      exact Dict.find_set_self _ _ _
    · exact prepare_payload_framed h

/-! ### Kinds of answers -/

/-- Errors of the router and of exceptions end the connection; a refusal of the middleware and
the list of methods keep it open, whatever the client asked for; an answer of a handler does as
the client asked. -/
inductive Kind (request : Request) (response : Response) : Prop
  | closing (status : response.status ∈ [400, 404, 405, 413, 415, 500])
      (closes : response.keep_alive = false)
  | keeping (status : response.status = 401 ∨ request.method = .options ∧ response.status = 200)
      (keeps : response.keep_alive = true)
  | mirroring (status : response.status ∈ [200, 201, 204, 302, 409, 422, 502])
      (mirrors : response.keep_alive = request.keep_alive)

theorem Kind.same {request : Request} {response response' : Response} (h : Kind request response)
    (hstatus : response'.status = response.status)
    (hkeep : response'.keep_alive = response.keep_alive) : Kind request response' := by
  cases h with
  | closing status closes => exact .closing (hstatus ▸ status) (hkeep.trans closes)
  | keeping status keeps => exact .keeping (hstatus.symm ▸ status) (hkeep.trans keeps)
  | mirroring status mirrors => exact .mirroring (hstatus ▸ status) (hkeep.trans mirrors)

/-- The answer that a handler gives to a request, with one of these statuses. -/
inductive Handled (statuses : List ℕ) (request : Request) : Outcome → Prop
  | json (body : Json) (status : ℕ) (hstatus : status ∈ statuses) :
      Handled statuses request (.json ⟨body, status, request.keep_alive, -1⟩)
  | redirect (response : Response) (hstatus : response.status ∈ statuses)
      (mirrors : response.keep_alive = request.keep_alive) (framed : Framed response) :
      Handled statuses request (.response response)

/-- The statuses of the handlers that create something. -/
def creating : List ℕ := [201, 409, 422, 502]

/-- The statuses of the handlers that change or remove a user. -/
def changing : List ℕ := [204, 409, 422]

theorem handled_error {statuses : List ℕ} (request : Request) {status : ℕ} (h : status ∈ statuses)
    (what : Str) : Handled statuses request (errorResult request status what) :=
  .json _ status h

theorem handled_created (request : Request) (body : Json) :
    Handled creating request (created request body) := .json body 201 (by decide)

section handlers
variable {app : Application} {request : Request} {m : Moment}

theorem registration_handled :
    Ends (Handled creating request) (AuthenticationController.registration app request m) := by
  refine .bind fun _ => .bind fun body => .bind fun _ => .bind fun data => .bind fun _ => ?_
  cases data with
  | error text => exact ends_pure (handled_error request (by decide) text)
  | ok data =>
    refine .bind fun done => ?_
    cases done with
    | error text => exact ends_pure (handled_error request (by decide) text)
    | ok u => exact ends_pure (handled_created request _)

theorem login_handled :
    Ends (Handled creating request) (AuthenticationController.login app request m) := by
  refine .bind fun _ => .bind fun body => .bind fun _ => .bind fun data => .bind fun _ => ?_
  cases data with
  | error text => exact ends_pure (handled_error request (by decide) text)
  | ok data =>
    refine .bind fun userExists => ?_
    rcases userExists with text | found
    · exact ends_pure (handled_error request (by decide) text)
    cases found with
    | false => exact ends_pure (handled_error request (by decide) _)
    | true =>
      refine .bind fun tokens => ?_
      cases tokens with
      | error text => exact ends_pure (handled_error request (by decide) text)
      | ok tokens => exact .bind fun _ => ends_pure (handled_created request tokens)

theorem store_handled :
    Ends (Handled creating request) (AccountServices.UsersController.store app request m) := by
  refine .bind fun _ => .bind fun body => .bind fun _ => .bind fun data => .bind fun _ => ?_
  cases data with
  | error text => exact ends_pure (handled_error request (by decide) text)
  | ok data =>
    refine .bind fun user => ?_
    cases user with
    | error text => exact ends_pure (handled_error request (by decide) text)
    | ok user => exact ends_pure (handled_created request _)

theorem index_handled {srv : UsersService.Services}
    {pool : Str → List (Option Str) → Except DbConnection.PgError DbConnection.PgResult}
    {urls : Str → Option (List (Str × Str))} {o : Outcome}
    (h : index srv pool urls request = .ok o) : Handled [200] request o := by
  unfold index at h
  obtain ⟨filters, _, h⟩ := AccountSerializers.bind_ok.mp h
  obtain ⟨users, _, h⟩ := AccountSerializers.bind_ok.mp h
  cases h
  exact .json _ 200 (by decide)

theorem update_handled {srv : UsersService.Services} {s : UsersService.State}
    {a : UsersService.UpdateAnswers} {o : Outcome}
    (h : (AdequateApi.UsersController.update srv s request a).2 = .ok o) :
    Handled changing request o := by
  unfold AdequateApi.UsersController.update at h
  split at h
  · cases h
  · cases h
  · split at h
    · cases h
      exact handled_error request (by decide) _
    · cases h
    · split at h
      · cases h
        exact handled_error request (by decide) _
      · cases h
      · cases h
        exact .json _ 204 (by decide)

theorem remove_handled {srv : UsersService.Services} {s : UsersService.State}
    {a : UsersService.RemoveAnswers} {o : Outcome}
    (h : (AdequateApi.UsersController.remove srv s request a).2 = .ok o) :
    Handled changing request o := by
  unfold AdequateApi.UsersController.remove at h
  split at h
  · cases h
  · split at h
    · cases h
      exact handled_error request (by decide) _
    · cases h
    · cases h
      exact .json _ 204 (by decide)

theorem swagger_handled {urls : Str → Option (List (Str × Str))} {o : Outcome}
    (h : SwaggerController.index urls request = .ok o) : Handled [302] request o := by
  unfold SwaggerController.index at h
  dsimp only at h
  generalize (if ((Request.query urls request).find "json".toList).isSome then
    "/openapi/swagger.json".toList else "/openapi/".toList) = location at h
  cases hr : Response.redirect request.version request.keep_alive location 302 with
  | error e =>
    rw [hr] at h
    cases h
  | ok response =>
    rw [hr] at h
    cases h
    obtain ⟨hstatus, hkeep, hframed⟩ := prepare_payload_framed hr
    exact .redirect response (List.mem_singleton.mpr hstatus) hkeep hframed

/-- The statuses of the handlers, by template and method. -/
def statusesOf (tmpl : Str) : Verb → List ℕ
  | .get => if tmpl = "/swagger".toList then [302] else [200]
  | .post => creating
  | .patch | .delete_ => changing
  | _ => []

theorem statusesOf_subset (tmpl : Str) (v : Verb) :
    statusesOf tmpl v ⊆ [200, 201, 204, 302, 409, 422, 502] := by
  have hget : [302] ⊆ [200, 201, 204, 302, 409, 422, 502] ∧
      [200] ⊆ [200, 201, 204, 302, 409, 422, 502] := by decide
  have hother : creating ⊆ [200, 201, 204, 302, 409, 422, 502] ∧
      changing ⊆ [200, 201, 204, 302, 409, 422, 502] := by decide
  cases v with
  | get =>
    change (if tmpl = "/swagger".toList then [302] else [200]) ⊆ _
    by_cases hswagger : tmpl = "/swagger".toList
    · rw [if_pos hswagger]
      exact hget.1
    · rw [if_neg hswagger]
      exact hget.2
  | post => exact hother.1
  | patch => exact hother.2
  | delete_ => exact hother.2
  | _ => exact List.nil_subset _

theorem handler_handled {st : Store app} {e : Surroundings} {tmpl : Str} {v : Verb} {fn : RouteFn}
    {types : List Str} (hserves : Serves (st.world e).handlers tmpl v fn types) (r : Request) :
    (fn r).1 = r ∧ ∀ o, (fn r).2 = .ok o → Handled (statusesOf tmpl v) r o := by
  cases hserves with
  | health => exact ⟨rfl, fun o h => by cases h; exact .json _ 200 (by decide)⟩
  | registration => exact ⟨rfl, fun o h => registration_handled _ o h⟩
  | login => exact ⟨rfl, fun o h => login_handled _ o h⟩
  | index => exact ⟨rfl, fun o h => index_handled h⟩
  | store => exact ⟨rfl, fun o h => store_handled _ o h⟩
  | update => exact ⟨rfl, fun o h => update_handled h⟩
  | remove => exact ⟨rfl, fun o h => remove_handled h⟩
  | swagger => exact ⟨rfl, fun o h => swagger_handled h⟩

/-- The middleware refuses with 401 and nothing else. -/
theorem authenticate_refuses : Ends (fun a : Except Outcome ℤ => ∀ o, a = .error o →
    ∃ text, o = unauthorized text) (authenticate app request m) := by
  have hrefused : ∀ text : Str, ∀ o, (Except.error (unauthorized text) : Except Outcome ℤ) =
      .error o → ∃ text, o = unauthorized text := by
    rintro text o ⟨⟩
    exact ⟨text, rfl⟩
  unfold authenticate
  split
  · exact .bind fun _ => ends_pure (hrefused _)
  · split
    · exact .bind fun _ => ends_pure (hrefused _)
    · refine .bind fun incomingUser => ?_
      cases incomingUser with
      | error text => exact ends_pure (hrefused _)
      | ok user =>
        refine .bind fun userExists => ?_
        rcases userExists with text | found
        · exact ends_pure (hrefused _)
        cases found with
        | false => exact ends_pure (hrefused _)
        | true => exact ends_pure fun o h => by cases h

end handlers

/-! ### Answers -/

section answers
variable {lib : Library} {env : EnvConfig} {request r : Request} {response : Response}

theorem makeError_closing {status : ℕ} {message : Str} {headers : Dict Str}
    (hstatus : status ∈ [400, 404, 405, 413, 415, 500])
    (h : (makeError lib r status message headers).bind (render lib r) = .ok response) :
    Kind request response ∧ Framed response ∧ response.status = status := by
  unfold makeError JsonRenderer.error at h
  cases hr : JsonRenderer.render lib r status
      (.obj [("error".toList, .str message), ("status".toList, .int status)]) false headers
      (-1) with
  | error e =>
    rw [hr] at h
    cases h
  | ok rendered =>
    rw [hr] at h
    cases h
    obtain ⟨hs, hk, hf⟩ := render_framed hr
    exact ⟨.closing (hs ▸ hstatus) hk, hf, hs⟩

theorem makeOptions_keeping {mm : Verb → Option RouteFn} (hmethod : request.method = .options)
    (h : (makeOptionsAllow lib r mm).bind (render lib r) = .ok response) :
    Kind request response ∧ Framed response ∧ response.status = 200 := by
  unfold makeOptionsAllow at h
  dsimp only at h
  cases hr : JsonRenderer.render lib r 200 (.obj [("allow".toList,
      .arr [.arr [.int lib.allow_field, .str (buildAllowHeader mm)]])]) true (allowHeader mm)
      (-1) with
  | error e =>
    rw [hr] at h
    cases h
  | ok rendered =>
    rw [hr] at h
    cases h
    obtain ⟨hs, hk, hf⟩ := render_framed hr
    exact ⟨.keeping (.inr ⟨hmethod, hs⟩) hk, hf, hs⟩

theorem rendered_handled {statuses : List ℕ} {o : Outcome} (ho : Handled statuses r o)
    (h : render lib r o = .ok response) :
    response.status ∈ statuses ∧ response.status = o.status ∧
      response.keep_alive = r.keep_alive ∧ Framed response := by
  cases ho with
  | json body status hstatus =>
    obtain ⟨hs, hk, hf⟩ := render_framed h
    exact ⟨hs.symm ▸ hstatus, hs, hk, hf⟩
  | redirect redirected hstatus mirrors framed =>
    cases h
    exact ⟨hstatus, rfl, mirrors, framed⟩

theorem rendered_unauthorized {text : Str} (h : render lib r (unauthorized text) = .ok response) :
    response.status = 401 ∧ response.keep_alive = true ∧ Framed response := render_framed h

/-- What the chain for a path can be answered with: the refusal of the middleware, before any
handler, or what the handler makes of the request. The middleware adds the id to it at most. -/
inductive Replied (app : Application) (s : Accounts app.db) (m : Moment) (path : Str) (r : Request)
    (tmpl : Str) (method : Verb) (fn : RouteFn) (response : Response) : Option Event → Prop
  | refused (text : Str) (hrendered : render app.lib r (unauthorized text) = .ok response) :
      Replied app s m path r tmpl method fn response none
  | handled (id : Option ℤ) (o : Outcome) (ho : (fn { r with user_id := id }).2 = .ok o)
      (hhandled : Handled (statusesOf tmpl method) { r with user_id := id } o)
      (hrendered : render app.lib { r with user_id := id } o = .ok response)
      (passed : startsWith path "/users".toList = true →
        ∃ id, (authenticate app r m s).result = .ok (.ok id)) :
      Replied app s m path r tmpl method fn response (some (.handler tmpl method))

section replied
variable {app : Application} {st : Store app} {e : Surroundings} {path tmpl : Str} {method : Verb}
  {fn : RouteFn} {types : List Str}

theorem chained_replied (hserves : Serves (st.world e).handlers tmpl method fn types)
    (h : (chained st.accounts e.moment path tmpl method fn r).rendered app.lib = .ok response) :
    Replied app st.accounts e.moment path r tmpl method fn response
      ((chained st.accounts e.moment path tmpl method fn r).trace.find? Event.isHandler) := by
  have hhandler : ∀ id, (fn { r with user_id := id }).2.bind
      (render app.lib (fn { r with user_id := id }).1) = .ok response →
      (startsWith path "/users".toList = true →
        ∃ id, (authenticate app r e.moment st.accounts).result = .ok (.ok id)) →
      Replied app st.accounts e.moment path r tmpl method fn response
        (some (.handler tmpl method)) := by
    intro id hrendered hpassed
    obtain ⟨hsame, hhandled⟩ := handler_handled hserves { r with user_id := id }
    rw [hsame] at hrendered
    cases ho : (fn { r with user_id := id }).2 with
    | error e =>
      rw [ho] at hrendered
      cases hrendered
    | ok o =>
      rw [ho] at hrendered
      exact .handled id o ho (hhandled o ho) hrendered hpassed
  unfold chained guarded at h ⊢
  split at h
  · rename_i hguarded
    rw [if_pos hguarded]
    cases hr : (authenticate app r e.moment st.accounts).result with
    | error e =>
      rw [hr] at h
      cases h
    | ok answer =>
      rw [hr] at h
      cases answer with
      | error outcome =>
        obtain ⟨text, rfl⟩ := authenticate_refuses _ _ hr outcome rfl
        exact .refused text h
      | ok id => exact hhandler (some id) h fun _ => ⟨id, hr⟩
  · rename_i hpublic
    rw [if_neg hpublic]
    exact hhandler r.user_id h fun hp => absurd hp hpublic

/-- Either way the answer is of one of the kinds. -/
theorem Replied.kind {s : Accounts app.db} {m : Moment} {event : Option Event}
    (h : Replied app s m path r tmpl method fn response event)
    (hkeep : r.keep_alive = request.keep_alive) :
    Kind request response ∧ Framed response ∧ response.status ≠ 413 := by
  cases h with
  | refused text hrendered =>
    obtain ⟨hs, hk, hf⟩ := rendered_unauthorized hrendered
    exact ⟨.keeping (.inl hs) hk, hf, by rw [hs]; decide⟩
  | handled id o ho hhandled hrendered passed =>
    obtain ⟨hs, _, hk, hf⟩ := rendered_handled hhandled hrendered
    have hmem := statusesOf_subset tmpl method hs
    refine ⟨.mirroring hmem (hk.trans hkeep), hf, ?_⟩
    simp only [List.mem_cons, List.not_mem_nil, or_false] at hmem
    omega

end replied
end answers

/-! ### The answer to a request -/

section step
variable {app : Application} {st : Store app} {e : Surroundings} {request : Request}
  {response : Response}

/-- How a request that is answered comes to its answer, and the handler that ran. -/
inductive Reply (st : Store app) (e : Surroundings) (request : Request) (response : Response) :
    Option Event → Prop
  | refused (r : Request) (status : ℕ) (message : Str) (headers : Dict Str)
      (why : Refused app (st.world e).handlers request status headers)
      (hrendered : (makeError app.lib r status message headers).bind (render app.lib r) =
        .ok response) : Reply st e request response none
  | failed (r : Request) (message : Str) (event : Option Event)
      (hrendered : (make500 app.lib r message).bind (render app.lib r) = .ok response) :
      Reply st e request response event
  | options (r : Request) {entry : RouteEntry} {params : Dict Str}
      (matched : (router (st.world e).handlers).matchRoute (normalizeTarget request) =
        some (entry, params))
      (method : request.method = .options)
      (hrendered : (makeOptionsAllow app.lib r entry.methods).bind (render app.lib r) =
        .ok response) : Reply st e request response none
  | handled {entry : RouteEntry} {params : Dict Str} {fn : RouteFn} {types : List Str}
      {event : Option Event}
      (matched : (router (st.world e).handlers).matchRoute (normalizeTarget request) =
        some (entry, params))
      (serves : Serves (st.world e).handlers entry.original request.method fn types)
      (replied : Replied app st.accounts e.moment (normalizeTarget request)
        (checked app.lib app.env { request with path_params := params }) entry.original
          request.method fn response event) :
      Reply st e request response event
  | head {entry : RouteEntry} {params : Dict Str} {fn : RouteFn} {types : List Str}
      {event : Option Event} (method : request.method = .head)
      (serves : Serves (st.world e).handlers entry.original .get fn types) {full : Response}
      (replied : Replied app st.accounts e.moment (normalizeTarget request)
        { request with path_params := params } entry.original .get fn full event)
      (emptied : response = { full with
        body := [], headers := full.headers.set "Content-Length".toList "0".toList }) :
      Reply st e request response event

theorem step_reply (h : (st.step e request).2 = .ok response) :
    ∃ event, (st.step e request).1 = st.after e request event ∧
      Reply st e request response event := by
  refine ⟨_, rfl, ?_⟩
  have hexit : Exit app st.accounts e.moment (st.world e).handlers request _ _ :=
    dispatch_exit rfl request
  change (dispatch app.lib app.env (router (st.world e).handlers) request).result = _ at h
  generalize (dispatch app.lib app.env (router (st.world e).handlers) request).trace.find?
    Event.isHandler = event at hexit ⊢
  rw [h] at hexit
  generalize hresult : (Except.ok response : Except Exn Response) = result at hexit
  cases hexit with
  | closed r status message headers why => exact .refused r status message headers why hresult.symm
  | options r matched method => exact .options r matched method hresult.symm
  | handled matched serves run hrun =>
    unfold answer at hresult
    cases hrendered : run.rendered app.lib with
    | ok rendered =>
      rw [hrendered] at hresult
      cases hresult
      rw [hrun] at hrendered ⊢
      exact .handled matched serves (chained_replied serves hrendered)
    | error x =>
      rw [hrendered] at hresult
      cases x with
      | other => cases hresult
      | db => exact .failed _ _ _ hresult.symm
      | validation => exact .failed _ _ _ hresult.symm
      | std => exact .failed _ _ _ hresult.symm
  | head matched method serves run hrun =>
    unfold headAnswer at hresult
    cases hrendered : run.rendered app.lib with
    | error x =>
      rw [hrendered] at hresult
      cases hresult
    | ok full =>
      rw [hrendered] at hresult
      cases hresult
      rw [hrun] at hrendered ⊢
      exact .head method serves (chained_replied serves hrendered) rfl

end step

theorem Reply.kind {app : Application} {st : Store app} {e : Surroundings} {request : Request}
    {response : Response} {event : Option Event} (h : Reply st e request response event) :
    Kind request response ∧ Framed response ∧
      (response.status = 413 → app.file_upload_limit_size < request.body.length) := by
  have hlarge : response.status ≠ 413 →
      (response.status = 413 → app.file_upload_limit_size < request.body.length) :=
    fun hne h413 => absurd h413 hne
  cases h with
  | refused r status message headers why hrendered =>
    have hclosing : status ∈ [400, 404, 405, 413, 415, 500] := List.mem_of_mem_dropLast why.among
    obtain ⟨hkind, hframed, hsame⟩ := makeError_closing hclosing hrendered
    exact ⟨hkind, hframed, fun h413 => why.size (hsame ▸ h413)⟩
  | failed r message event hrendered =>
    obtain ⟨hkind, hframed, hsame⟩ := makeError_closing (by decide) hrendered
    exact ⟨hkind, hframed, hlarge (by rw [hsame]; decide)⟩
  | options r matched method hrendered =>
    obtain ⟨hkind, hframed, hsame⟩ := makeOptions_keeping method hrendered
    exact ⟨hkind, hframed, hlarge (by rw [hsame]; decide)⟩
  | @handled entry params fn types event matched serves replied =>
    obtain ⟨form, hform⟩ := checked_form app.lib app.env { request with path_params := params }
    have hkeep : (checked app.lib app.env { request with path_params := params }).keep_alive =
        request.keep_alive := by rw [hform]
    obtain ⟨hkind, hframed, hne⟩ := replied.kind hkeep
    exact ⟨hkind, hframed, hlarge hne⟩
  | @head entry params fn types event method serves full replied emptied =>
    have hkeep : ({ request with path_params := params } : Request).keep_alive =
        request.keep_alive := rfl
    obtain ⟨hkind, _, hne⟩ := replied.kind hkeep
    have hempty : (full.headers.set "Content-Length".toList "0".toList).find
        "Content-Length".toList = some (to_string ([] : Str).length) :=
      Dict.find_set_self _ _ _
    subst emptied
    exact ⟨hkind.same rfl rfl, hempty, hlarge hne⟩

/-- Every answer of the application is of one of the kinds, and says how long it is. That a body
is too large is said only of one over the limit. -/
theorem answers_by_kind {app : Application} (st : Store app) (e : Surroundings) (request : Request)
    {response : Response} (h : (st.step e request).2 = .ok response) :
    Kind request response ∧ Framed response ∧
      (response.status = 413 → app.file_upload_limit_size < request.body.length) := by
  obtain ⟨event, _, hreply⟩ := step_reply h
  exact hreply.kind

/-- The answer to a deletion. -/
def goneAnswer : Response where
  status := 204
  version := 11
  keep_alive := true
  headers := [("Content-Length".toList, "0".toList), ("Server".toList, "beast-coawait".toList)]
  body := []

theorem deleteSecond_answer : (annStore.step smooth deleteSecond).2 = .ok goneAnswer := by
  decide +kernel

theorem answers_by_kind_gone : Kind deleteSecond goneAnswer ∧ Framed goneAnswer ∧
    (goneAnswer.status = 413 → gateApp.file_upload_limit_size < deleteSecond.body.length) :=
  answers_by_kind annStore smooth deleteSecond deleteSecond_answer

end AdequateApi.AnswerKinds
