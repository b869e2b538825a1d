import AdequateApi.MutationEffects

/-! Requests that are refused with an error of the client, other than a conflict: they leave no
trace in the store, and a run goes as if they had not been sent. -/
namespace AdequateApi.RefusedRequests
open StdString HttpMessages UsersRepository AdequateApi.UsersService AdequateApi.UsersController
  AccountSerializers AccountStore AccountServices AccountAnswers AccountCreation
  LoggedAction Action RouterModel ApplicationRoutes UsersIndex UserUpdateAnswers AccountStatements
  AccountCalls ApplicationDispatch AccountAccess ServerStep AnswerKinds MutationEffects

/-- The errors of the client without 409: a conflict is noticed by the table only, after a step
of its sequence or a change of the files. -/
def refusals : List ℕ := [400, 401, 404, 405, 413, 415, 422]

/-! ### A handler that answers 422 -/

section handlers
variable {app : Application} {request : Request} {m : Moment} {o : Outcome}

theorem answered_422 {α : Type} {status : ℕ} {x : Except Exn α} {go : α → Except Exn Outcome}
    (h : answered request status x go = .ok o) (hgo : ∀ a, go a = .ok o → o.status ≠ 422)
    (h422 : o.status = 422) : ∃ e, x = .error e := by
  cases x with
  | ok a => exact absurd h422 (hgo a h)
  | error e => exact ⟨e, rfl⟩

/-- A body that the serializer takes is answered 201 or not by the handler. -/
theorem registered_status {s : Accounts app.db} {data : RegisterSerializer}
    (h : controllerResult request 422 registerFailure (fun _ => .null)
      (addAccount app s data.username data.email data.password m).2 = .ok o) : o.status = 201 := by
  by_cases haccepted : Accepted app s data.username data.email data.password m
  · obtain ⟨t, id, hash, _, hadd, _⟩ := addAccount_accepted haccepted
    rw [hadd] at h
    cases h
    rfl
  · obtain ⟨t, e, hadd, _, hsame, hnot⟩ := addAccount_refused haccepted
    rw [hadd, controllerResult_failed hsame hnot] at h
    cases h

theorem registration_422 {s : Accounts app.db}
    (h : (AuthenticationController.registration app request m s).result = .ok o)
    (h422 : o.status = 422) :
    (AuthenticationController.registration app request m s).state = s := by
  rw [registration_written]
  unfold registrationWrite
  cases hj : request.json app.lib with
  | error e => rfl
  | ok j =>
    rw [registration_result hj] at h
    obtain ⟨e, he⟩ := answered_422 h
      (fun data hdata => by rw [registered_status hdata]; decide) h422
    simp only [Except.toOption, he, Option.bind_eq_bind, Option.bind_some, Option.bind_none]
    rfl

theorem created_status {s : Accounts app.db} {data : UserCreateSerializer}
    (h : controllerResult request 409 createFailure (createdBodyOf data)
      (addAccount app s data.username data.email data.password m).2 = .ok o) : o.status ≠ 422 := by
  unfold controllerResult at h
  split at h
  · cases h
    simp [AccountServices.created, Outcome.status]
  · split at h
    · cases h
      simp [errorResult, Outcome.status]
    · cases h

theorem store_422 {s : Accounts app.db}
    (h : (AccountServices.UsersController.store app request m s).result = .ok o)
    (h422 : o.status = 422) :
    (AccountServices.UsersController.store app request m s).state = s := by
  rw [store_written]
  unfold storeWrite
  cases hj : request.json app.lib with
  | error e => rfl
  | ok j =>
    rw [store_result hj] at h
    obtain ⟨e, he⟩ := answered_422 h (fun data hdata => created_status hdata) h422
    simp only [Except.toOption, he, Option.bind_eq_bind, Option.bind_some, Option.bind_none]
    rfl

/-- The service is not asked, whatever it would meet. -/
theorem update_422 {srv : Services} {s : State} {a : UpdateAnswers}
    (h : (AdequateApi.UsersController.update srv s request a).2 = .ok o) (h422 : o.status = 422) :
    (AdequateApi.UsersController.update srv s request a).1 = s ∧
      updateWrite srv s.disk request a = none := by
  unfold updateWrite sentEntity
  unfold AdequateApi.UsersController.update at h ⊢
  cases hid : pathId request with
  | error e => exact ⟨rfl, rfl⟩
  | ok id =>
    cases hbody : readBody srv request with
    | error e => exact ⟨rfl, rfl⟩
    | ok read =>
      obtain ⟨body, picture⟩ := read
      rw [hid, hbody] at h
      simp only [Except.toOption, Option.bind_eq_bind, Option.bind_some] at h ⊢
      cases hdata : from_json srv.lib body with
      | error e => exact ⟨by cases e <;> rfl, rfl⟩
      | ok data =>
        rw [hdata] at h
        dsimp only at h
        -- what the service refuses is a conflict
        split at h
        · cases h
          exact absurd h422 (by simp [errorResult, Outcome.status])
        · cases h
        · cases h
          exact absurd h422 (by simp [noContent, Outcome.status])

/-- A deletion is never invalid. -/
theorem remove_not_422 {srv : Services} {s : State} {b : RemoveAnswers}
    (h : (AdequateApi.UsersController.remove srv s request b).2 = .ok o) : o.status ≠ 422 := by
  unfold AdequateApi.UsersController.remove at h
  split at h
  · cases h
  · split at h
    · cases h
      simp [errorResult, Outcome.status]
    · cases h
    · cases h
      simp [noContent, Outcome.status]

end handlers

section step
variable {app : Application} {st : Store app} {e : Surroundings} {request : Request}
  {response : Response}

/-! ### A request -/

/-- The store after a handler that answers 422. -/
theorem handled_422 {tmpl : Str} {v : Verb} {fn : RouteFn} {types : List Str} {r : Request}
    {id : Option ℤ} {o : Outcome} (hserves : Serves (st.world e).handlers tmpl v fn types)
    (ho : (fn { r with user_id := id }).2 = .ok o) (h422 : o.status = 422) :
    st.handled e r tmpl v = st := by
  cases hserves with
  | health => rfl
  | registration =>
    rw [Store.handled, if_pos rfl]
    exact congrArg (fun accounts => { st with accounts }) (registration_422 ho h422)
  | login => rw [Store.handled, if_neg (by decide), if_neg (by decide)]
  | index => rfl
  | store =>
    rw [Store.handled, if_neg (by decide), if_pos rfl]
    exact congrArg (fun accounts => { st with accounts }) (store_422 ho h422)
  | update =>
    rw [Store.handled, if_pos rfl]
    -- the handler does not read the id that the middleware adds
    have hupdate : (AdequateApi.UsersController.update app.toServices (st.world e).state r
        (st.answering e r)).2 = .ok o := ho
    obtain ⟨hstate, hwrite⟩ := update_422 hupdate h422
    unfold Store.updated
    rw [hstate, show updateWrite app.toServices st.disk r (st.answering e r) = none from hwrite]
    rfl
  | remove => exact absurd h422 (remove_not_422 ho)
  | swagger => rfl

theorem step_refused (h : (st.step e request).2 = .ok response)
    (hrefused : response.status ∈ refusals) : (st.step e request).1 = st := by
  obtain ⟨event, hafter, hreply⟩ := step_reply h
  rw [hafter]
  cases hreply with
  | refused r status message headers why hrendered => rfl
  | failed r message event hrendered =>
    have hclosing : Kind r response ∧ Framed response ∧ response.status = 500 :=
      makeError_closing (by decide) hrendered
    rw [hclosing.2.2] at hrefused
    exact absurd hrefused (by decide)
  | options r matched method hrendered => rfl
  | head method serves replied emptied =>
    cases replied <;> rfl
  | @handled entry params fn types event matched serves replied =>
    have hhanded : st.handed e request =
        checked app.lib app.env { request with path_params := params } := by
      unfold Store.handed
      rw [matched]
    rw [← hhanded] at replied
    cases replied with
    | refused text hrendered => rfl
    | handled id o ho hhandled hrendered passed =>
      obtain ⟨hmem, hsame, _⟩ := rendered_handled hhandled hrendered
      have hsome := statusesOf_subset _ _ hmem
      have h422 : response.status = 422 := by
        unfold refusals at hrefused
        simp only [List.mem_cons, List.not_mem_nil, or_false] at hrefused hsome
        omega
      exact handled_422 serves ho (hsame.symm.trans h422)

/-! ### Runs -/

def isRefused : Except Exn Response → Bool
  | .ok response => refusals.contains response.status
  | .error _ => false

theorem step_isRefused (h : isRefused (st.step e request).2 = true) :
    (st.step e request).1 = st := by
  cases hr : (st.step e request).2 with
  | error x =>
    rw [hr] at h
    cases h
  | ok response =>
    rw [hr] at h
    exact step_refused hr (List.contains_iff_mem.mp h)

/-- The requests of a run that are not refused. -/
def effective (st : Store app) : List (Surroundings × Request) → List (Surroundings × Request)
  | [] => []
  | (e, request) :: rest =>
      let (t, answer) := st.step e request
      if isRefused answer then effective t rest else (e, request) :: effective t rest

/-- Refused requests might as well not have been sent: in a run of requests one after another the
others get the same answers without them, and lead to the same rows, files and next id. -/
theorem refused_requests_leave_no_trace (st : Store app)
    (requests : List (Surroundings × Request)) :
    st.run (effective st requests) =
      ((st.run requests).1, (st.run requests).2.filter fun answer => !isRefused answer) := by
  induction requests generalizing st with
  | nil => rfl
  | cons x rest ih =>
    obtain ⟨e, request⟩ := x
    have hrun : st.run ((e, request) :: rest) =
        (((st.step e request).1.run rest).1,
          (st.step e request).2 :: ((st.step e request).1.run rest).2) := rfl
    rw [hrun]
    unfold effective
    dsimp only
    by_cases hrefused : isRefused (st.step e request).2 = true
    · have hsame := step_isRefused hrefused
      rw [if_pos hrefused, List.filter_cons_of_neg (by simpa using hrefused), ← ih, hsame]
    · rw [if_neg hrefused, List.filter_cons_of_pos (by simpa using hrefused)]
      change (((st.step e request).1.run (effective (st.step e request).1 rest)).1,
        (st.step e request).2 ::
          ((st.step e request).1.run (effective (st.step e request).1 rest)).2) = _
      rw [ih]

end step
end AdequateApi.RefusedRequests
