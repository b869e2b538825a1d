import AdequateApi.RouterHooks

/-! HEAD without a handler of its own beside GET on the same entry. The shortcut for HEAD leaves
out the checks of the normal path, and nothing catches what is thrown on it. Where the checks
pass, HEAD is answered like GET as long as nothing is thrown. -/
namespace AdequateApi.RouterModel
open StdString HttpMessages

/-- The same status and the same headers, Content-Length aside. -/
def SameHead (a b : Response) : Prop :=
  a.status = b.status ∧
    ∀ name, name ≠ "Content-Length".toList → a.headers.find name = b.headers.find name

/-- Both requests are answered, with the same head, and HEAD without a body. -/
def Agrees (head get : Dispatched) : Prop :=
  ∃ h g, head.result = .ok h ∧ get.result = .ok g ∧ SameHead h g ∧ h.body = []

/-- What the shortcut does to the answer before the hooks get it. -/
def emptied (response : Response) : Response :=
  { response with
    body := [], headers := response.headers.set "Content-Length".toList "0".toList }

variable {lib : Library} {env : EnvConfig} {middlewares : List Middleware}

/-! ### How each path comes to a response -/

/-- The chain answers, and the hooks pass the answer on. -/
def Completes (lib : Library) (middlewares : List Middleware) (run : Run)
    (change : Response → Response) (last : Response) : Prop :=
  ∃ first, run.rendered lib = .ok first ∧ Passed run.request middlewares (change first) last

/-- The response that the hooks make of an answer of the router's own. -/
def Renders (lib : Library) (middlewares : List Middleware) (request : Request)
    (outcome : Except Exn Outcome) (last : Response) : Prop :=
  ∃ first, outcome.bind (render lib request) = .ok first ∧ Passed request middlewares first last

theorem runAfter_ok {request : Request} {response last : Response} :
    (runAfter request middlewares response).result = .ok last ↔
      Passed request middlewares response last := by
  refine ⟨fun h => ?_, Passed.runAfter⟩
  obtain ⟨last', hr, hp, _⟩ | ⟨e, hr, _⟩ := runAfter_spec request middlewares response
  · obtain rfl : last' = last := Except.ok.inj (hr.symm.trans h)
    exact hp
  · rw [hr] at h
    cases h

theorem finish_ok {request : Request} {outcome : Except Exn Outcome} {last : Response} :
    (finish lib request middlewares outcome).result = .ok last ↔
      Renders lib middlewares request outcome last := by
  unfold finish Renders
  cases outcome.bind (render lib request) with
  | error e => simp
  | ok first => simp [runAfter_ok]

theorem autoHead_ok {run : Run} {last : Response} :
    (autoHead lib run middlewares).result = .ok last ↔
      Completes lib middlewares run emptied last := by
  unfold autoHead Completes Run.rendered
  cases run.result.bind (render lib run.request) with
  | error e => simp
  | ok first => simp [runAfter_ok, emptied]

/-- The requests differ in the method, and in the form that the checks of the normal path have
parsed. -/
def Twins (head get : Request) : Prop :=
  head = { get with method := head.method, multipart := head.multipart }

/-- The programs do the same with twins, and go on alike whatever comes back from `next`. -/
inductive Handling.Alike : Handling → Handling → Prop
  | done {head get : Request} {result : Except Exn Outcome} (twins : Twins head get) :
      Alike (.done head result) (.done get result)
  | next {head get : Request} {resume resume' : Request → Except Exn Outcome → Handling}
      (twins : Twins head get)
      (alike : ∀ h g result, Twins h g → Alike (resume h result) (resume' g result)) :
      Alike (.next head resume) (.next get resume')

/-- Two ends of a chain that cannot be told apart by their answers. -/
def Run.Alike (head get : Run) : Prop :=
  Twins head.request get.request ∧ head.result = get.result

theorem Handling.Alike.run {next next' : Request → Run} {id : ℕ} {head get : Handling}
    (hnext : ∀ h g, Twins h g → (next h).Alike (next' g)) (h : head.Alike get) :
    (head.run id next).Alike (get.run id next') := by
  induction h with
  | done twins => exact ⟨twins, rfl⟩
  | next twins _ ih =>
    obtain ⟨hrequest, hresult⟩ := hnext _ _ twins
    unfold Handling.run
    dsimp only
    rw [hresult]
    exact ih _ _ _ hrequest

theorem Run.Alike.rendered {head get : Run} (h : head.Alike get) :
    head.rendered lib = get.rendered lib := by
  obtain ⟨twins, hresult⟩ := h
  have hversion : head.request.version = get.request.version := by rw [twins]
  have hrender : render lib head.request = render lib get.request := by
    funext outcome
    cases outcome with
    | response r => rfl
    | json j => simp only [render, JsonRenderer.render, hversion]
  unfold Run.rendered
  rw [hresult, hrender]

section pair
variable (lib env)

/-- What the chain does with the HEAD request. -/
def headRun (entry : RouteEntry) (fn : RouteFn) (middlewares : List Middleware)
    (request : Request) : Run :=
  runChain (runLeaf entry.original .get fn) middlewares { request with method := .head }

end pair

variable {entry : RouteEntry} {fn : RouteFn}

section dispatches
variable {router : Router} {request : Request} {params : Dict Str}

theorem dispatch_head (lib : Library) (env : EnvConfig)
    (hmatch : router.matchRoute (normalizeTarget request) = some (entry, params))
    (hhead : entry.methods .head = none) (hget : entry.methods .get = some fn) :
    dispatch lib env router { request with method := .head } =
      autoHead lib (headRun entry fn (router.collectMiddlewaresFor (normalizeTarget request))
        { request with path_params := params })
        (router.collectMiddlewaresFor (normalizeTarget request)) := by
  have hdecision : router.decision .head (normalizeTarget request) = .autoHead entry params fn := by
    unfold Router.decision
    rw [hmatch]
    dsimp only
    rw [hhead, hget]
  rw [dispatch_decision]
  exact congrArg (fun d : Decision => d.run lib env
    (router.collectMiddlewaresFor (normalizeTarget request)) { request with method := .head })
    hdecision

theorem dispatch_get (lib : Library) (env : EnvConfig)
    (hmatch : router.matchRoute (normalizeTarget request) = some (entry, params))
    (hget : entry.methods .get = some fn) :
    dispatch lib env router { request with method := .get } =
      handle lib env entry fn (router.collectMiddlewaresFor (normalizeTarget request))
        { request with method := .get, path_params := params } := by
  have hdecision : router.decision .get (normalizeTarget request) = .handled entry params fn :=
    decision_handled_iff.mpr ⟨hmatch, hget⟩
  rw [dispatch_decision]
  exact congrArg (fun d : Decision => d.run lib env
    (router.collectMiddlewaresFor (normalizeTarget request)) { request with method := .get })
    hdecision

theorem Passed.status {request : Request} {first last : Response}
    (h : Passed request middlewares first last)
    (hkeep : ∀ m ∈ middlewares, ∀ q r r', m.after q r = .ok r' → r'.status = r.status) :
    last.status = first.status := by
  induction h with
  | nil => rfl
  | cons now _ ih =>
    rw [ih fun m hm => hkeep m (List.mem_cons_of_mem _ hm)]
    exact hkeep _ List.mem_cons_self _ _ _ now

/-- A refused GET beside a HEAD that comes to another status, with hooks that keep a status. -/
theorem not_agrees_of_refused {outcome : Except Exn Outcome}
    (hmatch : router.matchRoute (normalizeTarget request) = some (entry, params))
    (hhead : entry.methods .head = none) (hget : entry.methods .get = some fn)
    (hrefused : refusal lib env entry { request with method := .get, path_params := params } =
      some outcome)
    (hkeep : ∀ m ∈ router.collectMiddlewaresFor (normalizeTarget request),
      ∀ q r r', m.after q r = .ok r' → r'.status = r.status)
    (hother : ∀ first refused, (headRun entry fn
      (router.collectMiddlewaresFor (normalizeTarget request))
        { request with path_params := params }).rendered lib = .ok first →
      outcome.bind (render lib { request with method := .get, path_params := params }) =
        .ok refused → first.status ≠ refused.status) :
    ¬ Agrees (dispatch lib env router { request with method := .head })
      (dispatch lib env router { request with method := .get }) := by
  rintro ⟨h, g, hh, hg, ⟨hstatus, _⟩, _⟩
  rw [dispatch_head lib env hmatch hhead hget] at hh
  rw [dispatch_get lib env hmatch hget, handle_refused lib env hrefused] at hg
  obtain ⟨first, hfirst, hpassed⟩ := autoHead_ok.mp hh
  obtain ⟨refused, hrender, hpassed'⟩ := finish_ok.mp hg
  refine hother first refused hfirst hrender ?_
  calc first.status = h.status := (hpassed.status hkeep).symm
    _ = g.status := hstatus
    _ = refused.status := hpassed'.status hkeep

end dispatches

end AdequateApi.RouterModel
