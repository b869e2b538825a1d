import AdequateApi.RouterLabels
import AdequateApi.RouterMiddleware

/-! How often `dispatch` calls the `after` of the middlewares, exit by exit. -/
namespace AdequateApi.RouterModel
open StdString HttpMessages

/-! ### The calls in a trace -/

def Event.afterId : Event → Option ℕ
  | .after id => some id
  | _ => none

/-- The middlewares whose `after` is called, in the order of the calls. -/
def afters (trace : List Event) : List ℕ := trace.filterMap Event.afterId

@[simp] theorem afters_append (s t : List Event) : afters (s ++ t) = afters s ++ afters t :=
  List.filterMap_append

theorem afters_handling (id : ℕ) {next : Request → Run} (hn : ∀ r, afters (next r).trace = [])
    (program : Handling) : afters (program.run id next).trace = [] := by
  induction program with
  | done => rfl
  | next request resume ih =>
    have hinner := hn request
    have hrest := ih (next request).request (next request).result
    simp only [Handling.run, afters, List.filterMap_cons, Event.afterId] at hinner hrest ⊢
    rw [List.filterMap_append, hinner, hrest]
    rfl

/-- The chain calls no hook. -/
theorem afters_runChain (template : Str) (method : Verb) (fn : RouteFn)
    (middlewares : List Middleware) (request : Request) :
    afters (runChain (runLeaf template method fn) middlewares request).trace = [] := by
  induction middlewares generalizing request with
  | nil => rfl
  | cons m ms ih => exact afters_handling m.id ih (m.handle request)

/-! ### The hooks one after the other -/

/-- The hooks pass the response on, each to the next, down to the last one's answer. -/
inductive Passed (request : Request) : List Middleware → Response → Response → Prop
  | nil {response : Response} : Passed request [] response response
  | cons {m : Middleware} {ms : List Middleware} {response next last : Response}
      (now : m.after request response = .ok next) (rest : Passed request ms next last) :
      Passed request (m :: ms) response last

/-- A hook throws on the response that reaches it. -/
def Throws (request : Request) (middlewares : List Middleware) (response : Response)
    (e : Exn) : Prop :=
  ∃ before m rest reached, middlewares = before ++ m :: rest ∧
    Passed request before response reached ∧ m.after request reached = .error e

/-- What one pass of `runAfter` does. -/
theorem runAfter_spec (request : Request) (middlewares : List Middleware) (response : Response) :
    let r := runAfter request middlewares response
    (∃ last, r.result = .ok last ∧ Passed request middlewares response last ∧
      afters r.trace = middlewares.map Middleware.id) ∨
    ∃ e, r.result = .error e ∧ Throws request middlewares response e ∧
      afters r.trace <+: middlewares.map Middleware.id ∧ afters r.trace ≠ [] := by
  induction middlewares generalizing response with
  | nil => exact .inl ⟨response, rfl, .nil, rfl⟩
  | cons m ms ih =>
    unfold runAfter
    cases hm : m.after request response with
    | error e =>
      refine .inr ⟨e, rfl, ⟨[], m, ms, response, rfl, .nil, hm⟩, ?_, ?_⟩
      · simp [afters, Event.afterId]
      · simp [afters, Event.afterId]
    | ok next =>
      obtain ⟨last, hr, hp, ha⟩ | ⟨e, hr, ⟨before, m', rest, reached, hsplit, hp, he⟩, ha, _⟩ :=
        ih next
      · refine .inl ⟨last, hr, .cons hm hp, ?_⟩
        simp only [afters, List.filterMap_cons, Event.afterId, List.map_cons] at ha ⊢
        rw [ha]
      · refine .inr ⟨e, hr, ⟨m :: before, m', rest, reached, by rw [hsplit]; rfl, .cons hm hp, he⟩,
          ?_, by simp [afters, Event.afterId]⟩
        simp only [afters, List.filterMap_cons, Event.afterId, List.map_cons] at ha ⊢
        exact List.cons_prefix_cons.mpr ⟨rfl, ha⟩

/-- A pass ends as its hooks say. -/
theorem Passed.runAfter {request : Request} {middlewares : List Middleware}
    {response last : Response} (h : Passed request middlewares response last) :
    (runAfter request middlewares response).result = .ok last := by
  induction h with
  | nil => rfl
  | cons now _ ih =>
    unfold RouterModel.runAfter
    rw [now]
    exact ih

theorem Throws.runAfter {request : Request} {middlewares : List Middleware} {response : Response}
    {e : Exn} (h : Throws request middlewares response e) :
    (runAfter request middlewares response).result = .error e := by
  obtain ⟨before, m, rest, reached, rfl, hp, he⟩ := h
  induction hp with
  | nil =>
    rw [List.nil_append, RouterModel.runAfter]
    rw [he]
  | cons now _ ih =>
    rw [List.cons_append]
    unfold RouterModel.runAfter
    rw [now]
    exact ih he

/-! ### One pass at most -/

/-- No hook is called twice; if there is a response, all were called in order, the first on some
rendered response and each on what the one before returned. -/
def HooksOnce (middlewares : List Middleware) (d : Dispatched) : Prop :=
  (∀ m ∈ middlewares, (afters d.trace).count m.id ≤ 1) ∧
  ∀ response, d.result = .ok response → afters d.trace = middlewares.map Middleware.id ∧
    ∃ request first, Passed request middlewares first response

variable {lib : Library} {env : EnvConfig} {middlewares : List Middleware}

theorem hooksOnce_of_prefix (hids : (middlewares.map Middleware.id).Nodup) {d : Dispatched}
    (hcalls : afters d.trace <+: middlewares.map Middleware.id)
    (hok : ∀ response, d.result = .ok response →
      afters d.trace = middlewares.map Middleware.id ∧
        ∃ request first, Passed request middlewares first response) :
    HooksOnce middlewares d :=
  ⟨fun _ _ => List.nodup_iff_count_le_one.mp (hcalls.sublist.nodup hids) _, hok⟩

/-- Events before that are no calls of hooks do not matter. -/
theorem HooksOnce.after_silence {d : Dispatched} (h : HooksOnce middlewares d)
    {trace : List Event} (htrace : afters trace = []) :
    HooksOnce middlewares ⟨trace ++ d.trace, d.result⟩ := by
  unfold HooksOnce
  rw [afters_append, htrace]
  exact h

/-- Without a response there is less to show. -/
theorem HooksOnce.fails {d : Dispatched} (h : HooksOnce middlewares d) (e : Exn) :
    HooksOnce middlewares ⟨d.trace, .error e⟩ :=
  ⟨h.1, fun _ hr => by cases hr⟩

theorem hooksOnce_error {trace : List Event} (htrace : afters trace = []) (e : Exn) :
    HooksOnce middlewares ⟨trace, .error e⟩ := by
  refine ⟨fun m _ => ?_, fun _ h => by cases h⟩
  rw [htrace]
  exact Nat.zero_le _

/-- One pass of the hooks. -/
theorem hooksOnce_runAfter (hids : (middlewares.map Middleware.id).Nodup) (request : Request)
    (response : Response) : HooksOnce middlewares (runAfter request middlewares response) := by
  obtain ⟨last, hr, hp, ha⟩ | ⟨e, hr, _, ha, _⟩ := runAfter_spec request middlewares response
  · apply hooksOnce_of_prefix hids
    · rw [ha]
    · intro response' h
      obtain rfl : last = response' := Except.ok.inj (hr.symm.trans h)
      exact ⟨ha, request, response, hp⟩
  · apply hooksOnce_of_prefix hids ha
    intro response' h
    rw [hr] at h
    cases h

theorem hooksOnce_finish (lib : Library) (hids : (middlewares.map Middleware.id).Nodup)
    (request : Request) (outcome : Except Exn Outcome) :
    HooksOnce middlewares (finish lib request middlewares outcome) := by
  unfold finish
  split
  · exact hooksOnce_error rfl _
  · exact hooksOnce_runAfter hids _ _

theorem hooksOnce_autoHead (hids : (middlewares.map Middleware.id).Nodup) {run : Run}
    (hrun : afters run.trace = []) : HooksOnce middlewares (autoHead lib run middlewares) := by
  unfold autoHead
  split
  · exact hooksOnce_error hrun _
  · exact (hooksOnce_runAfter hids _ _).after_silence hrun

/-! ### The second pass -/

/-- The text of the 500 answer. -/
def failureText : Exn → Str
  | .db _ what => if c_str what ≠ [] then c_str what else "Database error".toList
  | e => if c_str e.what ≠ [] then c_str e.what else "Unexpected error".toList

/-- The answer of the chain, rendered. -/
def Run.rendered (lib : Library) (run : Run) : Except Exn Response :=
  run.result.bind (render lib run.request)

/-- A hook throws on the answer of the chain, and the 500 answer can be rendered. -/
def HookBreaks (lib : Library) (middlewares : List Middleware) (run : Run) : Prop :=
  ∃ response e failure, run.rendered lib = .ok response ∧
    Throws run.request middlewares response e ∧ e ≠ .other ∧
    (make500 lib run.request (failureText e)).bind (render lib run.request) = .ok failure

theorem finish_rendered (lib : Library) (middlewares : List Middleware) (run : Run) :
    finish lib run.request middlewares run.result =
    match run.rendered lib with
    | .error e => ⟨[], .error e⟩
    | .ok response => runAfter run.request middlewares response := rfl

/-- The handler's answer goes through, or nothing catches what was thrown. -/
theorem runHandler_first {run : Run}
    (h : ∀ e, (finish lib run.request middlewares run.result).result = .error e → e = .other) :
    runHandler lib run middlewares =
      ⟨run.trace ++ (finish lib run.request middlewares run.result).trace,
        (finish lib run.request middlewares run.result).result⟩ := by
  unfold runHandler
  dsimp only
  split
  · rename_i hr
    rw [hr]
  · rename_i hr
    rw [hr]
  · rename_i hr
    cases h _ hr
  · rename_i hr
    cases h _ hr
  · rename_i hr
    cases h _ hr

/-- Otherwise the 500 answer follows, after the trace of the first try. -/
theorem runHandler_failed {run : Run} {e : Exn}
    (h : (finish lib run.request middlewares run.result).result = .error e) (hne : e ≠ .other) :
    runHandler lib run middlewares =
      ⟨run.trace ++ (finish lib run.request middlewares run.result).trace ++
        (finish lib run.request middlewares
          (make500 lib run.request (failureText e))).trace,
        (finish lib run.request middlewares (make500 lib run.request (failureText e))).result⟩ := by
  unfold runHandler
  dsimp only
  rw [h]
  cases e with
  | other => exact absurd rfl hne
  | db => rfl
  | validation => rfl
  | std => rfl

theorem runHandler_cases (lib : Library) (middlewares : List Middleware) (run : Run) :
    ((∀ e, (finish lib run.request middlewares run.result).result = .error e → e = .other) ∧
      runHandler lib run middlewares =
        ⟨run.trace ++ (finish lib run.request middlewares run.result).trace,
          (finish lib run.request middlewares run.result).result⟩) ∨
    ∃ e, (finish lib run.request middlewares run.result).result = .error e ∧ e ≠ .other ∧
      runHandler lib run middlewares =
        ⟨run.trace ++ (finish lib run.request middlewares run.result).trace ++
          (finish lib run.request middlewares
            (make500 lib run.request (failureText e))).trace,
          (finish lib run.request middlewares
            (make500 lib run.request (failureText e))).result⟩ := by
  by_cases hcaught : ∀ e,
      (finish lib run.request middlewares run.result).result = .error e → e = .other
  · exact .inl ⟨hcaught, runHandler_first hcaught⟩
  · obtain ⟨e, hcaught⟩ := not_forall.mp hcaught
    obtain ⟨herr, hne⟩ := Classical.not_imp.mp hcaught
    exact .inr ⟨e, herr, hne, runHandler_failed herr hne⟩

/-- The first hook is called in every pass. -/
theorem head_of_prefix {ids l : List ℕ} (h : l <+: ids) (hne : l ≠ []) :
    ∃ id rest, ids = id :: rest ∧ 1 ≤ l.count id := by
  obtain ⟨t, rfl⟩ := h
  cases l with
  | nil => exact absurd rfl hne
  | cons id l => exact ⟨id, l ++ t, rfl, by simp⟩

/-- Two passes call the first hook twice. -/
theorem not_hooksOnce_of_two {first second : List ℕ} {d : Dispatched}
    (htrace : afters d.trace = first ++ second)
    (hfirst : first <+: middlewares.map Middleware.id) (hne : first ≠ [])
    (hsecond : second <+: middlewares.map Middleware.id) (hne' : second ≠ []) :
    ¬ HooksOnce middlewares d := by
  intro h
  obtain ⟨id, rest, hids, hcount⟩ := head_of_prefix hfirst hne
  obtain ⟨id', rest', hids', hcount'⟩ := head_of_prefix hsecond hne'
  obtain rfl : id = id' := (List.cons.inj (hids.symm.trans hids')).1
  obtain ⟨m, hm, rfl⟩ := List.mem_map.mp (hids ▸ List.mem_cons_self : id ∈ middlewares.map _)
  have honce := h.1 m hm
  rw [htrace, List.count_append] at honce
  omega

/-- One pass calls somebody, unless there is nobody. -/
theorem afters_runAfter (middlewares : List Middleware) (request : Request) (response : Response) :
    afters (runAfter request middlewares response).trace <+: middlewares.map Middleware.id ∧
      (middlewares ≠ [] → afters (runAfter request middlewares response).trace ≠ []) := by
  obtain ⟨_, _, _, ha⟩ | ⟨_, _, _, ha, hne⟩ := runAfter_spec request middlewares response
  · rw [ha]
    exact ⟨List.prefix_rfl, fun h => by simpa using h⟩
  · exact ⟨ha, fun _ => hne⟩

theorem not_hookBreaks {run : Run}
    (h : ∀ e, (finish lib run.request middlewares run.result).result = .error e → e = .other) :
    ¬ HookBreaks lib middlewares run := by
  rintro ⟨response, e, _, hresponse, hthrows, hne, _⟩
  apply hne
  apply h
  rw [finish_rendered, hresponse]
  exact hthrows.runAfter

/-- The hooks run twice exactly when one of them fails on the handler's answer. -/
theorem hooksOnce_runHandler_iff (hids : (middlewares.map Middleware.id).Nodup) {run : Run}
    (hrun : afters run.trace = []) :
    HooksOnce middlewares (runHandler lib run middlewares) ↔ ¬ HookBreaks lib middlewares run := by
  have honce := (hooksOnce_finish lib hids run.request run.result).after_silence hrun
  obtain ⟨hcaught, hhandler⟩ | ⟨e, herr, hne, hhandler⟩ := runHandler_cases lib middlewares run
  · rw [hhandler]
    exact ⟨fun _ => not_hookBreaks hcaught, fun _ => honce⟩
  have hfirst := finish_rendered lib middlewares run
  rw [hhandler]
  cases hr : run.rendered lib with
  | error e' =>
    have hnone : ¬ HookBreaks lib middlewares run := by
      rintro ⟨_, _, _, h, _⟩
      rw [hr] at h
      cases h
    rw [hr] at hfirst
    refine ⟨fun _ => hnone, fun _ => ?_⟩
    rw [hfirst, List.append_nil]
    exact (hooksOnce_finish lib hids _ _).after_silence hrun
  | ok response =>
    rw [hr] at hfirst
    dsimp only at hfirst
    rw [hfirst] at herr honce ⊢
    obtain ⟨last, hok, _⟩ | ⟨e', herr', hthrows, ha, hnonempty⟩ :=
      runAfter_spec run.request middlewares response
    · rw [herr] at hok
      cases hok
    obtain rfl : e = e' := Except.error.inj (herr.symm.trans herr')
    unfold finish
    cases hf : (make500 lib run.request (failureText e)).bind (render lib run.request) with
    | error e' =>
      -- the 500 answer cannot be rendered, and there is no second pass
      have hnone : ¬ HookBreaks lib middlewares run := by
        rintro ⟨response', e'', failure, hresponse, hthrows', _, hfailure⟩
        obtain rfl : response = response' := Except.ok.inj (hr.symm.trans hresponse)
        obtain rfl : e = e'' := Except.error.inj (herr.symm.trans hthrows'.runAfter)
        rw [hf] at hfailure
        cases hfailure
      refine ⟨fun _ => hnone, fun _ => ?_⟩
      dsimp only
      rw [List.append_nil]
      exact honce.fails e'
    | ok failure =>
      have hbreaks : HookBreaks lib middlewares run := ⟨response, e, failure, hr, hthrows, hne, hf⟩
      have hsome : middlewares ≠ [] := by
        rintro rfl
        exact hnonempty (List.prefix_nil.mp ha)
      obtain ⟨hsecond, hsecond'⟩ := afters_runAfter middlewares run.request failure
      refine ⟨fun h => absurd h ?_, fun h => absurd hbreaks h⟩
      apply not_hooksOnce_of_two _ ha hnonempty hsecond (hsecond' hsome)
      simp [hrun]

/-! ### Every exit -/

/-- The request gets past the checks of the normal path, and this is what its chain does. -/
def Handles (lib : Library) (env : EnvConfig) (router : Router) (request : Request) (run : Run) :
    Prop :=
  ∃ entry params fn, router.decision request.method (normalizeTarget request) =
      .handled entry params fn ∧
    refusal lib env entry { request with path_params := params } = none ∧
    run = runChain (runLeaf entry.original request.method fn)
      (router.collectMiddlewaresFor (normalizeTarget request))
      (checked lib env { request with path_params := params })

/-- In every dispatch the hooks run once, unless one of them fails on the answer of a handler
that the normal path has called. -/
theorem hooks_once_iff (lib : Library) (env : EnvConfig) (ops : List Registration)
    (request : Request) :
    HooksOnce ((Router.build (numbered ops)).collectMiddlewaresFor (normalizeTarget request))
        (dispatch lib env (Router.build (numbered ops)) request) ↔
      ∀ run, Handles lib env (Router.build (numbered ops)) request run →
        ¬ HookBreaks lib
          ((Router.build (numbered ops)).collectMiddlewaresFor (normalizeTarget request)) run := by
  have hids := collected_nodup ops (normalizeTarget request)
  rw [dispatch_decision]
  generalize Router.build (numbered ops) = router at hids ⊢
  cases hd : router.decision request.method (normalizeTarget request) with
  | handled entry params fn =>
    have hrun : (Decision.handled entry params fn).run lib env
        (router.collectMiddlewaresFor (normalizeTarget request)) request =
      handle lib env entry fn (router.collectMiddlewaresFor (normalizeTarget request))
        { request with path_params := params } := rfl
    rw [hrun]
    cases hrefused : refusal lib env entry { request with path_params := params } with
    | some outcome =>
      rw [handle_refused lib env hrefused]
      refine ⟨fun _ run ⟨entry', params', fn', hd', hchecks, _⟩ => ?_,
        fun _ => hooksOnce_finish lib hids _ _⟩
      rw [hd] at hd'
      cases hd'
      rw [hrefused] at hchecks
      cases hchecks
    | none =>
      rw [handle_checked lib env hrefused,
        hooksOnce_runHandler_iff hids (afters_runChain _ _ _ _ _)]
      constructor
      · rintro hnot run ⟨entry', params', fn', hd', _, rfl⟩
        rw [hd] at hd'
        cases hd'
        exact hnot
      · intro hall
        exact hall _ ⟨entry, params, fn, hd, hrefused, rfl⟩
  | autoHead entry params fn =>
    refine ⟨fun _ run ⟨_, _, _, hd', _⟩ => ?_,
      fun _ => hooksOnce_autoHead hids (afters_runChain _ _ _ _ _)⟩
    rw [hd] at hd'
    cases hd'
  | _ =>
    refine ⟨fun _ run ⟨_, _, _, hd', _⟩ => ?_, fun _ => hooksOnce_finish lib hids _ _⟩
    rw [hd] at hd'
    cases hd'

/-- A hook that throws on an answer with status 200. -/
def throwOnSuccess (_ : Request) (response : Response) : Except Exn Response :=
  if response.status = 200 then .error (.std "hook".toList) else .ok response

def brokenHook : List Registration :=
  [.use (passThrough 0), .use { passThrough 0 with after := throwOnSuccess },
    .add .get "/a".toList (fun r => (r, .ok (.response ⟨200, 11, true, [], []⟩))) []]

def hookRequest : Request := ⟨.get, "/a".toList, 11, true, [], [], none, [], none⟩

/-- The first hook has run on the 200 answer, and runs again on the 500 answer. -/
theorem hook_called_twice :
    afters (dispatch noLibrary ⟨1000, []⟩ (.build (numbered brokenHook)) hookRequest).trace =
      [0, 1, 0, 1] ∧
    ((dispatch noLibrary ⟨1000, []⟩ (.build (numbered brokenHook)) hookRequest).result.map
      Response.status).toOption = some 500 ∧
    ¬ HooksOnce ((Router.build (numbered brokenHook)).collectMiddlewaresFor "/a".toList)
      (dispatch noLibrary ⟨1000, []⟩ (.build (numbered brokenHook)) hookRequest) := by
  have htrace : afters (dispatch noLibrary ⟨1000, []⟩ (.build (numbered brokenHook))
      hookRequest).trace = [0, 1, 0, 1] := by decide +kernel
  refine ⟨htrace, by decide +kernel, fun h => ?_⟩
  have honce := h.1 { passThrough 0 with id := 0 } List.mem_cons_self
  rw [htrace] at honce
  revert honce
  decide

end AdequateApi.RouterModel
