import AdequateApi.RouteCompilation
import Mathlib.Data.List.Flatten

/-! No handler runs before the middlewares of its template have let the request through.
Middlewares are chosen by a prefix test on the path, handlers by the compiled pattern. -/
namespace AdequateApi.RouterModel
open StdString HttpMessages RegexPattern Regex

/-! ### The prefix test -/

/-- Begins with a slash, has no empty segment and no trailing slash. -/
def Canonical (tmpl : Str) : Prop := ∃ rest, tmpl = '/' :: rest ∧ [] ∉ rest.splitOn '/'

theorem joined_eq_intercalate {pieces : List Str} (h : pieces ≠ []) :
    joined pieces = '/' :: ['/'].intercalate pieces := by
  induction pieces with
  | nil => exact absurd rfl h
  | cons piece pieces ih =>
    by_cases hp : pieces = []
    · subst hp
      simp [joined]
    · rw [joined_cons, ih hp, List.intercalate_cons_of_ne_nil hp]
      simp

theorem splitOn_slash_cons (rest : Str) : ('/' :: rest).splitOn '/' = [] :: rest.splitOn '/' := by
  rw [List.splitOn_cons_eq_if_modifyHead, if_pos (by simp)]

/-- The search drops no part of a canonical template but the one before the first slash. -/
theorem segments_rooted {rest : Str} (h : [] ∉ rest.splitOn '/') :
    segments ('/' :: rest) = rest.splitOn '/' := by
  rw [segments, splitOn_slash_cons, List.filter_cons_of_neg (by simp), List.filter_eq_self]
  intro seg hm
  have : seg ≠ [] := fun he => h (he ▸ hm)
  simpa using this

theorem Canonical.joined_segments {tmpl : Str} (h : Canonical tmpl) :
    joined (segments tmpl) = tmpl := by
  obtain ⟨rest, rfl, hne⟩ := h
  rw [segments_rooted hne, joined_eq_intercalate (List.splitOn_ne_nil _ _),
    List.intercalate_splitOn]

theorem isParam_head {seg : Str} (h : isParam seg = true) : ∃ rest, seg = '{' :: rest := by
  unfold isParam at h
  cases seg with
  | nil => simp at h
  | cons c rest =>
    simp only [List.head?_cons, Bool.and_eq_true, decide_eq_true_eq, Option.some.injEq] at h
    exact ⟨rest, by rw [h.1]⟩

/-- A prefix of the template without a parameter in it is a prefix of every path that
instantiates the template. -/
theorem prefix_of_pieces {segs pieces : List Str} (h : List.Forall₂ Instantiates segs pieces)
    {p : Str} (hp : p <+: joined segs) (hb : '{' ∉ p) : p <+: joined pieces := by
  induction h generalizing p with
  | nil => simpa using hp
  | @cons seg piece segs pieces hi _ ih =>
    cases p with
    | nil => exact List.nil_prefix
    | cons c p =>
      rw [joined_cons, List.cons_prefix_cons] at hp
      obtain ⟨rfl, hp⟩ := hp
      rw [joined_cons, List.cons_prefix_cons]
      refine ⟨rfl, ?_⟩
      by_cases hparam : isParam seg = true
      · obtain ⟨rest, rfl⟩ := isParam_head hparam
        cases p with
        | nil => exact List.nil_prefix
        | cons d p =>
          rw [List.cons_append, List.cons_prefix_cons] at hp
          exact absurd (by simp [hp.1]) hb
      · rw [Instantiates, if_neg hparam] at hi
        subst hi
        rcases List.prefix_or_prefix_of_prefix hp (List.prefix_append _ _) with hle | ⟨q, rfl⟩
        · exact hle.trans (List.prefix_append _ _)
        · rw [List.prefix_append_right_inj] at hp ⊢
          exact ih hp fun hm => hb (by simp [hm])

/-! ### The trace of the chain -/

/-- Each of these middlewares is entered and calls its `next`, one inside the other. -/
def passed (middlewares : List Middleware) : List Event :=
  middlewares.flatMap fun m => [.entered m.id, .called m.id]

def Event.isHandler : Event → Bool
  | .handler .. => true
  | _ => false

/-- Every handler in the trace is one of this template, and before it these events happened
in this order. -/
def Guards (tmpl : Str) (events trace : List Event) : Prop :=
  ∀ before t v rest, trace = before ++ .handler t v :: rest → t = tmpl ∧ events.Sublist before

variable {tmpl : Str} {events : List Event}

theorem guards_of_silent {trace : List Event} (h : ∀ e ∈ trace, e.isHandler = false) :
    Guards tmpl events trace := by
  rintro before t v rest rfl
  have := h (.handler t v) (by simp)
  cases this

theorem Guards.append {a b : List Event} (ha : Guards tmpl events a) (hb : Guards tmpl events b) :
    Guards tmpl events (a ++ b) := by
  intro before t v rest h
  rcases List.append_eq_append_iff.mp h with ⟨c, rfl, hc⟩ | ⟨c, rfl, hc⟩
  · obtain ⟨ht, hs⟩ := hb c t v rest hc
    exact ⟨ht, hs.trans (List.sublist_append_right _ _)⟩
  · cases c with
    | nil =>
      obtain ⟨ht, hs⟩ := hb [] t v rest (by simpa using hc.symm)
      exact ⟨ht, hs.trans (List.nil_sublist _)⟩
    | cons d c =>
      obtain ⟨rfl, rfl⟩ := List.cons.inj hc
      exact ha before t v c rfl

theorem Guards.cons {trace : List Event} (h : Guards tmpl events trace) {e : Event}
    (he : e.isHandler = false) : Guards tmpl (e :: events) (e :: trace) := by
  intro before t v rest hs
  cases before with
  | nil =>
    obtain ⟨rfl, _⟩ := List.cons.inj hs
    cases he
  | cons c before =>
    obtain ⟨rfl, htail⟩ := List.cons.inj hs
    obtain ⟨ht, hsub⟩ := h before t v rest htail
    exact ⟨ht, hsub.cons_cons _⟩

theorem guards_run (id : ℕ) {next : Request → Run} (hn : ∀ r, Guards tmpl events (next r).trace)
    (program : Handling) : Guards tmpl (.called id :: events) (program.run id next).trace := by
  induction program with
  | done => exact guards_of_silent fun e he => by cases he
  | next request resume ih =>
    have hinner := (hn request).cons (e := .called id) rfl
    exact hinner.append (ih _ _)

/-- The folded chain cannot skip a link. -/
theorem guards_runChain (method : Verb) (fn : RouteFn) (middlewares : List Middleware)
    (request : Request) :
    Guards tmpl (passed middlewares)
      (runChain (runLeaf tmpl method fn) middlewares request).trace := by
  induction middlewares generalizing request with
  | nil =>
    intro before t v rest h
    refine ⟨?_, List.nil_sublist _⟩
    have hm : .handler t v ∈ (runChain (runLeaf tmpl method fn) [] request).trace := by
      rw [h]
      simp
    exact (Event.handler.inj (List.mem_singleton.mp hm)).1
  | cons m ms ih => exact (guards_run m.id ih (m.handle request)).cons rfl

theorem runAfter_silent (request : Request) (middlewares : List Middleware) (response : Response) :
    ∀ e ∈ (runAfter request middlewares response).trace, e.isHandler = false := by
  induction middlewares generalizing response with
  | nil => exact fun e he => by cases he
  | cons m ms ih =>
    unfold runAfter
    split
    · intro e he
      rw [List.mem_singleton.mp he]
      rfl
    · intro e he
      rcases List.mem_cons.mp he with rfl | he
      · rfl
      · exact ih _ e he

theorem finish_silent (lib : Library) (request : Request) (middlewares : List Middleware)
    (outcome : Except Exn Outcome) :
    ∀ e ∈ (finish lib request middlewares outcome).trace, e.isHandler = false := by
  unfold finish
  split
  · exact fun e he => by cases he
  · exact runAfter_silent _ _ _

theorem guards_autoHead (lib : Library) {run : Run} (middlewares : List Middleware)
    (h : Guards tmpl events run.trace) :
    Guards tmpl events (autoHead lib run middlewares).trace := by
  unfold autoHead
  split
  · exact h
  · exact h.append (guards_of_silent (runAfter_silent _ _ _))

theorem guards_runHandler (lib : Library) {run : Run} (middlewares : List Middleware)
    (h : Guards tmpl events run.trace) :
    Guards tmpl events (runHandler lib run middlewares).trace := by
  have hsilent : Guards tmpl events (finish lib run.request middlewares run.result).trace :=
    guards_of_silent (finish_silent lib run.request middlewares run.result)
  have hrest := h.append hsilent
  unfold runHandler
  dsimp only
  split
  · exact hrest
  · exact hrest
  all_goals exact hrest.append (guards_of_silent (finish_silent _ _ _ _))

theorem guards_dispatchTo (lib : Library) (env : EnvConfig) (entry : RouteEntry)
    (middlewares : List Middleware) (request : Request) :
    Guards entry.original (passed middlewares)
      (dispatchTo lib env entry middlewares request).trace := by
  have hfinish : ∀ r o, Guards entry.original (passed middlewares)
      (finish lib r middlewares o).trace :=
    fun r o => guards_of_silent (finish_silent lib r middlewares o)
  unfold dispatchTo
  dsimp only
  split
  · exact guards_autoHead lib _ (guards_runChain _ _ _ _)
  · exact hfinish _ _
  · exact hfinish _ _
  · split
    · exact hfinish _ _
    split
    · exact hfinish _ _
    split
    · exact hfinish _ _
    -- the body is refused, or the handler runs
    split <;> split
    all_goals first
      | exact hfinish _ _
      | exact guards_runHandler lib _ (guards_runChain _ _ _ _)

/-! ### The whole router -/

/-- Every entry carries the pattern compiled from its own template. -/
def Compiled (r : Router) : Prop := ∀ e ∈ r.table, e.regex = (compileRoute e.original).regex

theorem mem_addTo {method : Verb} {path : Str} {fn : RouteFn} {types : List Str}
    {table : List RouteEntry} (h : ∀ e ∈ table, e.regex = (compileRoute e.original).regex)
    {e : RouteEntry} (he : e ∈ Router.addTo method path fn types table) :
    e.regex = (compileRoute e.original).regex := by
  induction table with
  | nil =>
    rw [List.mem_singleton.mp he]
    rfl
  | cons entry table ih =>
    unfold Router.addTo at he
    split at he
    · rcases List.mem_cons.mp he with rfl | he
      · exact h entry List.mem_cons_self
      · exact h e (List.mem_cons_of_mem _ he)
    · rcases List.mem_cons.mp he with rfl | he
      · exact h e List.mem_cons_self
      · exact ih (fun e he => h e (List.mem_cons_of_mem _ he)) he

theorem compiled_build (ops : List Registration) : Compiled (.build ops) := by
  have hall : ∀ (ops : List Registration) (r : Router), Compiled r →
      Compiled (ops.foldl Registration.apply r) := by
    intro ops
    induction ops with
    | nil => exact fun _ h => h
    | cons op ops ih =>
      intro r h
      apply ih
      cases op with
      | add => exact fun e he => mem_addTo h he
      | use => exact h
      | useAt => exact h
  exact hall ops .empty fun e he => by cases he

/-- The middlewares a handler of this template must come after. -/
def Router.required (r : Router) (tmpl : Str) : List Middleware :=
  r.global_middlewares ++
    (r.scoped_middlewares.filter fun s => startsWith tmpl s.1 ∧ '{' ∉ s.1).map Prod.snd

theorem required_sublist {r : Router} {tmpl path : Str} {captures : Captures}
    (hc : Canonical tmpl) (hm : regex_match path (compileRoute tmpl).regex = some captures) :
    (r.required tmpl).Sublist (r.collectMiddlewaresFor path) := by
  obtain ⟨pieces, hall, rfl⟩ := pieces_of_match hm
  refine (List.Sublist.refl _).append (List.Sublist.map _ ?_)
  apply List.monotone_filter_right
  intro s hs
  simp only [decide_eq_true_eq, startsWith_iff] at hs ⊢
  refine prefix_of_pieces hall ?_ hs.2
  rw [hc.joined_segments]
  exact hs.1

/-- Whatever the middlewares and handlers do, a handler of a canonical template runs only
after all global and all matching scoped middlewares have called their `next`. -/
theorem middleware_not_bypassed (lib : Library) (env : EnvConfig) (ops : List Registration)
    (request : Request) {before rest : List Event} {tmpl : Str} {method : Verb}
    (h : (dispatch lib env (.build ops) request).trace =
      before ++ .handler tmpl method :: rest) (hc : Canonical tmpl) :
    (passed ((Router.build ops).required tmpl)).Sublist before := by
  unfold dispatch at h
  dsimp only at h
  cases hr : (Router.build ops).matchRoute (normalizeTarget request) with
  | none =>
    rw [hr] at h
    have hs := finish_silent lib request
      ((Router.build ops).collectMiddlewaresFor (normalizeTarget request)) (make404 lib request)
    have := hs (.handler tmpl method) (h ▸ by simp)
    cases this
  | some found =>
    obtain ⟨entry, params⟩ := found
    rw [hr] at h
    obtain ⟨rfl, hsub⟩ := guards_dispatchTo lib env entry _ _ before tmpl method rest h
    obtain ⟨e, he, hmatch⟩ := List.exists_of_findSome?_eq_some hr
    obtain ⟨captures, hcap, heq⟩ := Option.map_eq_some_iff.mp hmatch
    obtain ⟨rfl, _⟩ := Prod.mk.inj heq
    rw [compiled_build ops e he] at hcap
    have hreq : (passed ((Router.build ops).required e.original)).Sublist (passed _) :=
      (required_sublist hc hcap).flatMap _
    exact hreq.trans hsub

/-- A middleware that lets every request through. -/
def passThrough (id : ℕ) : Middleware where
  id := id
  handle := fun request => .next request .done
  after := fun _ response => .ok response

/-- A router with a global and a scoped middleware around one handler. -/
def usersRouter : List Registration :=
  [.use (passThrough 1), .useAt "/users".toList (passThrough 2),
    .add .get "/users/{id}".toList (fun r => (r, .ok (.response ⟨200, 11, true, [], []⟩))) []]

/-- No JSON document is well formed, and all are written as the empty text. -/
def noLibrary : Library :=
  ⟨fun _ => .error [], fun _ _ => .ok [], ⟨fun _ => .error [], fun _ _ => ([], none)⟩, 0⟩

def usersRequest : Request :=
  ⟨.get, "/users/7?x".toList, 11, true, [], [], none, [], none⟩

theorem middleware_not_bypassed_users :
    (passed ((Router.build usersRouter).required "/users/{id}".toList)).Sublist
      [.entered 1, .called 1, .entered 2, .called 2] := by
  have htrace : (dispatch noLibrary ⟨1000, []⟩ (.build usersRouter) usersRequest).trace =
      [.entered 1, .called 1, .entered 2, .called 2] ++
        .handler "/users/{id}".toList .get :: [.after 1, .after 2] := by decide +kernel
  exact middleware_not_bypassed noLibrary ⟨1000, []⟩ usersRouter usersRequest htrace
    ⟨"users/{id}".toList, rfl, by decide⟩

end AdequateApi.RouterModel
