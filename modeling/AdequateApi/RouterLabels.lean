import AdequateApi.RouterDecision
import Mathlib.Data.List.Nodup

/-! The labels by which a trace names the middlewares. Other labels give every dispatch other
events and change nothing else, so that the calls can be numbered. -/
namespace AdequateApi.RouterModel
open StdString HttpMessages

/-! ### Labels that tell the calls apart -/

/-- The middleware of this call gets the number of the call as its label. -/
def Registration.label (n : ℕ) : Registration → Registration
  | .use m => .use { m with id := n }
  | .useAt pathPrefix m => .useAt pathPrefix { m with id := n }
  | .add method path fn types => .add method path fn types

/-- The same calls with labels that tell all registered middlewares apart. -/
def numbered (ops : List Registration) : List Registration :=
  ops.zipIdx.map fun e => e.1.label e.2

def Registration.global : Registration → Option Middleware
  | .use m => some m
  | _ => none

def Registration.scoped : Registration → Option (Str × Middleware)
  | .useAt pathPrefix m => some (pathPrefix, m)
  | _ => none

def Registration.middleware : Registration → Option Middleware
  | .use m | .useAt _ m => some m
  | .add .. => none

theorem build_middlewares (ops : List Registration) :
    (Router.build ops).global_middlewares = ops.filterMap Registration.global ∧
      (Router.build ops).scoped_middlewares = ops.filterMap Registration.scoped := by
  have hall : ∀ (ops : List Registration) (r : Router),
      (ops.foldl Registration.apply r).global_middlewares =
          r.global_middlewares ++ ops.filterMap Registration.global ∧
        (ops.foldl Registration.apply r).scoped_middlewares =
          r.scoped_middlewares ++ ops.filterMap Registration.scoped := by
    intro ops
    induction ops with
    | nil => simp
    | cons op ops ih =>
      intro r
      obtain ⟨hg, hs⟩ := ih (op.apply r)
      rw [List.foldl_cons, hg, hs, List.filterMap_cons, List.filterMap_cons]
      cases op with
      | add => exact ⟨rfl, rfl⟩
      | use m => exact ⟨List.append_assoc _ _ _, rfl⟩
      | useAt pathPrefix m => exact ⟨rfl, List.append_assoc _ _ _⟩
  exact hall ops .empty

/-- The global and the scoped ones together are all of them. -/
theorem middlewares_perm (ops : List Registration) :
    (ops.filterMap Registration.global ++
        (ops.filterMap Registration.scoped).map Prod.snd).Perm
      (ops.filterMap Registration.middleware) := by
  induction ops with
  | nil => exact .nil
  | cons op ops ih =>
    cases op with
    | add => exact ih
    | use m => exact ih.cons m
    | useAt pathPrefix m => exact List.perm_middle.trans (ih.cons m)

theorem labels_numbered (ops : List Registration) :
    (((numbered ops).filterMap Registration.middleware).map Middleware.id).Nodup := by
  have hlabels : ∀ (ops : List Registration) (n : ℕ),
      ((((ops.zipIdx n).map fun e => e.1.label e.2).filterMap
        Registration.middleware).map Middleware.id).Sublist (List.range' n ops.length) := by
    intro ops
    induction ops with
    | nil => exact fun _ => .slnil
    | cons op ops ih =>
      intro n
      rw [List.zipIdx_cons, List.length_cons, List.range'_succ]
      cases op with
      | add => exact (ih (n + 1)).cons _
      | use m => exact (ih (n + 1)).cons_cons _
      | useAt pathPrefix m => exact (ih (n + 1)).cons_cons _
  exact (hlabels ops 0).nodup List.nodup_range'

theorem collected_nodup (ops : List Registration) (path : Str) :
    (((Router.build (numbered ops)).collectMiddlewaresFor path).map Middleware.id).Nodup := by
  obtain ⟨hg, hs⟩ := build_middlewares (numbered ops)
  unfold Router.collectMiddlewaresFor
  rw [hg, hs]
  have hperm := (middlewares_perm (numbered ops)).map Middleware.id
  refine List.Sublist.nodup ?_ (hperm.nodup_iff.mpr (labels_numbered ops))
  exact ((List.Sublist.refl _).append (List.filter_sublist.map _)).map _

/-! ### Renaming -/

section relabel
variable (f : ℕ → ℕ)

def Event.relabel : Event → Event
  | .entered id => .entered (f id)
  | .called id => .called (f id)
  | .handler template method => .handler template method
  | .after id => .after (f id)

def Middleware.relabel (m : Middleware) : Middleware := { m with id := f m.id }

def Run.relabel (run : Run) : Run := { run with trace := run.trace.map (Event.relabel f) }

def Dispatched.relabel (d : Dispatched) : Dispatched :=
  { d with trace := d.trace.map (Event.relabel f) }

def Registration.relabel : Registration → Registration
  | .use m => .use (m.relabel f)
  | .useAt pathPrefix m => .useAt pathPrefix (m.relabel f)
  | .add method path fn types => .add method path fn types

def Router.relabel (r : Router) : Router where
  table := r.table
  global_middlewares := r.global_middlewares.map (Middleware.relabel f)
  scoped_middlewares := r.scoped_middlewares.map fun s => (s.1, s.2.relabel f)

theorem build_relabel (ops : List Registration) :
    Router.build (ops.map (Registration.relabel f)) = (Router.build ops).relabel f := by
  have hall : ∀ r : Router, (ops.map (Registration.relabel f)).foldl Registration.apply
      (r.relabel f) = (ops.foldl Registration.apply r).relabel f := by
    induction ops with
    | nil => exact fun _ => rfl
    | cons op ops ih =>
      intro r
      have hop : (op.relabel f).apply (r.relabel f) = (op.apply r).relabel f := by
        cases op <;> simp [Registration.relabel, Registration.apply, Router.relabel, Router.use,
          Router.useAt, Router.add]
      rw [List.map_cons, List.foldl_cons, List.foldl_cons, hop, ih]
  exact hall .empty

theorem collect_relabel (r : Router) (path : Str) :
    (r.relabel f).collectMiddlewaresFor path =
      (r.collectMiddlewaresFor path).map (Middleware.relabel f) := by
  simp [Router.collectMiddlewaresFor, Router.relabel, List.filter_map, Function.comp_def]

theorem handling_relabel {next next' : Request → Run} (hn : ∀ r, next' r = (next r).relabel f)
    (id : ℕ) (program : Handling) :
    program.run (f id) next' = (program.run id next).relabel f := by
  induction program with
  | done => rfl
  | next request resume ih =>
    have hinner := hn request
    have hrest := ih (next request).request (next request).result
    simp [Handling.run, hinner, Run.relabel, hrest, Event.relabel]

theorem runChain_relabel (template : Str) (method : Verb) (fn : RouteFn)
    (middlewares : List Middleware) (request : Request) :
    runChain (runLeaf template method fn) (middlewares.map (Middleware.relabel f)) request =
      (runChain (runLeaf template method fn) middlewares request).relabel f := by
  induction middlewares generalizing request with
  | nil => rfl
  | cons m ms ih =>
    have hm := handling_relabel f ih m.id (m.handle request)
    exact congrArg (fun r : Run => { r with trace := .entered (f m.id) :: r.trace }) hm

theorem runAfter_relabel (request : Request) (middlewares : List Middleware)
    (response : Response) :
    runAfter request (middlewares.map (Middleware.relabel f)) response =
      (runAfter request middlewares response).relabel f := by
  induction middlewares generalizing response with
  | nil => rfl
  | cons m ms ih =>
    have hafter : (m.relabel f).after = m.after := rfl
    rw [List.map_cons, runAfter, runAfter, hafter]
    cases m.after request response with
    | error e => rfl
    | ok next => simp [ih next, Dispatched.relabel, Event.relabel, Middleware.relabel]

variable (lib : Library) (env : EnvConfig)

theorem finish_relabel (request : Request) (middlewares : List Middleware)
    (outcome : Except Exn Outcome) :
    finish lib request (middlewares.map (Middleware.relabel f)) outcome =
      (finish lib request middlewares outcome).relabel f := by
  unfold finish
  cases outcome.bind (render lib request) with
  | error e => rfl
  | ok response => exact runAfter_relabel f request middlewares response

theorem autoHead_relabel (run : Run) (middlewares : List Middleware) :
    autoHead lib (run.relabel f) (middlewares.map (Middleware.relabel f)) =
      (autoHead lib run middlewares).relabel f := by
  unfold autoHead
  simp only [Run.relabel, runAfter_relabel]
  cases run.result.bind (render lib run.request) with
  | error e => rfl
  | ok response => simp [Dispatched.relabel]

theorem runHandler_relabel (run : Run) (middlewares : List Middleware) :
    runHandler lib (run.relabel f) (middlewares.map (Middleware.relabel f)) =
      (runHandler lib run middlewares).relabel f := by
  unfold runHandler
  simp only [Run.relabel, finish_relabel, Dispatched.relabel]
  generalize finish lib run.request middlewares run.result = first
  obtain ⟨trace, result⟩ := first
  cases result with
  | ok response => simp only [List.map_append]
  | error e => cases e <;> simp only [List.map_append]

theorem run_relabel (middlewares : List Middleware) (request : Request) (d : Decision) :
    d.run lib env (middlewares.map (Middleware.relabel f)) request =
      (d.run lib env middlewares request).relabel f := by
  cases d with
  | notFound => exact finish_relabel f lib _ _ _
  | autoOptions => exact finish_relabel f lib _ _ _
  | notAllowed => exact finish_relabel f lib _ _ _
  | autoHead entry params fn =>
    simp only [Decision.run, runChain_relabel, autoHead_relabel]
  | handled entry params fn =>
    simp only [Decision.run, handle]
    split
    · exact finish_relabel f lib _ _ _
    · rw [runChain_relabel, runHandler_relabel]

/-- A renaming of the middlewares renames the events. -/
theorem dispatch_relabel (router : Router) (request : Request) :
    dispatch lib env (router.relabel f) request = (dispatch lib env router request).relabel f := by
  rw [dispatch_decision, dispatch_decision, collect_relabel]
  exact run_relabel f lib env _ request _

end relabel

/-- The numbers can be renamed back. -/
theorem numbered_relabel (ops : List Registration) :
    ∃ f, (numbered ops).map (Registration.relabel f) = ops := by
  refine ⟨fun n => ((ops[n]?).bind Registration.middleware).elim 0 Middleware.id, ?_⟩
  rw [numbered, List.map_map]
  calc ops.zipIdx.map _ = ops.zipIdx.map Prod.fst := by
        refine List.map_congr_left fun e he => ?_
        obtain ⟨op, n⟩ := e
        have hop : ops[n]? = some op := List.mem_zipIdx_iff_getElem?.mp he
        cases op <;>
          simp [Registration.label, Registration.relabel, Middleware.relabel, hop,
            Registration.middleware]
    _ = ops := List.zipIdx_map_fst 0 ops

/-- A dispatch does not depend on the labels but for the names in its trace. -/
theorem dispatch_numbered (lib : Library) (env : EnvConfig) (ops : List Registration) :
    ∃ f, ∀ request, dispatch lib env (.build ops) request =
      (dispatch lib env (.build (numbered ops)) request).relabel f := by
  obtain ⟨f, hf⟩ := numbered_relabel ops
  refine ⟨f, fun request => ?_⟩
  rw [← dispatch_relabel, ← build_relabel, hf]

end AdequateApi.RouterModel
