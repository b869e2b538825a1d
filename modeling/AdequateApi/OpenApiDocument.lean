import Mathlib.Data.List.Forall2
import Mathlib.Data.List.Induction
import Mathlib.Data.List.Nodup
import AdequateApi.Numerals
import AdequateApi.RouterModel

/-! The document that `OpenApiBuilder` makes of the router's table: which responses it lists
for an operation whose `OpenApiMeta` was written with `OpenApiResponses`. -/
namespace AdequateApi.OpenApi
open StdString HttpMessages RouterModel

/-! ### Declaring responses -/

structure OpenApiResponseMeta where
  status : ℤ
  description : Str
  schemaRef : Option Str
  deriving DecidableEq, Repr

structure OpenApiRequestBody where
  contentType : Str
  schemaRef : Str
  required : Bool := true

structure OpenApiMeta where
  summary : Str := []
  responses : List OpenApiResponseMeta := []
  parameters : Json := .arr []
  requestBody : Option OpenApiRequestBody := none
  authRequired : Bool := false

structure OpenApiResponses where
  items : List OpenApiResponseMeta
  deriving DecidableEq, Repr

namespace OpenApiResponses

def empty : OpenApiResponses := ⟨[]⟩

def hasCode (r : OpenApiResponses) (status : ℤ) : Bool := r.items.any fun i => i.status = status

def addImpl (r : OpenApiResponses) (status : ℤ) (desc : Str) (schemaRef : Option Str) :
    OpenApiResponses :=
  if !r.hasCode status then ⟨r.items ++ [⟨status, desc, schemaRef⟩]⟩ else r

def addNoBodyImpl (r : OpenApiResponses) (status : ℤ) (desc : Str) : OpenApiResponses :=
  if !r.hasCode status then ⟨r.items ++ [⟨status, desc, none⟩]⟩ else r

def ok (r : OpenApiResponses) (schemaRef desc : Str) : OpenApiResponses :=
  r.addImpl 200 desc schemaRef

def okArray (r : OpenApiResponses) (itemSchema desc : Str) : OpenApiResponses :=
  r.addImpl 200 desc (some (itemSchema ++ "Array".toList))

def created (r : OpenApiResponses) (desc : Str) (schemaRef : Option Str) : OpenApiResponses :=
  match schemaRef with
  | none => r.addNoBodyImpl 201 desc
  | some schema => r.addImpl 201 desc schema

def noContent (r : OpenApiResponses) (desc : Str) : OpenApiResponses := r.addNoBodyImpl 204 desc

def badRequest (r : OpenApiResponses) (schemaRef desc : Str) : OpenApiResponses :=
  r.addImpl 400 desc schemaRef

def unauthorized (r : OpenApiResponses) (schemaRef desc : Str) : OpenApiResponses :=
  r.addImpl 401 desc schemaRef

def forbidden (r : OpenApiResponses) (schemaRef desc : Str) : OpenApiResponses :=
  r.addImpl 403 desc schemaRef

def notFound (r : OpenApiResponses) (schemaRef desc : Str) : OpenApiResponses :=
  r.addImpl 404 desc schemaRef

def conflict (r : OpenApiResponses) (schemaRef desc : Str) : OpenApiResponses :=
  r.addImpl 409 desc schemaRef

def tooLarge (r : OpenApiResponses) (schemaRef desc : Str) : OpenApiResponses :=
  r.addImpl 413 desc schemaRef

def unsupportedMedia (r : OpenApiResponses) (schemaRef desc : Str) : OpenApiResponses :=
  r.addImpl 415 desc schemaRef

def unprocessableEntity (r : OpenApiResponses) (schemaRef desc : Str) : OpenApiResponses :=
  r.addImpl 422 desc schemaRef

def internal (r : OpenApiResponses) (schemaRef desc : Str) : OpenApiResponses :=
  r.addImpl 500 desc schemaRef

def errorSchema : Str := "ErrorResponse".toList

def withAuth (r : OpenApiResponses) : OpenApiResponses :=
  (r.addImpl 401 "Unauthorized".toList errorSchema).addImpl 403 "Forbidden".toList errorSchema

def withBody (r : OpenApiResponses) : OpenApiResponses :=
  (((r.addImpl 400 "Bad request / validation error".toList errorSchema).addImpl
    413 "Payload too large".toList errorSchema).addImpl
    415 "Unsupported media type".toList errorSchema).addImpl
    422 "Unprocessable entity".toList errorSchema

def withAlways (r : OpenApiResponses) : OpenApiResponses :=
  r.addImpl 500 "Internal server error".toList errorSchema

def custom (r : OpenApiResponses) (status : ℤ) (desc schemaRef : Str) : OpenApiResponses :=
  r.addImpl status desc schemaRef

def customNoBody (r : OpenApiResponses) (status : ℤ) (desc : Str) : OpenApiResponses :=
  r.addNoBodyImpl status desc

end OpenApiResponses

/-- One call in a chain on `OpenApiResponses`, with the defaults of its arguments. -/
inductive ResponsesCall
  | ok (schemaRef : Str) (desc : Str := "OK".toList)
  | okArray (itemSchema : Str) (desc : Str := "OK".toList)
  | created (desc : Str := "Created".toList) (schemaRef : Option Str := none)
  | noContent (desc : Str := "No Content".toList)
  | badRequest (schemaRef : Str := OpenApiResponses.errorSchema)
      (desc : Str := "Bad request / validation error".toList)
  | unauthorized (schemaRef : Str := OpenApiResponses.errorSchema)
      (desc : Str := "Unauthorized".toList)
  | forbidden (schemaRef : Str := OpenApiResponses.errorSchema) (desc : Str := "Forbidden".toList)
  | notFound (schemaRef : Str := OpenApiResponses.errorSchema) (desc : Str := "Not found".toList)
  | conflict (schemaRef : Str := OpenApiResponses.errorSchema) (desc : Str := "Conflict".toList)
  | tooLarge (schemaRef : Str := OpenApiResponses.errorSchema)
      (desc : Str := "Payload too large".toList)
  | unsupportedMedia (schemaRef : Str := OpenApiResponses.errorSchema)
      (desc : Str := "Unsupported media type".toList)
  | unprocessableEntity (schemaRef : Str := OpenApiResponses.errorSchema)
      (desc : Str := "Unprocessable entity".toList)
  | internal (schemaRef : Str := OpenApiResponses.errorSchema)
      (desc : Str := "Internal server error".toList)
  | withAuth
  | withBody
  | withAlways
  | custom (status : ℤ) (desc schemaRef : Str)
  | customNoBody (status : ℤ) (desc : Str)
  deriving DecidableEq, Repr

def OpenApiResponses.call (r : OpenApiResponses) : ResponsesCall → OpenApiResponses
  | .ok schemaRef desc => r.ok schemaRef desc
  | .okArray itemSchema desc => r.okArray itemSchema desc
  | .created desc schemaRef => r.created desc schemaRef
  | .noContent desc => r.noContent desc
  | .badRequest schemaRef desc => r.badRequest schemaRef desc
  | .unauthorized schemaRef desc => r.unauthorized schemaRef desc
  | .forbidden schemaRef desc => r.forbidden schemaRef desc
  | .notFound schemaRef desc => r.notFound schemaRef desc
  | .conflict schemaRef desc => r.conflict schemaRef desc
  | .tooLarge schemaRef desc => r.tooLarge schemaRef desc
  | .unsupportedMedia schemaRef desc => r.unsupportedMedia schemaRef desc
  | .unprocessableEntity schemaRef desc => r.unprocessableEntity schemaRef desc
  | .internal schemaRef desc => r.internal schemaRef desc
  | .withAuth => r.withAuth
  | .withBody => r.withBody
  | .withAlways => r.withAlways
  | .custom status desc schemaRef => r.custom status desc schemaRef
  | .customNoBody status desc => r.customNoBody status desc

/-- `OpenApiResponses{}` with a chain of calls, and `build()`. -/
def declared (chain : List ResponsesCall) : List OpenApiResponseMeta :=
  (chain.foldl OpenApiResponses.call .empty).items

/-! ### The document -/

/-- `http::to_string(method)` in lower case. -/
def methodText : Verb → Str
  | .get => "get".toList
  | .head => "head".toList
  | .post => "post".toList
  | .put => "put".toList
  | .patch => "patch".toList
  | .delete_ => "delete".toList
  | .options => "options".toList
  | .other name => toLower name

/-- What the document takes from a `RouteEntry`; `methods` are the keys of its map, in the
order of the hash table. -/
structure DocumentedRoute where
  original : Str
  methods : List Verb
  openapiMeta : Verb → Option OpenApiMeta

/-- `router.routes()`: one entry for each template, one key for each method. -/
structure RouteTable where
  entries : List DocumentedRoute
  templates_nodup : (entries.map DocumentedRoute.original).Nodup
  methods_nodup : ∀ e ∈ entries, (e.methods.map methodText).Nodup

def schemaRefTo (name : Str) : Json :=
  .obj [("schema".toList, .obj [("$ref".toList, .str ("#/components/schemas/".toList ++ name))])]

def responseJson (description schemaName : Str) : Json :=
  .obj [("description".toList, .str description),
    ("content".toList, .obj [("application/json".toList, schemaRefTo schemaName)])]

/-- A response is written only when it has a schema. -/
def responsesObject (responses : List OpenApiResponseMeta) : Dict Json :=
  responses.foldl (fun out r =>
    match r.schemaRef with
    | some schemaName => out.set (to_string r.status) (responseJson r.description schemaName)
    | none => out) []

def operation (m : OpenApiMeta) : Dict Json :=
  let base : Dict Json := [("summary".toList, .str m.summary),
    ("responses".toList, .obj (responsesObject m.responses))]
  let base := match m.parameters with
    | .arr (p :: ps) => base.set "parameters".toList (.arr (p :: ps))
    | _ => base
  let base := match m.requestBody with
    | some rb => base.set "requestBody".toList (.obj [("required".toList, .bool rb.required),
        ("content".toList, .obj [(rb.contentType, schemaRefTo rb.schemaRef)])])
    | none => base
  if m.authRequired then
    base.set "security".toList (.arr [.obj [("bearerAuth".toList, .arr [])]])
  else base

/-- `documentation["paths"]`, by template and method. -/
abbrev Paths := Dict (Dict Json)

def Paths.assign (paths : Paths) (template method : Str) (op : Json) : Paths :=
  paths.set template (((paths.find template).getD []).set method op)

/-- The operations in the order in which the two loops write them. -/
def operations (entries : List DocumentedRoute) : List ((Str × Str) × Json) :=
  entries.flatMap fun route => route.methods.filterMap fun method =>
    (route.openapiMeta method).map fun m =>
      ((route.original, methodText method), .obj (operation m))

def pathsOf (entries : List DocumentedRoute) : Paths :=
  (operations entries).foldl (fun paths o => paths.assign o.1.1 o.1.2 o.2) []

def OpenApiBuilder.build (router : RouteTable) (schemas : Dict Json)
    (title version : Str) : Json :=
  let paths := pathsOf router.entries
  .obj ([("openapi".toList, .str "3.0.3".toList),
      ("info".toList, .obj [("title".toList, .str title), ("version".toList, .str version)])] ++
    (if paths = [] then []
      else [("paths".toList, .obj (paths.map fun p => (p.1, .obj p.2)))]) ++
    [("components".toList, .obj [("schemas".toList, .obj schemas),
      ("securitySchemes".toList, .obj [("bearerAuth".toList, .obj [("type".toList,
        .str "http".toList), ("scheme".toList, .str "bearer".toList),
        ("bearerFormat".toList, .str "JWT".toList)])])])])

/-- The member of a document at the end of a path of keys. -/
def Json.at? : Json → List Str → Option Json
  | j, [] => some j
  | .obj members, k :: ks => (Dict.find members k).bind fun j => at? j ks
  | _, _ :: _ => none

/-! ### The table that `Router::add` fills -/

/-- The names of Beast's verbs besides the seven the router has functions for. -/
def otherVerbs : List Str :=
  ["<unknown>".toList, "CONNECT".toList, "TRACE".toList, "COPY".toList, "LOCK".toList,
    "MKCOL".toList, "MOVE".toList, "PROPFIND".toList, "PROPPATCH".toList, "SEARCH".toList,
    "UNLOCK".toList, "BIND".toList, "REBIND".toList, "UNBIND".toList, "ACL".toList,
    "REPORT".toList, "MKACTIVITY".toList, "CHECKOUT".toList, "MERGE".toList, "M-SEARCH".toList,
    "NOTIFY".toList, "SUBSCRIBE".toList, "UNSUBSCRIBE".toList, "PURGE".toList,
    "MKCALENDAR".toList, "LINK".toList, "UNLINK".toList]

def beastVerbs : List Verb :=
  [.get, .head, .post, .put, .patch, .delete_, .options] ++ otherVerbs.map .other

theorem beastVerbs_text_nodup : (beastVerbs.map methodText).Nodup := by decide +kernel

/-- One call of `Router::add`, with its `OpenApiMeta`. -/
structure RouteCall where
  method : Verb
  path : Str
  fn : RouteFn
  types : List Str
  docs : OpenApiMeta
  known : method ∈ beastVerbs

def RouteCall.registration (c : RouteCall) : Registration := .add c.method c.path c.fn c.types

def DocumentedRoute.set (entry : DocumentedRoute) (method : Verb) (docs : OpenApiMeta) :
    DocumentedRoute :=
  { entry with
    methods := if method ∈ entry.methods then entry.methods else method :: entry.methods
    openapiMeta := Function.update entry.openapiMeta method (some docs) }

def RouteCall.addTo (c : RouteCall) : List DocumentedRoute → List DocumentedRoute
  | [] => [DocumentedRoute.set ⟨c.path, [], fun _ => none⟩ c.method c.docs]
  | entry :: rest =>
      if entry.original = c.path then entry.set c.method c.docs :: rest
      else entry :: c.addTo rest

def routesOf (calls : List RouteCall) : List DocumentedRoute :=
  calls.foldl (fun table c => c.addTo table) []

/-- An entry of the documented table beside the same entry of the router's. -/
structure SameEntry (d : DocumentedRoute) (e : RouteEntry) : Prop where
  original : d.original = e.original
  methods : ∀ v, v ∈ d.methods ↔ (e.methods v).isSome
  documented : ∀ v, v ∈ d.methods ↔ (d.openapiMeta v).isSome
  nodup : d.methods.Nodup
  known : ∀ v ∈ d.methods, v ∈ beastVerbs

theorem SameEntry.set {d : DocumentedRoute} {e : RouteEntry} (h : SameEntry d e) (c : RouteCall) :
    SameEntry (d.set c.method c.docs) (Router.RouteEntry.set e c.method c.fn c.types) := by
  have mem : ∀ v, v ∈ (d.set c.method c.docs).methods ↔ v = c.method ∨ v ∈ d.methods := by
    intro v
    unfold DocumentedRoute.set
    split
    · rename_i hm
      exact ⟨.inr, fun hv => hv.elim (fun he => he ▸ hm) id⟩
    · exact List.mem_cons
  refine ⟨h.original, fun v => ?_, fun v => ?_, ?_, fun v hv => ?_⟩
  · rw [mem, h.methods]
    by_cases hv : v = c.method <;> simp [Router.RouteEntry.set, hv]
  · rw [mem, h.documented]
    by_cases hv : v = c.method <;> simp [DocumentedRoute.set, hv]
  · unfold DocumentedRoute.set
    split
    · exact h.nodup
    · rename_i hm
      exact List.nodup_cons.mpr ⟨hm, h.nodup⟩
  · rcases (mem v).mp hv with rfl | hv
    · exact c.known
    · exact h.known v hv

theorem sameEntry_addTo {ds : List DocumentedRoute} {es : List RouteEntry}
    (h : List.Forall₂ SameEntry ds es) (c : RouteCall) :
    List.Forall₂ SameEntry (c.addTo ds) (Router.addTo c.method c.path c.fn c.types es) := by
  induction h with
  | nil =>
    have new : SameEntry ⟨c.path, [], fun _ => none⟩ (compileRoute c.path) :=
      ⟨rfl, by simp [compileRoute], by simp, List.nodup_nil, by simp⟩
    exact .cons (new.set c) .nil
  | @cons d e ds es hde rest ih =>
    unfold RouteCall.addTo Router.addTo
    rw [← hde.original]
    split
    · exact .cons (hde.set c) rest
    · exact .cons hde ih

/-- The documented table has the entries of the router's table. -/
theorem routesOf_same (calls : List RouteCall) :
    List.Forall₂ SameEntry (routesOf calls)
      (Router.build (calls.map RouteCall.registration)).table := by
  induction calls using List.reverseRecOn with
  | nil => exact .nil
  | append_singleton calls c ih =>
    simp only [routesOf, Router.build, List.map_append, List.map_singleton, List.foldl_append,
      List.foldl_cons, List.foldl_nil] at ih ⊢
    exact sameEntry_addTo ih c

theorem routesOf_known {calls : List RouteCall} {d : DocumentedRoute} (hd : d ∈ routesOf calls) :
    d.methods.Nodup ∧ ∀ v ∈ d.methods, v ∈ beastVerbs := by
  have same := routesOf_same calls
  generalize (Router.build (calls.map RouteCall.registration)).table = es at same
  generalize routesOf calls = ds at same hd
  induction same with
  | nil => cases hd
  | cons h _ ih =>
    rcases List.mem_cons.mp hd with rfl | hd
    · exact ⟨h.nodup, h.known⟩
    · exact ih hd

theorem addTo_original (c : RouteCall) (ds : List DocumentedRoute) :
    (c.addTo ds).map DocumentedRoute.original =
      if c.path ∈ ds.map DocumentedRoute.original then ds.map DocumentedRoute.original
      else ds.map DocumentedRoute.original ++ [c.path] := by
  induction ds with
  | nil => rfl
  | cons d ds ih =>
    unfold RouteCall.addTo
    by_cases hd : d.original = c.path
    · simp [hd, DocumentedRoute.set]
    · have hne : ¬ c.path = d.original := fun he => hd he.symm
      rw [if_neg hd, List.map_cons, ih, List.map_cons]
      simp only [List.mem_cons, hne, false_or]
      split <;> rfl

theorem routesOf_original_nodup (calls : List RouteCall) :
    ((routesOf calls).map DocumentedRoute.original).Nodup := by
  induction calls using List.reverseRecOn with
  | nil => exact List.nodup_nil
  | append_singleton calls c ih =>
    rw [routesOf, List.foldl_append, List.foldl_cons, List.foldl_nil, addTo_original]
    split
    · exact ih
    · rename_i hc
      exact List.nodup_append.mpr ⟨ih, List.nodup_singleton _, fun a ha b hb he =>
        hc (List.mem_singleton.mp hb ▸ he ▸ ha)⟩

/-- `routes()` after these calls. -/
def tableOf (calls : List RouteCall) : RouteTable where
  entries := routesOf calls
  templates_nodup := routesOf_original_nodup calls
  methods_nodup d hd := by
    obtain ⟨nodup, known⟩ := routesOf_known hd
    exact nodup.map_on fun v hv w hw he =>
      List.inj_on_of_nodup_map beastVerbs_text_nodup (known v hv) (known w hw) he

/-! ### First declarations -/

/-- The responses a call declares, in order. -/
def ResponsesCall.declares : ResponsesCall → List OpenApiResponseMeta
  | .ok schemaRef desc => [⟨200, desc, some schemaRef⟩]
  | .okArray itemSchema desc => [⟨200, desc, some (itemSchema ++ "Array".toList)⟩]
  | .created desc schemaRef => [⟨201, desc, schemaRef⟩]
  | .noContent desc => [⟨204, desc, none⟩]
  | .badRequest schemaRef desc => [⟨400, desc, some schemaRef⟩]
  | .unauthorized schemaRef desc => [⟨401, desc, some schemaRef⟩]
  | .forbidden schemaRef desc => [⟨403, desc, some schemaRef⟩]
  | .notFound schemaRef desc => [⟨404, desc, some schemaRef⟩]
  | .conflict schemaRef desc => [⟨409, desc, some schemaRef⟩]
  | .tooLarge schemaRef desc => [⟨413, desc, some schemaRef⟩]
  | .unsupportedMedia schemaRef desc => [⟨415, desc, some schemaRef⟩]
  | .unprocessableEntity schemaRef desc => [⟨422, desc, some schemaRef⟩]
  | .internal schemaRef desc => [⟨500, desc, some schemaRef⟩]
  | .withAuth => [⟨401, "Unauthorized".toList, OpenApiResponses.errorSchema⟩,
      ⟨403, "Forbidden".toList, OpenApiResponses.errorSchema⟩]
  | .withBody => [⟨400, "Bad request / validation error".toList, OpenApiResponses.errorSchema⟩,
      ⟨413, "Payload too large".toList, OpenApiResponses.errorSchema⟩,
      ⟨415, "Unsupported media type".toList, OpenApiResponses.errorSchema⟩,
      ⟨422, "Unprocessable entity".toList, OpenApiResponses.errorSchema⟩]
  | .withAlways => [⟨500, "Internal server error".toList, OpenApiResponses.errorSchema⟩]
  | .custom status desc schemaRef => [⟨status, desc, some schemaRef⟩]
  | .customNoBody status desc => [⟨status, desc, none⟩]

/-- The first declaration of a status in a chain. -/
def firstNamed (chain : List ResponsesCall) (status : ℤ) : Option OpenApiResponseMeta :=
  (chain.flatMap ResponsesCall.declares).find? fun m => m.status = status

namespace OpenApiResponses

def declare (r : OpenApiResponses) (m : OpenApiResponseMeta) : OpenApiResponses :=
  if !r.hasCode m.status then ⟨r.items ++ [m]⟩ else r

theorem call_eq (r : OpenApiResponses) (c : ResponsesCall) :
    r.call c = c.declares.foldl declare r := by
  cases c with
  | created desc schemaRef => cases schemaRef <;> rfl
  | _ => rfl

theorem chain_eq (r : OpenApiResponses) (chain : List ResponsesCall) :
    chain.foldl call r = (chain.flatMap ResponsesCall.declares).foldl declare r := by
  induction chain generalizing r with
  | nil => rfl
  | cons c chain ih => rw [List.foldl_cons, ih, call_eq, List.flatMap_cons, List.foldl_append]

theorem declare_find (r : OpenApiResponses) (m : OpenApiResponseMeta) (status : ℤ) :
    (r.declare m).items.find? (fun i => i.status = status) =
      (r.items ++ [m]).find? fun i => i.status = status := by
  unfold declare
  cases hc : r.hasCode m.status with
  | false => rfl
  | true =>
    simp only [Bool.not_true, Bool.false_eq_true, if_false]
    rw [List.find?_append]
    by_cases hs : m.status = status
    · -- the status has been declared before
      have found : (r.items.find? fun i => i.status = status).isSome = true := by
        rw [List.find?_isSome]
        obtain ⟨i, hi, he⟩ := List.any_eq_true.mp hc
        exact ⟨i, hi, hs ▸ he⟩
      rw [Option.or_of_isSome found]
    · simp [hs]

theorem declare_nodup {r : OpenApiResponses} (h : (r.items.map (·.status)).Nodup)
    (m : OpenApiResponseMeta) : ((r.declare m).items.map (·.status)).Nodup := by
  unfold declare
  cases hc : r.hasCode m.status with
  | false =>
    have new : m.status ∉ r.items.map (·.status) := by
      intro hm
      obtain ⟨i, hi, he⟩ := List.mem_map.mp hm
      simp only [hasCode, List.any_eq_false, decide_eq_true_eq] at hc
      exact hc i hi he
    simpa [List.nodup_append] using ⟨h, fun i hi he => new (he ▸ List.mem_map_of_mem hi)⟩
  | true => exact h

/-- What a sequence of declarations leaves: each status once, as first declared. -/
theorem declare_all (ds : List OpenApiResponseMeta) :
    ((ds.foldl declare empty).items.map (·.status)).Nodup ∧
      ∀ status, (ds.foldl declare empty).items.find? (fun i => i.status = status) =
        ds.find? fun i => i.status = status := by
  induction ds using List.reverseRecOn with
  | nil => exact ⟨List.nodup_nil, fun _ => rfl⟩
  | append_singleton ds m ih =>
    obtain ⟨nodup, find⟩ := ih
    rw [List.foldl_append]
    refine ⟨declare_nodup nodup m, fun status => ?_⟩
    rw [List.foldl_cons, List.foldl_nil, declare_find, List.find?_append, List.find?_append,
      find status]

end OpenApiResponses

theorem declared_nodup (chain : List ResponsesCall) :
    ((declared chain).map (·.status)).Nodup := by
  rw [declared, OpenApiResponses.chain_eq]
  exact (OpenApiResponses.declare_all _).1

theorem declared_find (chain : List ResponsesCall) (status : ℤ) :
    (declared chain).find? (fun i => i.status = status) = firstNamed chain status := by
  rw [declared, OpenApiResponses.chain_eq]
  exact (OpenApiResponses.declare_all _).2 status

theorem mem_declared {chain : List ResponsesCall} {m : OpenApiResponseMeta} :
    m ∈ declared chain ↔ firstNamed chain m.status = some m := by
  rw [← declared_find]
  constructor
  · intro hm
    have hn := declared_nodup chain
    generalize declared chain = l at hm hn
    induction l with
    | nil => cases hm
    | cons i l ih =>
      rw [List.map_cons, List.nodup_cons] at hn
      rcases List.mem_cons.mp hm with rfl | hm
      · simp
      · have hne : i.status ≠ m.status := fun he => hn.1 (he ▸ List.mem_map_of_mem hm)
        rw [List.find?_cons_of_neg (by simpa using hne)]
        exact ih hm hn.2
  · exact List.mem_of_find?_eq_some

/-! ### What the document lists -/

theorem set_keys_nodup {d : Dict Json} (h : (d.map Prod.fst).Nodup) (k : Str) (v : Json) :
    ((d.set k v).map Prod.fst).Nodup := by
  rw [Dict.set, List.map_cons, List.nodup_cons]
  refine ⟨fun hm => ?_, h.sublist (List.filter_sublist.map _)⟩
  obtain ⟨e, he, hk⟩ := List.mem_map.mp hm
  simp [hk] at he

theorem responsesObject_nodup (rs : List OpenApiResponseMeta) :
    ((responsesObject rs).map Prod.fst).Nodup := by
  unfold responsesObject
  induction rs using List.reverseRecOn with
  | nil => exact List.nodup_nil
  | append_singleton rs m ih =>
    rw [List.foldl_append, List.foldl_cons, List.foldl_nil]
    cases m.schemaRef with
    | none => exact ih
    | some schemaName => exact set_keys_nodup ih _ _

/-- The responses object by key. -/
theorem find_responsesObject {rs : List OpenApiResponseMeta} (h : (rs.map (·.status)).Nodup)
    (key : Str) (body : Json) :
    Dict.find (responsesObject rs) key = some body ↔
      ∃ m ∈ rs, ∃ schemaName, m.schemaRef = some schemaName ∧ key = to_string m.status ∧
        body = responseJson m.description schemaName := by
  unfold responsesObject
  induction rs using List.reverseRecOn with
  | nil => simp
  | append_singleton rs m ih =>
    rw [List.map_append, List.map_singleton, List.nodup_append] at h
    have hih := ih h.1
    have fresh : ∀ i ∈ rs, i.status ≠ m.status := fun i hi =>
      h.2.2 _ (List.mem_map_of_mem hi) _ List.mem_cons_self
    rw [List.foldl_append, List.foldl_cons, List.foldl_nil]
    cases hm : m.schemaRef with
    | none =>
      dsimp only
      rw [hih]
      constructor
      · rintro ⟨i, hi, rest⟩
        exact ⟨i, List.mem_append_left _ hi, rest⟩
      · rintro ⟨i, hi, schemaName, hs, rest⟩
        rcases List.mem_append.mp hi with hi | hi
        · exact ⟨i, hi, schemaName, hs, rest⟩
        · obtain rfl := List.mem_singleton.mp hi
          simp [hm] at hs
    | some schemaName =>
      dsimp only
      by_cases hk : key = to_string m.status
      · rw [hk, Dict.find_set_self]
        constructor
        · intro hb
          exact ⟨m, List.mem_append_right _ List.mem_cons_self, schemaName, hm, rfl,
            (Option.some.inj hb).symm⟩
        · rintro ⟨i, hi, name, hs, hkey, rfl⟩
          rcases List.mem_append.mp hi with hi | hi
          · exact absurd (to_string_injective hkey).symm (fresh i hi)
          · obtain rfl := List.mem_singleton.mp hi
            obtain rfl := Option.some.inj (hm.symm.trans hs)
            rfl
      · rw [Dict.find_set_ne _ _ hk, hih]
        constructor
        · rintro ⟨i, hi, rest⟩
          exact ⟨i, List.mem_append_left _ hi, rest⟩
        · rintro ⟨i, hi, name, hs, hkey, hb⟩
          rcases List.mem_append.mp hi with hi | hi
          · exact ⟨i, hi, name, hs, hkey, hb⟩
          · obtain rfl := List.mem_singleton.mp hi
            exact absurd hkey hk

def Paths.at (paths : Paths) (k : Str × Str) : Option Json :=
  (paths.find k.1).bind fun methods => Dict.find methods k.2

theorem Paths.at_assign_self (paths : Paths) (k : Str × Str) (op : Json) :
    (paths.assign k.1 k.2 op).at k = some op := by
  simp [Paths.at, Paths.assign]

theorem Paths.at_assign_ne (paths : Paths) {k l : Str × Str} (op : Json) (h : l ≠ k) :
    (paths.assign k.1 k.2 op).at l = paths.at l := by
  unfold Paths.at Paths.assign
  by_cases h₁ : l.1 = k.1
  · have h₂ : l.2 ≠ k.2 := fun h₂ => h (Prod.ext h₁ h₂)
    rw [h₁, Dict.find_set_self, Option.bind_some, Dict.find_set_ne _ _ h₂]
    cases paths.find k.1 <;> rfl
  · rw [Dict.find_set_ne _ _ h₁]

/-- Operations under different keys do not overwrite one another. -/
theorem at_foldl_assign {ops : List ((Str × Str) × Json)} (h : (ops.map Prod.fst).Nodup)
    (paths : Paths) {k : Str × Str} {op : Json} (hm : (k, op) ∈ ops) :
    (ops.foldl (fun paths o => paths.assign o.1.1 o.1.2 o.2) paths).at k = some op := by
  induction ops using List.reverseRecOn with
  | nil => cases hm
  | append_singleton ops o ih =>
    rw [List.map_append, List.map_singleton, List.nodup_append] at h
    rw [List.foldl_append, List.foldl_cons, List.foldl_nil]
    rcases List.mem_append.mp hm with hm | hm
    · have hne : k ≠ o.1 := h.2.2 _ (List.mem_map_of_mem hm) _ List.mem_cons_self
      rw [Paths.at_assign_ne _ _ hne]
      exact ih h.1 hm
    · obtain rfl := List.mem_singleton.mp hm
      exact Paths.at_assign_self _ k op

theorem keys_of_route (route : DocumentedRoute) :
    ((route.methods.filterMap fun method => (route.openapiMeta method).map fun m =>
      ((route.original, methodText method), Json.obj (operation m))).map Prod.fst).Sublist
      (route.methods.map fun method => (route.original, methodText method)) := by
  induction route.methods with
  | nil => exact .slnil
  | cons method methods ih =>
    cases hm : route.openapiMeta method with
    | none =>
      rw [List.filterMap_cons_none (by rw [hm]; rfl)]
      exact ih.cons _
    | some m =>
      rw [List.filterMap_cons_some (by rw [hm]; rfl)]
      exact ih.cons_cons _

theorem operations_nodup (table : RouteTable) :
    ((operations table.entries).map Prod.fst).Nodup := by
  unfold operations
  rw [List.map_flatMap, List.nodup_flatMap]
  constructor
  · intro route hr
    refine (List.Nodup.of_map Prod.snd ?_).sublist (keys_of_route route)
    rw [List.map_map]
    exact table.methods_nodup route hr
  · refine (List.pairwise_map.mp table.templates_nodup).imp fun {a b} hne => ?_
    intro k ha hb
    obtain ⟨_, _, rfl⟩ := List.mem_map.mp ((keys_of_route a).subset ha)
    obtain ⟨_, _, hk⟩ := List.mem_map.mp ((keys_of_route b).subset hb)
    exact hne (Prod.mk.inj hk).1.symm

theorem find_map_obj (paths : Paths) (k : Str) :
    Dict.find (paths.map fun p => (p.1, Json.obj p.2)) k = (paths.find k).map .obj := by
  induction paths with
  | nil => rfl
  | cons p paths ih =>
    unfold Dict.find at ih ⊢
    by_cases hk : p.1 = k <;> simp_all

/-- The document has at the path of an operation what was written there. -/
theorem build_at {table : RouteTable} {route : DocumentedRoute} (hr : route ∈ table.entries)
    {method : Verb} (hm : method ∈ route.methods) {m : OpenApiMeta}
    (hmeta : route.openapiMeta method = some m) (schemas : Dict Json) (title version : Str) :
    Json.at? (OpenApiBuilder.build table schemas title version)
        ["paths".toList, route.original, methodText method] = some (.obj (operation m)) := by
  have mem : ((route.original, methodText method), Json.obj (operation m)) ∈
      operations table.entries := by
    refine List.mem_flatMap.mpr ⟨route, hr, List.mem_filterMap.mpr ⟨method, hm, ?_⟩⟩
    rw [hmeta]
    rfl
  have found := at_foldl_assign (operations_nodup table) [] mem
  rw [← pathsOf] at found
  obtain ⟨methods, hmethods, hop⟩ := Option.bind_eq_some_iff.mp found
  have hne : pathsOf table.entries ≠ [] := by
    intro he
    rw [he] at hmethods
    cases hmethods
  simp only [OpenApiBuilder.build, if_neg hne]
  rw [Json.at?]
  have hpaths : ∀ rest : Dict Json, Dict.find
      ([("openapi".toList, .str "3.0.3".toList), ("info".toList, .obj
          [("title".toList, .str title), ("version".toList, .str version)])] ++
        [("paths".toList, .obj ((pathsOf table.entries).map fun p => (p.1, .obj p.2)))] ++ rest)
      "paths".toList = some (.obj ((pathsOf table.entries).map fun p => (p.1, .obj p.2))) :=
    fun _ => rfl
  rw [hpaths, Option.bind_some, Json.at?, find_map_obj, hmethods, Option.map_some,
    Option.bind_some, Json.at?, hop, Option.bind_some, Json.at?]

theorem operation_responses (m : OpenApiMeta) :
    Dict.find (operation m) "responses".toList = some (.obj (responsesObject m.responses)) := by
  unfold operation
  split <;> split <;> split <;> rfl

theorem at?_append (j : Json) (ks ls : List Str) :
    Json.at? j (ks ++ ls) = (Json.at? j ks).bind fun i => Json.at? i ls := by
  induction ks generalizing j with
  | nil => simp [Json.at?]
  | cons k ks ih =>
    cases j with
    | obj members =>
      rw [List.cons_append, Json.at?, Json.at?, Option.bind_assoc]
      congr 1
      funext i
      exact ih i
    | _ => rfl

/-- The property: one entry for each status that the chain names and no other, described as
the first call described it. -/
structure ListsDeclared (chain : List ResponsesCall) (responses : Dict Json) : Prop where
  keys_nodup : (responses.map Prod.fst).Nodup
  listed : ∀ status m, firstNamed chain status = some m →
    ∃ body, Dict.find responses (to_string status) = some body ∧
      Json.at? body ["description".toList] = some (.str m.description)
  only : ∀ key body, Dict.find responses key = some body →
    ∃ status, (firstNamed chain status).isSome ∧ key = to_string status

theorem listsDeclared_iff (chain : List ResponsesCall) :
    ListsDeclared chain (responsesObject (declared chain)) ↔
      ∀ status m, firstNamed chain status = some m → m.schemaRef ≠ none := by
  have find := find_responsesObject (declared_nodup chain)
  have status_eq : ∀ {status m}, firstNamed chain status = some m → m.status = status :=
    fun h => by simpa using List.find?_some h
  constructor
  · intro h status m hm hnone
    obtain ⟨body, hb, _⟩ := h.listed status m hm
    obtain ⟨i, hi, name, hs, hkey, _⟩ := (find _ _).mp hb
    have hsame : status = i.status := to_string_injective hkey
    rw [mem_declared, ← hsame, hm] at hi
    cases hi
    simp [hnone] at hs
  · intro h
    refine ⟨responsesObject_nodup _, fun status m hm => ?_, fun key body hb => ?_⟩
    · obtain ⟨name, hs⟩ := Option.ne_none_iff_exists'.mp (h status m hm)
      have hst := status_eq hm
      have mem : m ∈ declared chain := mem_declared.mpr (hst ▸ hm)
      exact ⟨_, (find _ _).mpr ⟨m, mem, name, hs, by rw [hst], rfl⟩, rfl⟩
    · obtain ⟨i, hi, name, _, hkey, _⟩ := (find _ _).mp hb
      exact ⟨i.status, by rw [mem_declared.mp hi]; rfl, hkey⟩

/-- The document lists the responses of a chain as declared if and only if every status has
a schema in the call that names it first. -/
theorem lists_declared_iff {table : RouteTable} {route : DocumentedRoute}
    (hr : route ∈ table.entries) {method : Verb} (hm : method ∈ route.methods)
    {m : OpenApiMeta} (hmeta : route.openapiMeta method = some m) {chain : List ResponsesCall}
    (built : m.responses = declared chain) (schemas : Dict Json) (title version : Str) :
    (∃ responses, Json.at? (OpenApiBuilder.build table schemas title version)
        ["paths".toList, route.original, methodText method, "responses".toList] =
          some (.obj responses) ∧ ListsDeclared chain responses) ↔
      ∀ status first, firstNamed chain status = some first → first.schemaRef ≠ none := by
  have hop := build_at hr hm hmeta schemas title version
  have found : Json.at? (OpenApiBuilder.build table schemas title version)
      ["paths".toList, route.original, methodText method, "responses".toList] =
        some (.obj (responsesObject (declared chain))) := by
    rw [← built, ← operation_responses]
    rw [show ["paths".toList, route.original, methodText method, "responses".toList] =
      ["paths".toList, route.original, methodText method] ++ ["responses".toList] from rfl,
      at?_append, hop, Option.bind_some, Json.at?]
    cases Dict.find (operation m) "responses".toList <;> rfl
  rw [← listsDeclared_iff, found]
  constructor
  · rintro ⟨responses, he, h⟩
    cases he
    exact h
  · exact fun h => ⟨_, rfl, h⟩

/-- A route registered with this chain. -/
def sampleCall (method : Verb) (path : Str) (chain : List ResponsesCall)
    (known : method ∈ beastVerbs) : RouteCall where
  method := method
  path := path
  fn := fun request => (request, .error .other)
  types := []
  docs := { responses := declared chain }
  known := known

def sampleDocument (c : RouteCall) : Json :=
  OpenApiBuilder.build (tableOf [c]) [] "CPP API".toList "1.0.0".toList

def healthCall : RouteCall :=
  sampleCall .get "/health".toList [.ok "HealthResponse".toList, .withAlways] (by decide)

theorem lists_declared_iff_health :
    ∃ responses, Json.at? (sampleDocument healthCall)
        ["paths".toList, "/health".toList, "get".toList, "responses".toList] =
          some (.obj responses) ∧
      ListsDeclared [.ok "HealthResponse".toList, .withAlways] responses := by
  refine (@lists_declared_iff (tableOf [healthCall])
    (DocumentedRoute.set ⟨"/health".toList, [], fun _ => none⟩ .get healthCall.docs)
    List.mem_cons_self .get List.mem_cons_self healthCall.docs rfl
    [.ok "HealthResponse".toList, .withAlways] rfl [] "CPP API".toList "1.0.0".toList).mpr
    fun status first h => ?_
  have mem := List.mem_of_find?_eq_some h
  simp only [List.flatMap_cons, List.flatMap_nil, ResponsesCall.declares, List.mem_append,
    List.mem_cons, List.not_mem_nil, or_false] at mem
  rcases mem with rfl | rfl
  · simp
  · simp

def deleteCall : RouteCall :=
  sampleCall .delete_ "/users/{id}".toList [.noContent, .withAuth, .withAlways] (by decide)

/-- Deleting a user answers 204, and the document does not say so. -/
theorem no_content_not_listed :
    ¬ ∃ responses, Json.at? (sampleDocument deleteCall)
        ["paths".toList, "/users/{id}".toList, "delete".toList, "responses".toList] =
          some (.obj responses) ∧
      ListsDeclared [.noContent, .withAuth, .withAlways] responses := by
  have keys : (Json.at? (sampleDocument deleteCall)
      ["paths".toList, "/users/{id}".toList, "delete".toList, "responses".toList]).map
        (fun | .obj d => d.map Prod.fst | _ => []) =
      some ["500".toList, "403".toList, "401".toList] := by
    rfl
  rintro ⟨responses, hat, h⟩
  obtain ⟨body, hbody, _⟩ := h.listed 204 ⟨204, "No Content".toList, none⟩ rfl
  obtain ⟨e, he, _⟩ := Option.map_eq_some_iff.mp hbody
  have key : e.1 = to_string 204 := by simpa using List.find?_some he
  have mem : e.1 ∈ responses.map Prod.fst :=
    List.mem_map_of_mem (List.mem_of_find?_eq_some he)
  rw [hat, Option.map_some, Option.some.injEq] at keys
  rw [show responses.map Prod.fst = _ from keys, key] at mem
  exact absurd mem (by decide)

end AdequateApi.OpenApi
