import AdequateApi.HttpMessages
import AdequateApi.RegexPattern

/-! `Router`: registration, route compilation and `dispatch`. A middleware is a program that
may call `next` any number of times; the trace records who ran in which order. -/
namespace AdequateApi.RouterModel
open StdString HttpMessages RegexPattern

/-- What `MiddlewareInterface::handle` does: end, or call `next` and go on with what comes
back. The request is passed by reference, so `next` may have changed it. -/
inductive Handling
  | done (request : Request) (result : Except Exn Outcome)
  | next (request : Request) (resume : Request → Except Exn Outcome → Handling)

/-- A middleware object; `id` tells objects apart. -/
structure Middleware where
  id : ℕ
  handle : Request → Handling
  after : Request → Response → Except Exn Response

abbrev RouteFn := Request → Request × Except Exn Outcome

/-- `std::regex` is kept as its pattern text. -/
structure RouteEntry where
  regex : Str
  paramNames : List Str
  methods : Verb → Option RouteFn
  original : Str
  allowedContentTypes : Verb → Option (List Str)

structure Router where
  table : List RouteEntry
  global_middlewares : List Middleware
  scoped_middlewares : List (Str × Middleware)

inductive Event
  | entered (id : ℕ)
  | called (id : ℕ)
  | handler (template : Str) (method : Verb)
  | after (id : ℕ)
  deriving DecidableEq, Repr

/-! ### Registration -/

def specials : Str :=
  ['\\', '.', '^', '$', '|', '(', ')', '[', ']', '{', '}', '*', '+', '?', '!']

def escape_segment (s : Str) : Str :=
  s.flatMap fun c => if c ∈ specials then ['\\', c] else [c]

/-- The non-empty pieces `getline` reads. -/
def segments (tmpl : Str) : List Str := (tmpl.splitOn '/').filter (· ≠ [])

def isParam (seg : Str) : Bool := seg.head? = some '{' && seg.getLast? = some '}'

def segmentPattern (seg : Str) : Str :=
  '/' :: if isParam seg then ['(', '[', '^', '/', ']', '+', ')'] else escape_segment seg

def compileRoute (tmpl : Str) : RouteEntry where
  regex := '^' :: ((segments tmpl).flatMap segmentPattern ++ ['$'])
  paramNames := ((segments tmpl).filter isParam).map fun seg => (seg.drop 1).take (seg.length - 2)
  methods := fun _ => none
  original := tmpl
  allowedContentTypes := fun _ => none

namespace Router

def empty : Router := ⟨[], [], []⟩

def RouteEntry.set (entry : RouteEntry) (method : Verb) (fn : RouteFn)
    (allowedContentTypes : List Str) : RouteEntry :=
  { entry with
    methods := Function.update entry.methods method (some fn)
    allowedContentTypes :=
      Function.update entry.allowedContentTypes method (some allowedContentTypes) }

/-- The first entry with this template is extended; otherwise there is a new one. -/
def addTo (method : Verb) (path : Str) (fn : RouteFn) (types : List Str) :
    List RouteEntry → List RouteEntry
  | [] => [RouteEntry.set (compileRoute path) method fn types]
  | entry :: rest =>
      if entry.original = path then RouteEntry.set entry method fn types :: rest
      else entry :: addTo method path fn types rest

def add (r : Router) (method : Verb) (path : Str) (fn : RouteFn) (types : List Str) : Router :=
  { r with table := addTo method path fn types r.table }

def use (r : Router) (m : Middleware) : Router :=
  { r with global_middlewares := r.global_middlewares ++ [m] }

def useAt (r : Router) (pathPrefix : Str) (m : Middleware) : Router :=
  { r with scoped_middlewares := r.scoped_middlewares ++ [(pathPrefix, m)] }

def collectMiddlewaresFor (r : Router) (path : Str) : List Middleware :=
  r.global_middlewares ++
    (r.scoped_middlewares.filter fun s => startsWith path s.1).map Prod.snd

end Router

/-- One call on the router while the application sets it up. -/
inductive Registration
  | add (method : Verb) (path : Str) (fn : RouteFn) (types : List Str)
  | use (m : Middleware)
  | useAt (pathPrefix : Str) (m : Middleware)

def Registration.apply (r : Router) : Registration → Router
  | .add method path fn types => r.add method path fn types
  | .use m => r.use m
  | .useAt pathPrefix m => r.useAt pathPrefix m

def Router.build (ops : List Registration) : Router := ops.foldl Registration.apply .empty

/-! ### Dispatch -/

/-- `std::regex_match(path, match, regex)`. -/
def regex_match (path regex : Str) : Option Captures := (parse regex).bind fun r => r.fullMatch path

def normalizeTarget (request : Request) : Str := request.target.takeWhile (· ≠ '?')

/-- `params[paramNames[i]] = match[i + 1]`. -/
def pathParams (paramNames : List Str) (captures : Captures) : Dict Str :=
  paramNames.zipIdx.foldl
    (fun params e => params.set e.1
      (((captures.find? fun c => c.1 = e.2 + 1).map Prod.snd).getD [])) []

/-- The first entry whose pattern matches. -/
def Router.matchRoute (r : Router) (path : Str) : Option (RouteEntry × Dict Str) :=
  r.table.findSome? fun entry =>
    (regex_match path entry.regex).map fun captures =>
      (entry, pathParams entry.paramNames captures)

/-- The end of a chain of coroutines, with the trace it left. -/
structure Run where
  trace : List Event
  request : Request
  result : Except Exn Outcome

structure Dispatched where
  trace : List Event
  result : Except Exn Response

/-- Run a middleware's program; each of its calls of `next` runs the rest of the chain. -/
def Handling.run (id : ℕ) (next : Request → Run) : Handling → Run
  | .done request result => ⟨[], request, result⟩
  | .next request resume =>
      let inner := next request
      let rest := (resume inner.request inner.result).run id next
      ⟨.called id :: (inner.trace ++ rest.trace), rest.request, rest.result⟩

def Middleware.run (m : Middleware) (next : Request → Run) (request : Request) : Run :=
  let r := (m.handle request).run m.id next
  { r with trace := .entered m.id :: r.trace }

def runLeaf (template : Str) (method : Verb) (fn : RouteFn) (request : Request) : Run :=
  ⟨[.handler template method], (fn request).1, (fn request).2⟩

def runChain (leaf : Request → Run) (middlewares : List Middleware) : Request → Run :=
  middlewares.foldr Middleware.run leaf

def runAfter (request : Request) : List Middleware → Response → Dispatched
  | [], response => ⟨[], .ok response⟩
  | m :: ms, response =>
      match m.after request response with
      | .error e => ⟨[.after m.id], .error e⟩
      | .ok result =>
          let rest := runAfter request ms result
          { rest with trace := .after m.id :: rest.trace }

def buildAllowHeader (mm : Verb → Option RouteFn) : Str :=
  let items : List (Verb × Str) :=
    [(.get, "GET".toList), (.head, "HEAD".toList), (.post, "POST".toList), (.put, "PUT".toList),
      (.patch, "PATCH".toList), (.delete_, "DELETE".toList), (.options, "OPTIONS".toList)]
  ", ".toList.intercalate ((items.filter fun i => (mm i.1).isSome).map Prod.snd)

section dispatch
variable (lib : Library) (env : EnvConfig)

def allowHeader (mm : Verb → Option RouteFn) : Dict Str :=
  Dict.set [] "Allow".toList (buildAllowHeader mm)

def makeError (request : Request) (status : ℕ) (message : Str) (headers : Dict Str) :
    Except Exn Outcome :=
  (JsonRenderer.error lib request status message false headers).map .response

def make400 (request : Request) (error : Str) : Except Exn Outcome :=
  makeError lib request 400 error []

def make404 (request : Request) : Except Exn Outcome :=
  makeError lib request 404 "Not found".toList []

def make405 (request : Request) (mm : Verb → Option RouteFn) : Except Exn Outcome :=
  makeError lib request 405 "Method Not Allowed".toList (allowHeader mm)

def make413 (request : Request) (mm : Verb → Option RouteFn) : Except Exn Outcome :=
  makeError lib request 413 "Payload is too large".toList (allowHeader mm)

def make415 (request : Request) (mm : Verb → Option RouteFn) : Except Exn Outcome :=
  makeError lib request 415 "Unsupported media type".toList (allowHeader mm)

def make500 (request : Request) (err : Str) : Except Exn Outcome :=
  makeError lib request 500 err []

/-- nlohmann::json turns the header map, whose keys are no strings, into pairs. -/
def makeOptionsAllow (request : Request) (mm : Verb → Option RouteFn) : Except Exn Outcome :=
  let body : Json := .obj [("allow".toList,
    .arr [.arr [.int lib.allow_field, .str (buildAllowHeader mm)]])]
  (JsonRenderer.render lib request 200 body true (allowHeader mm) (-1)).map .response

def render (request : Request) : Outcome → Except Exn Response
  | .response r => .ok r
  | .json j => JsonRenderer.render lib request j.status j.body j.keepAlive [] j.dumpIndent

/-- `runAfter(request, render(request, outcome), middlewares)`. -/
def finish (request : Request) (middlewares : List Middleware) (outcome : Except Exn Outcome) :
    Dispatched :=
  match outcome.bind (render lib request) with
  | .error e => ⟨[], .error e⟩
  | .ok response => runAfter request middlewares response

/-- GET in place of a missing HEAD handler; nothing here catches exceptions. -/
def autoHead (run : Run) (middlewares : List Middleware) : Dispatched :=
  match run.result.bind (render lib run.request) with
  | .error e => ⟨run.trace, .error e⟩
  | .ok response =>
      let rest := runAfter run.request middlewares
        { response with
          body := [], headers := response.headers.set "Content-Length".toList "0".toList }
      { rest with trace := run.trace ++ rest.trace }

/-- The body as the content type announces it. -/
def parseBody (request : Request) : Except Exn Request :=
  if contains request.content_type "application/json".toList then
    (request.json lib).map fun _ => request
  else if contains request.content_type "multipart/form-data".toList then
    request.parseMultipart lib env
  else .ok request

/-- The last `try` of `dispatch`: it also covers rendering and the after-hooks. -/
def runHandler (run : Run) (middlewares : List Middleware) : Dispatched :=
  let rest := finish lib run.request middlewares run.result
  let trace := run.trace ++ rest.trace
  let fail := fun (message : Str) =>
    let last := finish lib run.request middlewares (make500 lib run.request message)
    { last with trace := trace ++ last.trace }
  match rest.result with
  | .ok response => ⟨trace, .ok response⟩
  | .error .other => ⟨trace, .error .other⟩
  | .error (.db _ what) =>
      fail (if c_str what ≠ [] then c_str what else "Database error".toList)
  | .error (.validation what) | .error (.std what) =>
      fail (if c_str what ≠ [] then c_str what else "Unexpected error".toList)

/-- `dispatch` from the matched entry on. -/
def dispatchTo (entry : RouteEntry) (middlewares : List Middleware) (request : Request) :
    Dispatched :=
  let mm := entry.methods
  let leaf := runLeaf entry.original
  match request.method, mm .head, mm .get, mm request.method with
  | .head, none, some fn, _ =>
      autoHead lib (runChain (leaf .get fn) middlewares request) middlewares
  | .options, _, _, none => finish lib request middlewares (makeOptionsAllow lib request mm)
  | _, _, _, none => finish lib request middlewares (make405 lib request mm)
  | _, _, _, some fn =>
      let allowed := (entry.allowedContentTypes request.method).getD []
      let ct := request.content_type
      let hasBody := request.body ≠ []
      if allowed ≠ [] ∧ ct = [] ∧ hasBody then
        finish lib request middlewares (make415 lib request mm)
      else if allowed ≠ [] ∧ hasBody ∧ ¬ allowed.any (contains ct) then
        finish lib request middlewares (make415 lib request mm)
      else if env.file_upload_limit_size < request.body.length then
        finish lib request middlewares (make413 lib request mm)
      else
        let parsed := parseBody lib env request
        let bodyContentTypeError := match parsed with
          | .error e => c_str e.what
          | .ok _ => []
        let request := match parsed with
          | .error _ => request
          | .ok r => r
        if bodyContentTypeError ≠ [] then
          finish lib request middlewares (make400 lib request bodyContentTypeError)
        else
          runHandler lib (runChain (leaf request.method fn) middlewares request) middlewares

def dispatch (router : Router) (request : Request) : Dispatched :=
  let path := normalizeTarget request
  let middlewares := router.collectMiddlewaresFor path
  match router.matchRoute path with
  | none => finish lib request middlewares (make404 lib request)
  | some (entry, params) =>
      dispatchTo lib env entry middlewares { request with path_params := params }

end dispatch
end AdequateApi.RouterModel
