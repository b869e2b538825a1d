import AdequateApi.DbConnection
import AdequateApi.MultipartForm

/-! Requests, responses and `JsonRenderer`. `Library` collects what the code takes from
nlohmann::json, Poco and Beast. -/
namespace AdequateApi.HttpMessages
open StdString MultipartForm DbConnection

/-- The exceptions the code throws or lets through, by how they are caught. -/
inductive Exn
  | db (code : DbErrorCode) (what : Str)
  | validation (what : Str)
  | std (what : Str)
  | other
  deriving DecidableEq, Repr

def Exn.what : Exn → Str
  | .db _ what | .validation what | .std what => what
  | .other => []

def Exn.ofPg : PgError → Exn
  | .db code what => .db code what
  | .infra what => .std what

/-- `nlohmann::json`. -/
inductive Json
  | null
  | bool (b : Bool)
  | int (n : ℤ)
  | float (text : Str)
  | str (s : Str)
  | arr (xs : List Json)
  | obj (members : List (Str × Json))

/-- `parse` and `dump` of nlohmann::json with the text of the exception they may throw, Poco,
and the number Beast gives to the Allow field. -/
structure Library where
  parse_json : Str → Except Str Json
  dump : Json → ℤ → Except Str Str
  poco : Poco
  allow_field : ℤ

inductive Verb
  | get
  | head
  | post
  | put
  | patch
  | delete_
  | options
  | other (name : Str)
  deriving DecidableEq, Repr

structure Request where
  method : Verb
  target : Str
  version : ℕ
  keep_alive : Bool
  headers : List (Str × Str)
  body : Str
  user_id : Option ℤ
  path_params : Dict Str
  multipart : Option Form
  deriving DecidableEq, Repr

structure Response where
  status : ℕ
  version : ℕ
  keep_alive : Bool
  headers : Dict Str
  body : Str
  deriving DecidableEq, Repr

structure JsonResult where
  body : Json
  status : ℕ
  keepAlive : Bool
  dumpIndent : ℤ

inductive Outcome
  | response (r : Response)
  | json (j : JsonResult)

def Outcome.status : Outcome → ℕ
  | .response r => r.status
  | .json j => j.status

structure EnvConfig where
  file_upload_limit_size : ℕ
  multipart_adapter : Str
  deriving DecidableEq, Repr

namespace Request

def content_type (r : Request) : Str :=
  headerGet r.headers "Content-Type".toList

/-- `request.json()` and `ensureJsonValid`. -/
def json (lib : Library) (r : Request) : Except Exn Json :=
  (lib.parse_json r.body).mapError fun e => .std ("Invalid JSON: ".toList ++ e)

def parseMultipart (lib : Library) (env : EnvConfig) (r : Request) : Except Exn Request :=
  match MultipartForm.parseMultipart lib.poco env.multipart_adapter r.content_type r.body with
  | .error e => .error (.std e)
  | .ok form => .ok { r with multipart := some form }

end Request

/-- Beast refuses a payload where the status allows none. -/
def Response.prepare_payload (r : Response) : Except Exn Response :=
  if r.status / 100 = 1 ∨ r.status = 204 ∨ r.status = 304 then
    .error (.std "invalid response body".toList)
  else
    .ok { r with headers := r.headers.set "Content-Length".toList (to_string r.body.length) }

namespace JsonRenderer

def render (lib : Library) (request : Request) (status : ℕ) (body : Json) (keepAlive : Bool)
    (additionalHeaders : Dict Str) (dumpIndent : ℤ) : Except Exn Response :=
  match lib.dump body (if 0 ≤ dumpIndent then dumpIndent else -1) with
  | .error e => .error (.std e)
  | .ok text =>
      let response : Response :=
        { status := status
          version := request.version
          keep_alive := keepAlive
          headers := (additionalHeaders.set "Server".toList "beast-coawait".toList).set
            "Content-Type".toList "application/json".toList
          body := text }
      if status = 204 then
        .ok { response with
          body := []
          headers := List.filter (fun e => e.1 ≠ "Content-Type".toList)
            (response.headers.set "Content-Length".toList (to_string 0)) }
      else response.prepare_payload

def error (lib : Library) (request : Request) (status : ℕ) (message : Str) (keepAlive : Bool)
    (additionalHeaders : Dict Str) : Except Exn Response :=
  render lib request status
    (.obj [("error".toList, .str message), ("status".toList, .int status)])
    keepAlive additionalHeaders (-1)

end JsonRenderer
end AdequateApi.HttpMessages
