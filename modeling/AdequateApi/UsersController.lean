import AdequateApi.UsersService

/-! `UserUpdateSerializer::from_json`, `UsersController::update` and `UsersController::remove`. -/
namespace AdequateApi.UsersController
open StdString MultipartForm FileSystemService HttpMessages RegexPattern UsersService

/-! ### `from_json` -/

/-- The member of an object; other values contain no key. -/
def member (j : Json) (key : Str) : Option Json :=
  match j with
  | .obj members => (members.find? fun m => m.1 = key).map Prod.snd
  | _ => none

def type_name : Json → Str
  | .null => "null".toList
  | .bool _ => "boolean".toList
  | .int _ | .float _ => "number".toList
  | .str _ => "string".toList
  | .arr _ => "array".toList
  | .obj _ => "object".toList

/-- `get<std::string>()`. -/
def getString : Json → Except Exn Str
  | .str s => .ok s
  | j => .error (.std ("[json.exception.type_error.302] type must be string, but is ".toList ++
      type_name j))

/-- A text that may be absent but not empty. The call of `get` for the log comes first, so a
value of another type throws from there. -/
def presentText (j : Json) (key message : Str) : Except Exn (Option Str) :=
  match member j key with
  | none => .ok none
  | some v =>
      match getString v with
      | .error e => .error e
      | .ok s => if s = [] then .error (.validation message) else .ok (some s)

def validEmail (email : Str) : Bool :=
  ((parse "^[^@\\s]+@[^@\\s]+\\.[^@\\s]+$".toList).bind fun r => r.fullMatch email).isSome

def from_json (lib : Library) (j : Json) : Except Exn UserUpdateSerializer := do
  -- the dump is an argument of the log call
  let _ ← (lib.dump j (-1)).mapError Exn.std
  let username ← presentText j "username".toList "Username cannot be empty".toList
  let email ← presentText j "email".toList "Email cannot be empty".toList
  if email.any fun e => !validEmail e then
    .error (.validation "Email is invalid".toList)
  else
    match member j "password".toList with
    | none => .ok ⟨0, username, picture, email, none⟩
    | some (.str password) =>
        if password.length < 6 then
          .error (.validation "Password must be at least 6 characters".toList)
        else .ok ⟨0, username, picture, email, some password⟩
    | some _ => .error (.validation "Password must be at least 6 characters".toList)
where
  picture : Option Str :=
    match member j "picture".toList with
    | some (.str pic) => if pic = [] then none else some pic
    | _ => none

/-! ### The handlers -/

section handlers
variable (srv : Services)

/-- `std::stoi(request.path_params.at("id"))`. -/
def pathId (request : Request) : Except Exn ℤ :=
  match request.path_params.find "id".toList with
  | none => .error (.std "unordered_map::at".toList)
  | some id_str => (stoi id_str).mapError Exn.std

/-- The members that `update` takes from a form; nlohmann::json keeps them sorted. -/
def formMembers (form : Form) : List (Str × Json) :=
  let field := fun key => (form.fields.find key).map fun value => (key, Json.str value)
  [field "email".toList, field "password".toList,
    (form.files.find "picture".toList).map fun p => ("picture".toList, .str p.filename),
    field "username".toList].reduceOption

/-- Without any member the value stays null. -/
def formBody (form : Form) : Json :=
  match formMembers form with
  | [] => .null
  | m :: ms => .obj (m :: ms)

def formPicture (form : Form) : IncomingFile :=
  match form.files.find "picture".toList with
  | none => ⟨[], [], []⟩
  | some p => ⟨p.data, p.filename, p.contentType⟩

def readBody (request : Request) : Except Exn (Json × IncomingFile) :=
  if contains request.content_type "multipart/form-data".toList then
    match request.multipart with
    | none => .error (.std "multipart was not parsed".toList)
    | some form => .ok (formBody form, formPicture form)
  else (request.json srv.lib).map fun body => (body, ⟨[], [], []⟩)

def errorResult (request : Request) (status : ℕ) (what : Str) : Outcome :=
  .json ⟨.obj [("error".toList, .str (c_str what))], status, request.keep_alive, -1⟩

def noContent (request : Request) : Outcome := .json ⟨.null, 204, request.keep_alive, -1⟩

def update (s : State) (request : Request) (a : UpdateAnswers) : State × Except Exn Outcome :=
  match pathId request, readBody srv request with
  | .error e, _ | .ok _, .error e => (s, .error e)
  | .ok id, .ok (body, picture) =>
      match from_json srv.lib body with
      | .error (.validation what) => (s, .ok (errorResult request 422 what))
      | .error e => (s, .error e)
      | .ok data =>
          match UsersService.update srv s { data with id := id } picture a with
          | (s, .error (.validation what)) => (s, .ok (errorResult request 409 what))
          | (s, .error e) => (s, .error e)
          | (s, .ok ()) => (s, .ok (noContent request))

def remove (s : State) (request : Request) (a : RemoveAnswers) : State × Except Exn Outcome :=
  match pathId request with
  | .error e => (s, .error e)
  | .ok id =>
      match UsersService.remove srv s (BitVec.ofInt 64 id) a with
      | (s, .error (.validation what)) => (s, .ok (errorResult request 409 what))
      | (s, .error e) => (s, .error e)
      | (s, .ok ()) => (s, .ok (noContent request))

end handlers
end AdequateApi.UsersController
