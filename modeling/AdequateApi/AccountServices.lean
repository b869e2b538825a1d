import AdequateApi.AccountSerializers
import AdequateApi.AccountStore
import AdequateApi.JwtService

/-! `AuthenticationService`, `UsersService::create` and `UsersService::exists`, with the
controllers and the middleware above them, each with the records it writes to the log. -/
namespace AdequateApi.AccountServices
open StdString DbConnection HttpMessages UsersRepository UsersService UsersController
  AccountSerializers AccountStore LoggedAction Action

/-- A password hasher. The number stands for the salt, which is drawn anew each time; `verify`
also tells whether the hash should be made again. -/
structure Hasher where
  hash : ℕ → Str → Except Str Str
  verify : Str → Str → Bool × Bool

/-- What `appctx::wire` puts together. -/
structure Application extends Services where
  multipart_adapter : Str
  db : AccountServer
  hasher : Hasher
  jwt : JwtService.JwtCpp
  secret_key : Str

def Application.env (app : Application) : EnvConfig :=
  ⟨app.file_upload_limit_size, app.multipart_adapter⟩

/-- What a request meets: the salt of a hash, the database's clock, and three readings of the
system clock. -/
structure Moment where
  salt : ℕ
  now : ℤ
  received : ℕ
  issued : ℕ
  expiry : ℕ

def verbText : Verb → Str
  | .get => "GET".toList
  | .head => "HEAD".toList
  | .post => "POST".toList
  | .put => "PUT".toList
  | .patch => "PATCH".toList
  | .delete_ => "DELETE".toList
  | .options => "OPTIONS".toList
  | .other name => name

/-- The parameters of the first record of each handler. -/
def methodAndTarget (request : Request) : List (Str × LogValue) :=
  texts [("method", verbText request.method), ("target", request.target)]

/-! ### The serializers -/

section serializers
variable {σ : Type}

/-- The record with a member's text, made before the member is checked. -/
def showText (message key : String) (j : Json) : Act σ Unit :=
  match member j key.toList with
  | none => record (debugText message "null".toList)
  | some v =>
      match getString v with
      | .error e => fail e
      | .ok s => record (debugText message s)

def readRegister (j : Json) : Act σ RegisterSerializer := do
  record (info "RegisterSerializer::from_json: called")
  showText "RegisterSerializer::from_json: checking username: " "username" j
  let username ← lift (requiredText j "username".toList "Username is required".toList)
  showText "RegisterSerializer::from_json: checking email: " "email" j
  let email ← lift (requiredText j "email".toList "Email is required".toList)
  record (debug "RegisterSerializer::from_json: checking password")
  let password ← lift (requiredPassword j)
  return ⟨username, email, password⟩

def readLogin (j : Json) : Act σ LoginSerializer := do
  record (info "LoginSerializer::from_json: called")
  showText "LoginSerializer::from_json: checking email: " "email" j
  let email ← lift (requiredText j "email".toList "Email is required".toList)
  if !validEmail email then fail (.validation "Email is invalid".toList)
  else
    record (debug "LoginSerializer::from_json: checking password")
    let password ← lift (requiredPassword j)
    return ⟨email, password⟩

def readCreate (j : Json) : Act σ UserCreateSerializer := do
  record (info "UserCreateSerializer::from_json: called")
  showText "UserCreateSerializer::from_json: checking username: " "username" j
  let username ← lift (requiredText j "username".toList "Username is required".toList)
  showText "UserCreateSerializer::from_json: checking email: " "email" j
  let email ← lift (requiredText j "email".toList "Email is required".toList)
  if !validEmail email then fail (.validation "Email is invalid".toList)
  else
    record (debug "UserCreateSerializer::from_json: checking password")
    let password ← lift (requiredPassword j)
    return ⟨username, email, password⟩

/-- An entity without a row, so its id is not set yet. -/
def newEntity (username email password : Str) : UserEntity :=
  ⟨0, some username, some email, none, some password⟩

def RegisterSerializer.toEntity (data : RegisterSerializer) : Act σ UserEntity := do
  record (info "RegisterSerializer::toEntity (copy)")
  return newEntity data.username data.email data.password

def UserCreateSerializer.toEntity (data : UserCreateSerializer) : Act σ UserEntity := do
  record (info "UserCreateSerializer::toEntity (copy)")
  return newEntity data.username data.email data.password

end serializers

/-! ### The services -/

section services
variable (app : Application)

def codeText : DbErrorCode → Str
  | .UniqueViolation => "0".toList
  | .ForeignKeyViolation => "1".toList
  | .NotNullViolation => "2".toList
  | .Unknown => "3".toList

def hashOf (password : Str) (m : Moment) : Except Exn Str :=
  (app.hasher.hash m.salt password).mapError Exn.std

/-- The `catch (const DbError&)` of a service: a record, then `translate`. -/
def catchDbError {σ α : Type} (x : Act σ α) (message : String)
    (translate : DbErrorCode → Option Str) : Act σ α :=
  rescue x fun
    | .db code what => some do
        record (warnText message (codeText code ++ ", msg=".toList ++ c_str what))
        fail (match translate code with
          | some text => .validation text
          | none => .db code what)
    | _ => none

namespace AuthenticationService

def registerUser (data : RegisterSerializer) (m : Moment) : Act (Accounts app.db) Unit := do
  record (info "AuthenticationService::registerUser: called"
    (texts [("email", data.email), ("username", data.username)]))
  let user ← RegisterSerializer.toEntity data
  let hash ← lift (hashOf app data.password m)
  record (debug "AuthenticationService::registerUser: Creating user by repo")
  catchDbError (do
      let _ ← create { user with password := some hash } m.now
      return ())
    "AuthenticationService::registerUser: Error of creating user " fun
    | .NotNullViolation => some "Missing required fields".toList
    | _ => none

/-- How the exceptions of jwt-cpp are caught further up. -/
def signing : JwtService.JwtFailure → Exn
  | .signature_verification what | .token_verification what | .claim_not_present what
  | .std what => .std what
  | .unknown => .other

def obtainTokens (data : LoginSerializer) (m : Moment) : Act (Accounts app.db) Json := do
  record (info "AuthenticationService::obtainTokens: called"
    (texts [("email", data.email), ("password", data.password)]))
  let user ← getOne ⟨none, none, some data.email⟩
  record (debug "AuthenticationService::obtainTokens: checking password")
  let stored ← lift (match user.password with
    | some hash => .ok hash
    | none => .error (.std "bad optional access".toList))
  if !(app.hasher.verify data.password stored).1 then
    fail (.validation "Incorrect credentials".toList)
  else
    let token ← lift ((JwtService.encode app.jwt app.secret_key user m.issued m.expiry).mapError
      signing)
    return .obj [("accessToken".toList, .str token), ("refreshToken".toList, .str "None".toList)]

end AuthenticationService

namespace UsersService

def create (data : UserCreateSerializer) (m : Moment) : Act (Accounts app.db) UserEntity := do
  record (info "UsersService::create: called"
    (texts [("email", data.email), ("password", data.password), ("username", data.username)]))
  let user ← UserCreateSerializer.toEntity data
  let hash ← lift (hashOf app data.password m)
  record (debug "UsersService::create: Creating user by repo")
  catchDbError (do
      let user ← AccountStore.create { user with password := some hash } m.now
      record (info "UserCreateResponseSerializer::fromEntity: started")
      return user)
    "UsersService::create: Error of creating user " fun
    | .UniqueViolation => some "User already exists".toList
    | .NotNullViolation => some "Missing required fields".toList
    | _ => none

def exists_ (filters : UserFilter) : Act (Accounts app.db) Bool := do
  record (info "UsersService::exists: started" (texts [("email", orNull filters.email)]))
  AccountStore.exists_ filters

end UsersService
end services

/-! ### The controllers -/

section controllers
variable (app : Application)

/-- `try` with a handler for `ValidationError` only, which keeps its text or another one. -/
def tryValidatedAs {σ α : Type} (shown : Str → Str) (x : Act σ α) (warning : String) :
    Act σ (Except Str α) :=
  rescue (do
    let a ← x
    return .ok a) fun
    | .validation what => some do
        record (warnText warning (shown (c_str what)))
        return .error (shown (c_str what))
    | _ => none

def tryValidated {σ α : Type} (x : Act σ α) (warning : String) : Act σ (Except Str α) :=
  tryValidatedAs id x warning

def errorText {α : Type} : Except Str α → Str
  | .ok _ => []
  | .error text => text

def created (request : Request) (body : Json) : Outcome := .json ⟨body, 201, request.keep_alive, -1⟩

/-- `UserCreateResponseSerializer::to_json`. -/
def createdBody (user : UserEntity) : Json :=
  .obj [("email".toList, .str (user.email.getD [])), ("id".toList, .int user.id),
    ("username".toList, .str (user.username.getD []))]

namespace AuthenticationController

def registration (request : Request) (m : Moment) : Act (Accounts app.db) Outcome := do
  record (debug "AuthenticationController::registration: called" (methodAndTarget request))
  let body ← lift (request.json app.lib)
  record (debug "AuthenticationController::registration: Validating data by serializer")
  let data ← tryValidated (readRegister body)
    "AuthenticationController::registration: Validation failed, error: "
  record (debugText
    ("AuthenticationController::registration: Checking up if any error occurred. " ++
      "Error msg: ") (errorText data))
  match data with
  | .error text => return errorResult request 422 text
  | .ok data =>
      let done ← tryValidated (AuthenticationService.registerUser app data m)
        "AuthenticationController::registration: Validation failed, error: "
      match done with
      | .error text => return errorResult request 422 text
      | .ok () => return created request .null

/-- A missing user and a wrong password look alike. -/
def credentialsText (what : Str) : Str :=
  if what = "user_not_found".toList then "Incorrect credentials".toList else what

def login (request : Request) (m : Moment) : Act (Accounts app.db) Outcome := do
  record (debug "AuthenticationController::login: called" (methodAndTarget request))
  let body ← lift (request.json app.lib)
  record (debug "AuthenticationController::login: Validating data by serializer")
  let data ← tryValidated (readLogin body)
    "AuthenticationController::login: Validation failed, error: "
  record (debugText ("AuthenticationController::login: Checking up if any error occurred. " ++
    "Error msg: ") (errorText data))
  match data with
  | .error text => return errorResult request 422 text
  | .ok data =>
      let userExists ← tryValidated (UsersService.exists_ app ⟨none, none, some data.email⟩)
        "AuthenticationController::login: Validation failed, error: "
      match userExists with
      | .error text => return errorResult request 502 text
      | .ok false => return errorResult request 422 "Incorrect login or password".toList
      | .ok true =>
          let tokens ← tryValidatedAs credentialsText
            (AuthenticationService.obtainTokens app data m)
            "AuthenticationController::login: Validation failed, error: "
          match tokens with
          | .error text => return errorResult request 422 text
          | .ok tokens =>
              record (debug "Converting serializer to JSON")
              return created request tokens

end AuthenticationController

namespace UsersController

def store (request : Request) (m : Moment) : Act (Accounts app.db) Outcome := do
  record (debug "UsersController::store: called" (methodAndTarget request))
  let body ← lift (request.json app.lib)
  record (debug "UsersController::store: Validating data by serializer.")
  let data ← tryValidated (readCreate body) "UsersController::store: Validation failed, error: "
  record (debugText
    "UsersController::store: Checking up if any error occurred. Error msg: " (errorText data))
  match data with
  | .error text => return errorResult request 422 text
  | .ok data =>
      let user ← tryValidated (UsersService.create app data m)
        "UsersController::store: User creation failed: "
      match user with
      | .error text => return errorResult request 409 text
      | .ok user => return created request (createdBody user)

end UsersController

/-! ### The middleware -/

def mapJwtError (e : JwtService.JwtException) : Str :=
  match e.err with
  | .TokenExpired => "Token expired".toList
  | .InvalidSignature => "Invalid signature".toList
  | .InvalidClaim => "Invalid claim".toList
  | _ => "Your token is shit".toList

/-- The refusals keep the connection open. -/
def unauthorized (text : Str) : Outcome :=
  .json ⟨.obj [("error".toList, .str text)], 401, true, -1⟩

/-- `JwtService::decode` with its record. -/
def decodeToken (token : Str) (m : Moment) : Act (Accounts app.db) (Except Str UserEntity) :=
  match JwtService.decode app.jwt app.secret_key token m.received with
  | .ok user => return .ok user
  | .error e => do
      record ⟨.ERR, "JwtService::decode: Decoding error: ".toList ++ c_str e.msg, []⟩
      record (warnText "AuthenticationMiddleware::handle: Jwt decode error" [])
      return .error (mapJwtError e)

/-- What comes before `next`: the refusal, or the id of the user. -/
def authenticate (request : Request) (m : Moment) : Act (Accounts app.db) (Except Outcome ℤ) :=
  match request.headers.find? fun e => toLower e.1 = "authorization".toList with
  | none => do
      record (warnText "AuthenticationMiddleware::handle: No header provided" [])
      return .error (unauthorized "Missing Authorization header".toList)
  | some (_, auth) =>
      if !startsWith auth "Bearer ".toList then do
        record (warnText "AuthenticationMiddleware::handle: Incorrect header provided" [])
        return .error (unauthorized "Invalid Authorization format".toList)
      else do
        let incomingUser ← decodeToken app (auth.drop 7) m
        match incomingUser with
        | .error text => return .error (unauthorized text)
        | .ok user =>
            let userExists ← tryValidated
              (UsersService.exists_ app ⟨some (Int64.ofInt user.id), none, none⟩)
              "AuthenticationMiddleware::handle: User not found"
            match userExists with
            | .error text => return .error (unauthorized text)
            | .ok false => return .error (unauthorized "Your token is shit".toList)
            | .ok true => return .ok user.id

end controllers
end AdequateApi.AccountServices
