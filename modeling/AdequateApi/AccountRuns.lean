import AdequateApi.AccountServices

/-! What the services and controllers of accounts do on accepted input: the records, the store
and the answer of each, by what the hasher and the database answered. -/
namespace AdequateApi.AccountServices
open StdString DbConnection HttpMessages UsersRepository UsersListing AdequateApi.UsersController
  AccountSerializers AccountStore LoggedAction Action

/-! ### The serializers -/

section serializers
variable {σ : Type}

theorem showText_ok {j : Json} {key : String} {s : Str} (h : HasText j key.toList s)
    (message : String) (t : σ) : showText message key j t = ⟨[debugText message s], t, .ok ()⟩ := by
  unfold showText
  rw [h.1]
  simp only [getString, run_record]

def readRegisterLog (data : RegisterSerializer) : List LogRecord :=
  [info "RegisterSerializer::from_json: called",
    debugText "RegisterSerializer::from_json: checking username: " data.username,
    debugText "RegisterSerializer::from_json: checking email: " data.email,
    debug "RegisterSerializer::from_json: checking password"]

theorem readRegister_ok {j : Json} {data : RegisterSerializer}
    (h : RegisterSerializer.from_json j = .ok data) (t : σ) :
    readRegister j t = ⟨readRegisterLog data, t, .ok data⟩ := by
  obtain ⟨hu, he, hp⟩ := register_ok.mp h
  unfold readRegister
  rw [record_bind, bind_ok (showText_ok hu _ t), requiredText_ok.mpr hu, lift_ok_bind,
    bind_ok (showText_ok he _ t), requiredText_ok.mpr he, lift_ok_bind, record_bind,
    requiredPassword_ok.mpr hp, lift_ok_bind]
  rfl

def readLoginLog (email : Str) : List LogRecord :=
  [info "LoginSerializer::from_json: called",
    debugText "LoginSerializer::from_json: checking email: " email,
    debug "LoginSerializer::from_json: checking password"]

theorem readLogin_ok {j : Json} {data : LoginSerializer}
    (h : LoginSerializer.from_json j = .ok data) (t : σ) :
    readLogin j t = ⟨readLoginLog data.email, t, .ok data⟩ := by
  obtain ⟨he, hv, hp⟩ := login_ok.mp h
  unfold readLogin
  rw [record_bind, bind_ok (showText_ok he _ t), requiredText_ok.mpr he, lift_ok_bind, hv,
    if_neg (by decide), record_bind, requiredPassword_ok.mpr hp, lift_ok_bind]
  rfl

def readCreateLog (data : UserCreateSerializer) : List LogRecord :=
  [info "UserCreateSerializer::from_json: called",
    debugText "UserCreateSerializer::from_json: checking username: " data.username,
    debugText "UserCreateSerializer::from_json: checking email: " data.email,
    debug "UserCreateSerializer::from_json: checking password"]

theorem readCreate_ok {j : Json} {data : UserCreateSerializer}
    (h : UserCreateSerializer.from_json j = .ok data) (t : σ) :
    readCreate j t = ⟨readCreateLog data, t, .ok data⟩ := by
  obtain ⟨hu, he, hv, hp⟩ := create_ok.mp h
  unfold readCreate
  rw [record_bind, bind_ok (showText_ok hu _ t), requiredText_ok.mpr hu, lift_ok_bind,
    bind_ok (showText_ok he _ t), requiredText_ok.mpr he, lift_ok_bind, hv, if_neg (by decide),
    record_bind, requiredPassword_ok.mpr hp, lift_ok_bind]
  rfl

end serializers

/-! ### Handlers of exceptions -/

section handlers
variable {σ α : Type} {x : Act σ α} {s t : σ} {log : List LogRecord}

theorem catchDbError_ok {a : α} (h : x s = ⟨log, t, .ok a⟩) (message : String)
    (translate : DbErrorCode → Option Str) :
    catchDbError x message translate s = ⟨log, t, .ok a⟩ := rescue_ok h _

/-- The record of a `DbError`. -/
def dbErrorRecord (message : String) (code : DbErrorCode) (what : Str) : LogRecord :=
  warnText message (codeText code ++ ", msg=".toList ++ c_str what)

theorem catchDbError_db {code : DbErrorCode} {what : Str}
    (h : x s = ⟨log, t, .error (.db code what)⟩) (message : String)
    (translate : DbErrorCode → Option Str) :
    catchDbError x message translate s =
      ⟨log ++ [dbErrorRecord message code what], t, .error (match translate code with
        | some text => .validation text
        | none => .db code what)⟩ := by
  unfold catchDbError
  rw [rescue_taken h rfl, record_bind]
  rfl

/-- What `catchDbError` makes of a failure. -/
def translated (translate : DbErrorCode → Option Str) : Exn → Exn
  | .db code what =>
      match translate code with
      | some text => .validation text
      | none => .db code what
  | e => e

theorem catchDbError_erased (x : Act σ α) (message : String) (translate : DbErrorCode → Option Str)
    (s : σ) :
    (catchDbError x message translate s).state = (x s).state ∧
      (catchDbError x message translate s).result =
        (x s).result.mapError (translated translate) := by
  generalize hx : x s = ran
  obtain ⟨log, t, result⟩ := ran
  cases result with
  | ok a =>
    rw [catchDbError_ok hx]
    exact ⟨rfl, rfl⟩
  | error e =>
    cases e with
    | db code what =>
      rw [catchDbError_db hx]
      exact ⟨rfl, rfl⟩
    | validation what =>
      rw [catchDbError, rescue_passed hx rfl]
      exact ⟨rfl, rfl⟩
    | std what =>
      rw [catchDbError, rescue_passed hx rfl]
      exact ⟨rfl, rfl⟩
    | other =>
      rw [catchDbError, rescue_passed hx rfl]
      exact ⟨rfl, rfl⟩

theorem tryValidatedAs_ok {a : α} (shown : Str → Str) (h : x s = ⟨log, t, .ok a⟩)
    (warning : String) : tryValidatedAs shown x warning s = ⟨log, t, .ok (.ok a)⟩ := by
  apply rescue_ok
  rw [bind_ok h]
  simp

theorem tryValidatedAs_validation {what : Str} (shown : Str → Str)
    (h : x s = ⟨log, t, .error (.validation what)⟩) (warning : String) :
    tryValidatedAs shown x warning s =
      ⟨log ++ [warnText warning (shown (c_str what))], t, .ok (.error (shown (c_str what)))⟩ := by
  unfold tryValidatedAs
  rw [rescue_taken (bind_error h _) rfl, record_bind]
  rfl

theorem tryValidatedAs_error {e : Exn} (shown : Str → Str) (h : x s = ⟨log, t, .error e⟩)
    (he : ∀ what, e ≠ .validation what) (warning : String) :
    tryValidatedAs shown x warning s = ⟨log, t, .error e⟩ := by
  refine rescue_passed (bind_error h _) ?_
  cases e with
  | validation what => exact absurd rfl (he what)
  | db => rfl
  | std => rfl
  | other => rfl

theorem tryValidated_ok {a : α} (h : x s = ⟨log, t, .ok a⟩) (warning : String) :
    tryValidated x warning s = ⟨log, t, .ok (.ok a)⟩ := tryValidatedAs_ok id h warning

theorem tryValidated_validation {what : Str} (h : x s = ⟨log, t, .error (.validation what)⟩)
    (warning : String) :
    tryValidated x warning s =
      ⟨log ++ [warnText warning (c_str what)], t, .ok (.error (c_str what))⟩ :=
  tryValidatedAs_validation id h warning

theorem tryValidated_error {e : Exn} (h : x s = ⟨log, t, .error e⟩)
    (he : ∀ what, e ≠ .validation what) (warning : String) :
    tryValidated x warning s = ⟨log, t, .error e⟩ := tryValidatedAs_error id h he warning

end handlers

/-! ### Creating an account -/

section create
variable (app : Application)

theorem newEntity_hash (username email password hash : Str) :
    { newEntity username email password with password := some hash } =
      newEntity username email hash := rfl

/-- The hash of the password, and the row with it. -/
def addAccount (s : Accounts app.db) (username email password : Str) (m : Moment) :
    Accounts app.db × Except Exn ℤ :=
  match app.hasher.hash m.salt password with
  | .error what => (s, .error (.std what))
  | .ok hash =>
      match s.insert (newUser (newEntity username email hash)) m.now with
      | (t, .ok id) => (t, .ok id.toInt)
      | (t, .error e) => (t, .error (Exn.ofPg e))

variable {app}

/-- Failures of an `INSERT` are errors that the server reports. -/
theorem insert_error {db : AccountServer} {s t : Accounts db} {n : NewUser} {now : ℤ} {e : PgError}
    (h : s.insert n now = (t, .error e)) : ∃ code, e = .db code db.complaint := by
  unfold Accounts.insert at h
  dsimp only at h
  split at h
  · split at h
    · cases h
      exact ⟨_, rfl⟩
    · split at h
      · cases h
        exact ⟨_, rfl⟩
      · cases h
  · cases h
    exact ⟨_, rfl⟩

/-- The three ways in which creating an account ends. -/
theorem addAccount_cases (s : Accounts app.db) (username email password : Str) (m : Moment) :
    (∃ what, app.hasher.hash m.salt password = .error what ∧
      addAccount app s username email password m = (s, .error (.std what))) ∨
    (∃ hash t code, app.hasher.hash m.salt password = .ok hash ∧
      s.insert (newUser (newEntity username email hash)) m.now =
        (t, .error (.db code app.db.complaint)) ∧
      addAccount app s username email password m = (t, .error (.db code app.db.complaint))) ∨
    ∃ hash t id, app.hasher.hash m.salt password = .ok hash ∧
      s.insert (newUser (newEntity username email hash)) m.now =
        (t, .ok id) ∧
      addAccount app s username email password m = (t, .ok id.toInt) := by
  unfold addAccount
  cases hh : app.hasher.hash m.salt password with
  | error what => exact .inl ⟨what, rfl, rfl⟩
  | ok hash =>
    right
    dsimp only
    cases hi : s.insert (newUser (newEntity username email hash)) m.now with
    | mk t result =>
      cases result with
      | ok id => exact .inr ⟨hash, t, id, rfl, hi, rfl⟩
      | error e =>
        obtain ⟨code, rfl⟩ := insert_error hi
        exact .inl ⟨hash, t, code, rfl, hi, rfl⟩

/-- The records of a service from the hash on, by how creating the account ended. -/
def addRecords (message : String) (creating : LogRecord) (username email : Str)
    (created : List LogRecord) : Except Exn ℤ → List LogRecord
  | .ok _ => creating :: createRecord (newEntity username email []) :: created
  | .error (.db code what) =>
      [creating, createRecord (newEntity username email []), dbErrorRecord message code what]
  | .error _ => []

def registerUserLog (data : RegisterSerializer) (r : Except Exn ℤ) : List LogRecord :=
  info "AuthenticationService::registerUser: called"
      (texts [("email", data.email), ("username", data.username)]) ::
    info "RegisterSerializer::toEntity (copy)" ::
    addRecords "AuthenticationService::registerUser: Error of creating user "
      (debug "AuthenticationService::registerUser: Creating user by repo")
      data.username data.email [] r

/-- What a registration makes of a failure. -/
def registerFailure : Exn → Exn
  | .db .NotNullViolation _ => .validation "Missing required fields".toList
  | e => e

theorem registerUser_run (s : Accounts app.db) (data : RegisterSerializer) (m : Moment) :
    AuthenticationService.registerUser app data m s =
      ⟨registerUserLog data (addAccount app s data.username data.email data.password m).2,
        (addAccount app s data.username data.email data.password m).1,
        ((addAccount app s data.username data.email data.password m).2.map fun _ => ()).mapError
          registerFailure⟩ := by
  unfold AuthenticationService.registerUser RegisterSerializer.toEntity
  rw [record_bind, bind_ok (by rw [record_bind, run_pure, Ran.after_mk])]
  simp only [newEntity_hash]
  rcases addAccount_cases s data.username data.email data.password m with
    ⟨what, hh, h⟩ | ⟨hash, t, code, hh, hi, h⟩ | ⟨hash, t, id, hh, hi, h⟩
  · rw [h, hashOf, hh]
    rfl
  · have hcreate := bind_error (create_error hi) fun _ => (pure () : Act (Accounts app.db) Unit)
    rw [h, hashOf, hh, Except.mapError, lift_ok_bind, record_bind, catchDbError_db hcreate]
    cases code <;> rfl
  · have hcreate := bind_ok (create_ok hi) fun _ => (pure () : Act (Accounts app.db) Unit)
    rw [run_pure, Ran.after_mk] at hcreate
    rw [h, hashOf, hh, Except.mapError, lift_ok_bind, record_bind, catchDbError_ok hcreate]
    rfl

def createLog (data : UserCreateSerializer) (r : Except Exn ℤ) : List LogRecord :=
  info "UsersService::create: called"
      (texts [("email", data.email), ("password", data.password), ("username", data.username)]) ::
    info "UserCreateSerializer::toEntity (copy)" ::
    addRecords "UsersService::create: Error of creating user "
      (debug "UsersService::create: Creating user by repo") data.username data.email
      [info "UserCreateResponseSerializer::fromEntity: started"] r

/-- What the creation of a user makes of a failure. -/
def createFailure : Exn → Exn
  | .db .UniqueViolation _ => .validation "User already exists".toList
  | .db .NotNullViolation _ => .validation "Missing required fields".toList
  | e => e

/-- The entity that comes back, apart from the hash. -/
def createdBodyOf (data : UserCreateSerializer) (id : ℤ) : Json :=
  .obj [("email".toList, .str data.email), ("id".toList, .int id),
    ("username".toList, .str data.username)]

theorem create_run (s : Accounts app.db) (data : UserCreateSerializer) (m : Moment) :
    (UsersService.create app data m s).log =
        createLog data (addAccount app s data.username data.email data.password m).2 ∧
      (UsersService.create app data m s).state =
        (addAccount app s data.username data.email data.password m).1 ∧
      (UsersService.create app data m s).result.map createdBody =
        ((addAccount app s data.username data.email data.password m).2.map
          (createdBodyOf data)).mapError createFailure := by
  unfold UsersService.create UserCreateSerializer.toEntity
  rw [record_bind, bind_ok (by rw [record_bind, run_pure, Ran.after_mk])]
  simp only [newEntity_hash]
  rcases addAccount_cases s data.username data.email data.password m with
    ⟨what, hh, h⟩ | ⟨hash, t, code, hh, hi, h⟩ | ⟨hash, t, id, hh, hi, h⟩
  · rw [h, hashOf, hh]
    exact ⟨rfl, rfl, rfl⟩
  · have hcreate := bind_error (create_error hi) fun user => (do
      record (info "UserCreateResponseSerializer::fromEntity: started")
      return user : Act (Accounts app.db) UserEntity)
    rw [h, hashOf, hh, Except.mapError, lift_ok_bind, record_bind, catchDbError_db hcreate]
    cases code <;> exact ⟨rfl, rfl, rfl⟩
  · have hcreate := bind_ok (create_ok hi) fun user => (do
      record (info "UserCreateResponseSerializer::fromEntity: started")
      return user : Act (Accounts app.db) UserEntity)
    rw [record_bind, run_pure, Ran.after_mk, Ran.after_mk] at hcreate
    rw [h, hashOf, hh, Except.mapError, lift_ok_bind, record_bind, catchDbError_ok hcreate]
    exact ⟨rfl, rfl, rfl⟩

end create

/-! ### The controllers -/

section controllers
variable {app : Application} {request : Request} {j : Json}

/-- The records of a handler until its serializer has accepted the body. -/
def acceptedLog (called validating checked : LogRecord) (read : List LogRecord) : List LogRecord :=
  called :: validating :: (read ++ [checked])

def registrationAccepted (request : Request) (data : RegisterSerializer) : List LogRecord :=
  acceptedLog
    (debug "AuthenticationController::registration: called" (methodAndTarget request))
    (debug "AuthenticationController::registration: Validating data by serializer")
    (debugText ("AuthenticationController::registration: Checking up if any error occurred. " ++
      "Error msg: ") [])
    (readRegisterLog data)

/-- The record of a refusal that reaches the controller as a `ValidationError`. -/
def refusalLog (warning : String) (failure : Exn → Exn) : Except Exn ℤ → List LogRecord
  | .ok _ => []
  | .error e =>
      match failure e with
      | .validation what => [warnText warning (c_str what)]
      | _ => []

/-- The answer of a controller that turns a `ValidationError` into `status`. -/
def controllerResult (request : Request) (status : ℕ) (failure : Exn → Exn) (body : ℤ → Json) :
    Except Exn ℤ → Except Exn Outcome
  | .ok id => .ok (created request (body id))
  | .error e =>
      match failure e with
      | .validation what => .ok (errorResult request status (c_str what))
      | e => .error e

theorem controllerResult_failed {request : Request} {status : ℕ} {failure : Exn → Exn}
    {body : ℤ → Json} {e : Exn} (hsame : failure e = e) (he : ∀ what, e ≠ .validation what) :
    controllerResult request status failure body (.error e) = .error e := by
  simp only [controllerResult, hsame]

/-- What a controller makes of its service, whatever the service gives back. -/
theorem service_run {σ α : Type} {x : Act σ α} {s : σ} {warning : String} {status : ℕ}
    {failure : Exn → Exn} {shown : α → Json} {body : ℤ → Json} {r : Except Exn ℤ}
    {answer : Except Str α → Act σ Outcome}
    (hx : (x s).result.map shown = (r.map body).mapError failure)
    (hok : ∀ a t, answer (.ok a) t = ⟨[], t, .ok (created request (shown a))⟩)
    (herror : ∀ text t, answer (.error text) t = ⟨[], t, .ok (errorResult request status text)⟩) :
    (tryValidated x warning >>= answer) s =
      ⟨(x s).log ++ refusalLog warning failure r, (x s).state,
        controllerResult request status failure body r⟩ := by
  generalize hran : x s = ran at hx ⊢
  obtain ⟨log, t, result⟩ := ran
  cases result with
  | ok a =>
    rw [bind_ok (tryValidated_ok hran warning), hok, Ran.after_mk]
    cases r with
    | ok id =>
      have hbody : shown a = body id := Except.ok.inj hx
      simp only [refusalLog, controllerResult, hbody]
    | error e => cases hx
  | error e =>
    cases r with
    | ok id => cases hx
    | error e' =>
      obtain rfl : e = failure e' := Except.error.inj hx
      simp only [refusalLog, controllerResult]
      split
      · rename_i what hf
        rw [hf] at hran
        rw [bind_ok (tryValidated_validation hran warning), herror, Ran.after_mk]
        simp
      · rename_i hf
        rw [bind_error (tryValidated_error hran hf warning)]
        simp

theorem registration_run (hj : request.json app.lib = .ok j) {data : RegisterSerializer}
    (hd : RegisterSerializer.from_json j = .ok data) (s : Accounts app.db) (m : Moment) :
    AuthenticationController.registration app request m s =
      ⟨registrationAccepted request data ++
          (registerUserLog data (addAccount app s data.username data.email data.password m).2 ++
            refusalLog "AuthenticationController::registration: Validation failed, error: "
              registerFailure (addAccount app s data.username data.email data.password m).2),
        (addAccount app s data.username data.email data.password m).1,
        controllerResult request 422 registerFailure (fun _ => .null)
          (addAccount app s data.username data.email data.password m).2⟩ := by
  have hrun := registerUser_run s data m
  have hservice :
      ((AuthenticationService.registerUser app data m s).result.map fun _ => Json.null) =
        ((addAccount app s data.username data.email data.password m).2.map
          fun _ => Json.null).mapError registerFailure := by
    rw [hrun]
    cases (addAccount app s data.username data.email data.password m).2 <;> rfl
  unfold AuthenticationController.registration
  rw [record_bind, hj, lift_ok_bind, record_bind,
    bind_ok (tryValidated_ok (readRegister_ok hd s) _), record_bind]
  dsimp only
  rw [service_run hservice (fun _ _ => rfl) (fun _ _ => rfl), hrun]
  simp [registrationAccepted, acceptedLog, errorText]

def storeAccepted (request : Request) (data : UserCreateSerializer) : List LogRecord :=
  acceptedLog (debug "UsersController::store: called" (methodAndTarget request))
    (debug "UsersController::store: Validating data by serializer.")
    (debugText "UsersController::store: Checking up if any error occurred. Error msg: " [])
    (readCreateLog data)

theorem store_run (hj : request.json app.lib = .ok j) {data : UserCreateSerializer}
    (hd : UserCreateSerializer.from_json j = .ok data) (s : Accounts app.db) (m : Moment) :
    UsersController.store app request m s =
      ⟨storeAccepted request data ++
          (createLog data (addAccount app s data.username data.email data.password m).2 ++
            refusalLog "UsersController::store: User creation failed: " createFailure
              (addAccount app s data.username data.email data.password m).2),
        (addAccount app s data.username data.email data.password m).1,
        controllerResult request 409 createFailure (createdBodyOf data)
          (addAccount app s data.username data.email data.password m).2⟩ := by
  obtain ⟨hlog, hstate, hresult⟩ := create_run s data m
  unfold UsersController.store
  rw [record_bind, hj, lift_ok_bind, record_bind, bind_ok (tryValidated_ok (readCreate_ok hd s) _),
    record_bind]
  dsimp only
  rw [service_run hresult (fun _ _ => rfl) (fun _ _ => rfl), hlog, hstate]
  simp [storeAccepted, acceptedLog, errorText]

/-! ### The token -/

def existsRecord (email : Option Str) : LogRecord :=
  info "UsersService::exists: started" (texts [("email", orNull email)])

/-- The id of a user is always a text that the database takes. -/
theorem exists_id (s : Accounts app.db) (id : Int64)
    (hbind : bindable app.db [some (idText id)] = true) :
    UsersService.exists_ app ⟨some id, none, none⟩ s =
      ⟨[existsRecord none], s, .ok (decide (∃ u ∈ s.users, u.id = id))⟩ := by
  have hselected : ∀ u : StoredUser, Selected app.db ⟨some id, none, none⟩ u ↔ u.id = id := by
    intro u
    simp [Selected]
  have hparams : (existsStatement ⟨some id, none, none⟩).params = [some (idText id)] := rfl
  unfold UsersService.exists_ AccountStore.exists_
  rw [record_bind, run_change]
  simp only [hparams, hbind, if_true, hselected]
  rfl

theorem authenticate_ok {name auth : Str} {user : UserEntity} {m : Moment} {s : Accounts app.db}
    (hheader : request.headers.find? (fun e => toLower e.1 = "authorization".toList) =
      some (name, auth))
    (hbearer : startsWith auth "Bearer ".toList = true)
    (htoken : JwtService.decode app.jwt app.secret_key (auth.drop 7) m.received = .ok user)
    (hbind : bindable app.db [some (idText (Int64.ofInt user.id))] = true)
    (hexists : ∃ u ∈ s.users, u.id = Int64.ofInt user.id) :
    authenticate app request m s = ⟨[existsRecord none], s, .ok (.ok user.id)⟩ := by
  have hdecode : decodeToken app (auth.drop 7) m s = ⟨[], s, .ok (.ok user)⟩ := by
    unfold decodeToken
    rw [htoken]
    rfl
  have hfound := exists_id s (Int64.ofInt user.id) hbind
  rw [decide_eq_true hexists] at hfound
  unfold authenticate
  rw [hheader]
  dsimp only
  rw [hbearer, if_neg (by decide), bind_ok hdecode]
  dsimp only
  rw [bind_ok (tryValidated_ok hfound _)]
  rfl

end controllers
end AdequateApi.AccountServices
