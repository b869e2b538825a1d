import AdequateApi.AccountCreation

/-! The records that a request leaves: of `Router::dispatch`, of the parsing of a form, and of an
update with the layers under it. -/
namespace AdequateApi.RequestLog
open StdString FileTree MultipartForm DbConnection HttpMessages FileSystemService UsersRepository
  AdequateApi.UsersService AdequateApi.UsersController AccountSerializers AccountStore
  AccountServices LoggedAction Action RouterModel ApplicationRoutes AccountCreation

/-! ### The file system -/

section files
variable (os : Platform) (opts : Options)

def toLowerLog (input : Str) : List LogRecord :=
  [info "FileSystemService::toLower: called" (texts [("input", input)])]

def normalizeEntityNameLog (input : Str) : List LogRecord :=
  info "FileSystemService::normalizeEntityName: called" (texts [("input", input)]) ::
    (toLowerLog input ++
      [info "FileSystemService::isValidEntityName: called" (texts [("input", toLower input)])])

def normalizeEntityIdLog (input : Str) : List LogRecord :=
  info "FileSystemService::normalizeEntityId: called" (texts [("input", input)]) ::
    toLowerLog input

def buildRelativeDirLog (entityName entityId : Str) : List LogRecord :=
  [info "FileSystemService::buildRelativeDir: called"
    (texts [("entityName", entityName), ("entityId", entityId)])]

def ensureWithinRootLog (root fullPath : Str) : List LogRecord :=
  [info "FileSystemService::ensureWithinRoot: called"
    (texts [("root", root), ("fullPath", fullPath)])]

def pickAllowedExtensionLog (originalFileName : Str) : List LogRecord :=
  info "FileSystemService::pickAllowedExtension: called"
      (texts [("originalFileName", originalFileName)]) ::
    if extension originalFileName = [] then []
    else toLowerLog ((extension originalFileName).drop 1)

def existsLog (relativePath : Str) : List LogRecord :=
  info "FileSystemService::exists: called" (texts [("relativePath", relativePath)]) ::
    if relativePath = [] then [] else ensureWithinRootLog opts.rootPath
      (append opts.rootPath relativePath)

def removeLog (relativePath : Str) : List LogRecord :=
  info "FileSystemService::remove: called" (texts [("relativePath", relativePath)]) ::
    if relativePath = [] then [] else ensureWithinRootLog opts.rootPath
      (append opts.rootPath relativePath)

/-- The counter of written bytes is still zero. -/
def writeFileAtomicLog (finalPath bytes : Str) : List LogRecord :=
  [info "FileSystemService::writeFileAtomic: called" (texts
    [("finalPath", finalPath), ("bytes", to_string bytes.length), ("bytesWritten", to_string 0)])]

/-- The part of `store` after the checks of the names and of the file. -/
def storeCheckedLog (normEntity normId : Str) (file : IncomingFile) (a : StoreAnswers) :
    List LogRecord :=
  let fullPath := append opts.rootPath (buildRelativeDir normEntity normId)
  let finalPath := append fullPath (storedName opts a.rng file.originalFileName)
  buildRelativeDirLog normEntity normId ++
    if a.create_error.isSome then []
    else
      (if opts.preserveAllowedExtension ∧ opts.allowedExtensions ≠ [] then
        pickAllowedExtensionLog file.originalFileName else []) ++
      ensureWithinRootLog opts.rootPath finalPath ++
      match ensureWithinRoot os opts.rootPath finalPath with
      | .error _ => []
      | .ok () => writeFileAtomicLog finalPath file.bytes

def storeLog (entityName entityId : Str) (file : IncomingFile) (a : StoreAnswers) :
    List LogRecord :=
  if file.bytes = [] then []
  else
    info "FileSystemService::store: called"
        (texts [("entityName", entityName), ("entityId", entityId)]) ::
      (normalizeEntityNameLog entityName ++
        match normalizeEntityName entityName with
        | .error _ => []
        | .ok normEntity =>
            normalizeEntityIdLog entityId ++
              match normalizeEntityId opts entityId with
              | .error _ => []
              | .ok normId =>
                  info "FileSystemService::validateFile: called" ::
                    match validateFile os opts file with
                    | .error _ => []
                    | .ok () => storeCheckedLog os opts normEntity normId file a)

end files

/-! ### `UsersService::update` -/

section update
variable (srv : Services)

def clearDirectoryLog (disk : Disk) (relativePath : Str) (stat_fails : Bool) : List LogRecord :=
  existsLog srv.opts relativePath ++
    match FileSystemService.exists_ srv.os srv.opts disk relativePath stat_fails with
    | .ok true => removeLog srv.opts relativePath
    | _ => []

def replacePictureLog (disk : Disk) (user : UserEntity) (picture : IncomingFile)
    (a : UpdateAnswers) : List LogRecord :=
  if user.picture.isSome ∧ picture.bytes ≠ [] then
    buildRelativeDirLog "users".toList (to_string user.id) ++
      clearDirectoryLog srv disk (pictureDir user.id) a.stat_fails ++
      match (clearDirectory srv disk (pictureDir user.id) a.stat_fails a.removal).2 with
      | .error _ => []
      | .ok () => storeLog srv.os srv.opts "users".toList (to_string user.id) picture a.store
  else []

/-- The records of `UsersRepository::update`, which come before the statement is built. -/
def updateRowLog (user : UserEntity) : List LogRecord :=
  let count := to_string (sets user).length
  [info "UsersRepository::update: called" (texts
      [("id", to_string user.id), ("email", orNull user.email),
        ("username", orNull user.username), ("picture", orNull user.picture)]),
    debug "UsersRepository::update: emplaced fields to update"
      (texts [("params_size", count), ("fields_size", count)])]

/-- The fields of an update that both first records show. -/
def shownFields (user : UserEntity) : List (Str × LogValue) :=
  ("id".toList, .int64 user.id) :: texts
    [("email", orNull user.email), ("username", orNull user.username),
      ("picture", orNull user.picture)]

def translateCode : DbErrorCode → Option Str
  | .UniqueViolation => some "Email already exists".toList
  | .NotNullViolation => some "Missing required fields".toList
  | _ => none

/-- The body of the `try`. -/
def writeUpdate (user : UserEntity) (picture : IncomingFile) (a : UpdateAnswers) :
    Act State Unit := do
  let user ← traced (fun s => replacePictureLog srv s.disk user picture a) fun s =>
    (⟨(replacePicture srv s.disk user picture a).1, s.users⟩,
      (replacePicture srv s.disk user picture a).2.mapError fun e => .std e.what)
  traced (fun _ => updateRowLog user) fun s =>
    (⟨s.disk, (UsersRepository.update s.users user a.query).1⟩,
      (UsersRepository.update s.users user a.query).2)

def updateService (data : UserUpdateSerializer) (picture : IncomingFile) (a : UpdateAnswers) :
    Act State Unit := do
  record (info "UsersService::update: called" (shownFields data.toEntity))
  record (info "UserUpdateSerializer::toEntity (copy)")
  record (debug "UsersService::update: Updating user. Optional passed params are: "
    (shownFields data.toEntity))
  let user ← lift (hashPassword data.toEntity a.hash)
  catchDbError (writeUpdate srv user picture a)
    "UsersService::update: Error of updating user " translateCode

theorem translate_eq (e : Exn) : translated translateCode e = UsersService.translate e := by
  cases e with
  | db code what => cases code <;> rfl
  | validation what => rfl
  | std what => rfl
  | other => rfl

/-- Without its records the service is the one that is modelled without them. -/
theorem updateService_erased (s : State) (data : UserUpdateSerializer) (picture : IncomingFile)
    (a : UpdateAnswers) :
    ((updateService srv data picture a s).state, (updateService srv data picture a s).result) =
      UsersService.update srv s data picture a := by
  have htranslate : translated translateCode = UsersService.translate := funext translate_eq
  unfold updateService UsersService.update
  rw [record_bind, record_bind, record_bind]
  cases hashPassword data.toEntity a.hash with
  | error e => rfl
  | ok user =>
    rw [lift_ok_bind]
    simp only [Ran.after_state, Ran.after_result]
    obtain ⟨hstate, hresult⟩ := catchDbError_erased (writeUpdate srv user picture a)
      "UsersService::update: Error of updating user " translateCode s
    rw [hstate, hresult, htranslate]
    unfold writeUpdate
    generalize hp : replacePicture srv s.disk user picture a = r
    obtain ⟨disk, result⟩ := r
    cases result with
    | error e =>
      rw [traced_error_bind (by rw [hp]; rfl)]
      rfl
    | ok user' =>
      rw [traced_ok_bind (by rw [hp]; rfl)]
      rfl

end update

/-! ### `UsersController::update` -/

section controller
variable (srv : Services)

/-- The last check of `from_json`. -/
def presentPassword (j : Json) : Except Exn (Option Str) :=
  match member j "password".toList with
  | none => .ok none
  | some (.str password) =>
      if password.length < 6 then
        .error (.validation "Password must be at least 6 characters".toList)
      else .ok (some password)
  | some _ => .error (.validation "Password must be at least 6 characters".toList)

def readUpdate {σ : Type} (lib : Library) (j : Json) : Act σ UserUpdateSerializer := do
  let text ← lift ((lib.dump j (-1)).mapError Exn.std)
  record (debug "UserUpdateSerializer::from_json: called" (texts [("json", text)]))
  showText "UserUpdateSerializer::from_json: checking username: " "username" j
  let username ← lift (presentText j "username".toList "Username cannot be empty".toList)
  showText "UserUpdateSerializer::from_json: checking email: " "email" j
  let email ← lift (presentText j "email".toList "Email cannot be empty".toList)
  if email.any fun e => !validEmail e then fail (.validation "Email is invalid".toList)
  else
    record (debug "UserUpdateSerializer::from_json: checking password")
    let password ← lift (presentPassword j)
    record (debug "UserUpdateSerializer::from_json: checking picture")
    return ⟨0, username, from_json.picture j, email, password⟩

def update (request : Request) (a : UpdateAnswers) : Act State Outcome := do
  let id ← lift (pathId request)
  record (info "UsersController::update: called" (methodAndTarget request))
  let (body, picture) ← lift (readBody srv request)
  record (debug "UsersController::update: Validating data by serializer.")
  let data ← tryValidated (readUpdate srv.lib body)
    "UsersController::update: Validation failed, error: "
  record (debugText
    "UsersController::update: Checking up if any error occurred. Error msg: " (errorText data))
  match data with
  | .error text => return errorResult request 422 text
  | .ok data =>
      let done ← tryValidated (updateService srv { data with id := id } picture a)
        "UsersController::update: User update failed: "
      match done with
      | .error text => return errorResult request 409 text
      | .ok () => return noContent request

variable {srv}

/-- A member is shown and then checked: a value that is no text fails both times alike. -/
theorem yields_shown {σ β : Type} {message key : String} {j : Json} {refusal : Str}
    {f : Option Str → Act σ β} {g : Option Str → Except Exn β}
    (hf : ∀ text, Yields (f text) (g text)) :
    Yields (showText message key j >>= fun _ => lift (presentText j key.toList refusal) >>= f)
      (presentText j key.toList refusal >>= g) := by
  have hcheck : Yields (lift (presentText j key.toList refusal) >>= f)
      (presentText j key.toList refusal >>= g) := (yields_lift _).bind hf
  unfold showText
  cases hm : member j key.toList with
  | none => exact hcheck.after_record _
  | some v =>
    dsimp only
    cases hv : getString v with
    | ok s => exact hcheck.after_record _
    | error e =>
      have hp : presentText j key.toList refusal = .error e := by
        simp only [presentText, hm, hv]
      rw [hp]
      exact fun _ => ⟨rfl, rfl⟩

/-- `from_json` with its last check as a call. -/
theorem from_json_eq (lib : Library) (j : Json) :
    from_json lib j = (do
      let _ ← (lib.dump j (-1)).mapError Exn.std
      let username ← presentText j "username".toList "Username cannot be empty".toList
      let email ← presentText j "email".toList "Email cannot be empty".toList
      if email.any fun e => !validEmail e then .error (.validation "Email is invalid".toList)
      else
        let password ← presentPassword j
        .ok ⟨0, username, from_json.picture j, email, password⟩) := by
  unfold from_json
  refine bind_congr fun _ => bind_congr fun username => bind_congr fun email => ?_
  split
  · rfl
  · unfold presentPassword
    cases member j "password".toList with
    | none => rfl
    | some v =>
      cases v with
      | str password =>
        dsimp only
        split <;> rfl
      | _ => rfl

theorem readUpdate_yields {σ : Type} (lib : Library) (j : Json) :
    Yields (readUpdate lib j : Act σ UserUpdateSerializer) (from_json lib j) := by
  rw [from_json_eq]
  unfold readUpdate
  refine (yields_lift _).bind fun text => .after_record _ (yields_shown fun username =>
    yields_shown fun email => ?_)
  split
  · exact yields_fail _
  · exact .after_record _ ((yields_lift _).bind fun password => .after_record _ (yields_pure _))

theorem c_str_c_str (s : Str) : c_str (c_str s) = c_str s := by
  apply c_str_eq_self
  intro h
  simpa using List.mem_takeWhile_imp h

/-- A failure that `tryValidated` does not take. -/
theorem update_passed {σ α β : Type} {x : Act σ α} {f : Except Str α → Act σ β} {s t : σ}
    {log : List LogRecord} {e : Exn} (h : x s = ⟨log, t, .error e⟩)
    (he : ∀ what, e ≠ .validation what) (warning : String) :
    (tryValidated x warning >>= f) s = ⟨log, t, .error e⟩ :=
  bind_error (tryValidated_error h he warning) f

/-- Without its records the handler is the one that is modelled without them. -/
theorem update_erased (s : State) (request : Request) (a : UpdateAnswers) :
    ((update srv request a s).state, (update srv request a s).result) =
      UsersController.update srv s request a := by
  unfold update UsersController.update
  cases pathId request with
  | error e => rfl
  | ok id =>
    rw [lift_ok_bind, record_bind]
    cases readBody srv request with
    | error e => rfl
    | ok read =>
      obtain ⟨body, picture⟩ := read
      rw [lift_ok_bind]
      dsimp only
      rw [record_bind]
      have hread := (readUpdate_yields srv.lib body).run s
      cases hj : from_json srv.lib body with
      | error e =>
        rw [hj] at hread
        cases e with
        | validation what =>
          rw [bind_ok (tryValidated_validation hread _), record_bind]
          simp only [errorResult, c_str_c_str]
          rfl
        | db code what =>
          rw [update_passed hread (by simp)]
          rfl
        | std what =>
          rw [update_passed hread (by simp)]
          rfl
        | other =>
          rw [update_passed hread (by simp)]
          rfl
      | ok data =>
        rw [hj] at hread
        rw [bind_ok (tryValidated_ok hread _), record_bind]
        have herased := updateService_erased srv s { data with id := id } picture a
        dsimp only
        rw [← herased]
        simp only [Ran.after_state, Ran.after_result]
        generalize hrun : updateService srv { data with id := id } picture a s = ran
        obtain ⟨log, t, result⟩ := ran
        cases result with
        | ok u =>
          rw [bind_ok (tryValidated_ok hrun _)]
          rfl
        | error e =>
          cases e with
          | validation what =>
            rw [bind_ok (tryValidated_validation hrun _)]
            simp only [errorResult, c_str_c_str]
            rfl
          | db code what =>
            rw [update_passed hrun (by simp)]
          | std what =>
            rw [update_passed hrun (by simp)]
          | other =>
            rw [update_passed hrun (by simp)]

/-! ### An accepted update -/

theorem showText_present {σ : Type} {j : Json} {key : String} {refusal : Str} {v : Option Str}
    (h : presentText j key.toList refusal = .ok v) (message : String) (s : σ) :
    showText message key j s = ⟨[debugText message (orNull v)], s, .ok ()⟩ := by
  unfold presentText at h
  unfold showText
  cases hm : member j key.toList with
  | none =>
    rw [hm] at h
    cases h
    rfl
  | some x =>
    rw [hm] at h
    dsimp only at h ⊢
    cases hx : getString x with
    | error e =>
      rw [hx] at h
      cases h
    | ok text =>
      rw [hx] at h
      dsimp only at h ⊢
      split at h
      · cases h
      · cases h
        rfl

/-- The first record shows the whole body. -/
def readUpdateLog (text : Str) (data : UserUpdateSerializer) : List LogRecord :=
  [debug "UserUpdateSerializer::from_json: called" (texts [("json", text)]),
    debugText "UserUpdateSerializer::from_json: checking username: " (orNull data.username),
    debugText "UserUpdateSerializer::from_json: checking email: " (orNull data.email),
    debug "UserUpdateSerializer::from_json: checking password",
    debug "UserUpdateSerializer::from_json: checking picture"]

theorem readUpdate_ok {σ : Type} {lib : Library} {j : Json} {text : Str}
    {data : UserUpdateSerializer} (hdump : lib.dump j (-1) = .ok text)
    (h : from_json lib j = .ok data) (s : σ) :
    readUpdate lib j s = ⟨readUpdateLog text data, s, .ok data⟩ := by
  have hyields := ((readUpdate_yields lib j).run s)
  rw [h] at hyields
  have hlog : (readUpdate lib j s : Ran LogRecord σ Exn UserUpdateSerializer).log =
      readUpdateLog text data := by
    rw [from_json_eq] at h
    simp only [AccountSerializers.bind_ok] at h
    obtain ⟨_, _, username, husername, email, hemail, h⟩ := h
    unfold readUpdate
    rw [hdump, Except.mapError, lift_ok_bind, record_bind,
      Action.bind_ok (showText_present husername _ s), husername, lift_ok_bind,
      Action.bind_ok (showText_present hemail _ s), hemail, lift_ok_bind]
    split at h
    · cases h
    · rename_i hvalid
      obtain ⟨password, hpassword, h⟩ := AccountSerializers.bind_ok.mp h
      cases h
      rw [if_neg hvalid, record_bind, hpassword, lift_ok_bind]
      rfl
  rw [hyields, hlog]

end controller

/-! ### `Request::parseMultipart` and `Router::dispatch` -/

section dispatch
variable (lib : Library) (env : EnvConfig)

/-- The value of a field is shown up to its first 80 bytes. -/
def partLog (p : Part) : List LogRecord :=
  info "Request::parseMultipart" (texts
      [("name", p.name), ("filename", p.filename), ("ctype", p.contentType),
        ("size", to_string p.data.length)]) ::
    if p.filename = [] then
      [debug "Request::parseMultipart: MP field value"
        (texts [("name", p.name), ("value_dbg", p.data.take 80)])]
    else []

def parseMultipartLog (request : Request) : List LogRecord :=
  if env.multipart_adapter ≠ "POCO".toList then []
  else
    match parse lib.poco request.content_type request.body with
    | .error _ => []
    | .ok parts => parts.flatMap partLog

def parseBodyLog (request : Request) : List LogRecord :=
  if contains request.content_type "application/json".toList then []
  else if contains request.content_type "multipart/form-data".toList then
    parseMultipartLog lib env request
  else []

/-- `(int)request.raw().body().size()`. -/
def sizeValue (body : Str) : LogValue := .int (BitVec.ofNat 32 body.length).toInt

def contentTypeRecord (request : Request) : LogRecord :=
  debug "Router::dispatch: Request content-type"
    [("ct".toList, .string request.content_type), ("size".toList, sizeValue request.body)]

/-- `handle`, with the records of the chain as a function of the request that it gets. -/
def handleLog (entry : RouteEntry) (chain : Request → List LogRecord) (request : Request) :
    List LogRecord :=
  let allowed := (entry.allowedContentTypes request.method).getD []
  let ct := request.content_type
  let hasBody := request.body ≠ []
  if allowed ≠ [] ∧ hasBody ∧ (ct = [] ∨ ¬ allowed.any (contains ct)) then []
  else if env.file_upload_limit_size < request.body.length then []
  else
    contentTypeRecord request ::
      (parseBodyLog lib env request ++
        match refusal lib env entry request with
        | some _ => []
        | none => chain (checked lib env request))

def dispatchLog (r : Router) (chain : Str → Verb → Request → List LogRecord)
    (request : Request) : List LogRecord :=
  info "Router::dispatch: called" (methodAndTarget request) ::
    match r.decision request.method (normalizeTarget request) with
    | .handled entry params _ =>
        handleLog lib env entry (chain entry.original request.method)
          { request with path_params := params }
    | .autoHead entry params _ => chain entry.original .get { request with path_params := params }
    | _ => []

/-- The records of `dispatch` before those of the body and the chain. -/
def dispatchedLog (request : Request) : List LogRecord :=
  [info "Router::dispatch: called" (methodAndTarget request), contentTypeRecord request]

variable {lib env}

theorem handleLog_passed {entry : RouteEntry} {request : Request}
    (h : refusal lib env entry request = none) (chain : Request → List LogRecord) :
    handleLog lib env entry chain request =
      contentTypeRecord request ::
        (parseBodyLog lib env request ++ chain (checked lib env request)) := by
  unfold handleLog
  rw [h]
  unfold refusal at h
  dsimp only at h ⊢
  split at h
  · cases h
  rename_i htype
  split at h
  · cases h
  rename_i hsize
  rw [if_neg htype, if_neg hsize]

section handled
variable {r : Router} {request : Request} {entry : RouteEntry} {params : Dict Str} {fn : RouteFn}
  (hm : r.matchRoute (normalizeTarget request) = some (entry, params))
  (hfn : entry.methods request.method = some fn)
include hm hfn

theorem dispatchLog_handled (chain : Str → Verb → Request → List LogRecord) :
    dispatchLog lib env r chain request =
      info "Router::dispatch: called" (methodAndTarget request) ::
        handleLog lib env entry (chain entry.original request.method)
          { request with path_params := params } := by
  have hdecision : r.decision request.method (normalizeTarget request) =
      .handled entry params fn := by
    unfold Router.decision
    rw [hm]
    simp only [hfn]
  unfold dispatchLog
  rw [hdecision]

theorem dispatchLog_passed
    (hpass : refusal lib env entry { request with path_params := params } = none)
    (chain : Str → Verb → Request → List LogRecord) :
    dispatchLog lib env r chain request =
      dispatchedLog request ++ (parseBodyLog lib env request ++
        chain entry.original request.method
          (checked lib env { request with path_params := params })) := by
  rw [dispatchLog_handled hm hfn, handleLog_passed hpass]
  rfl

/-- A body of another type than the route allows. -/
theorem dispatchLog_unsupported
    (htype : (entry.allowedContentTypes request.method).getD [] ≠ [] ∧ request.body ≠ [] ∧
      (request.content_type = [] ∨ ¬ ((entry.allowedContentTypes request.method).getD []).any
        (contains request.content_type)))
    (chain : Str → Verb → Request → List LogRecord) :
    dispatchLog lib env r chain request =
      [info "Router::dispatch: called" (methodAndTarget request)] := by
  rw [dispatchLog_handled hm hfn]
  exact congrArg _ (if_pos htype)

end handled

end dispatch

/-! ### The application -/

section application
variable (app : Application) (s : Accounts app.db) (t : State) (m : Moment) (a : UpdateAnswers)
  (others : Str → Verb → Request → List LogRecord)

/-- The records of a handler; `others` are those of the handlers that take no password. -/
def handlerLog (template : Str) (method : Verb) (request : Request) : List LogRecord :=
  if template = "/register".toList ∧ method = .post then
    (AuthenticationController.registration app request m s).log
  else if template = "/login".toList ∧ method = .post then
    (AuthenticationController.login app request m s).log
  else if template = "/users".toList ∧ method = .post then
    (AccountServices.UsersController.store app request m s).log
  else if template = "/users/{id}".toList ∧ method = .patch then
    (update app.toServices request a t).log
  else others template method request

/-- The records of a handler behind the middleware, which runs when the token is accepted. -/
def authorizedLog (request : Request) (handler : ℤ → List LogRecord) : List LogRecord :=
  (authenticate app request m s).log ++
    match (authenticate app request m s).result with
    | .ok (.ok id) => handler id
    | _ => []

/-- The middleware comes before the handlers of the users' routes. -/
def chainLog (template : Str) (method : Verb) (request : Request) : List LogRecord :=
  if startsWith (normalizeTarget request) "/users".toList then
    authorizedLog app s m request fun id =>
      handlerLog app s t m a others template method { request with user_id := some id }
  else handlerLog app s t m a others template method request

/-- All records of a request. -/
def requestLog (base : Handlers) (request : Request) : List LogRecord :=
  dispatchLog app.lib app.env (router (accountHandlers app base s m))
    (chainLog app s t m a others) request

end application
end AdequateApi.RequestLog
