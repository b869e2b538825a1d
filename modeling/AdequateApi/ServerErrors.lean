import AdequateApi.UserUpdateAnswers

/-! Which requests to the accounts' routes are answered below 500 while everything behind the
routes works. -/
namespace AdequateApi.ServerErrors
open StdString FileTree HttpMessages DbConnection UsersRepository UsersListing
  FileSystemService AdequateApi.UsersService AdequateApi.UsersController AccountSerializers
  AccountStore AccountServices LoggedAction Action RouterModel ApplicationRoutes AccountCreation
  RequestLog Utf8Text JsonText AnswerStatus AccountAnswers UsersIndex UserUpdateAnswers

/-! ### The world of a request -/

/-- What the handlers of one request meet: the stores, the clocks, how a query string is decoded,
and how the rest answers an update and a removal. -/
structure World (app : Application) where
  base : Handlers
  accounts : Accounts app.db
  disk : Disk
  moment : Moment
  urls : Str → Option (List (Str × Str))
  updating : Request → UpdateAnswers
  removing : RemoveAnswers

namespace World
variable {app : Application} (w : World app)

structure Works : Prop where
  parts : AccountAnswers.Works app w.accounts w.moment
  updating : ∀ request, UpdateWorks app w.accounts w.moment w.disk request (w.updating request)
  removing : RemoveWorks w.removing

def state : UsersService.State := ⟨w.disk, rows w.accounts⟩

def handlers : Handlers :=
  { accountHandlers app w.base w.accounts w.moment with
    login := fun request =>
      (request, (AuthenticationController.login app request w.moment w.accounts).result)
    index := fun request =>
      (request, index app.toServices (runQuery app.db.toPostgres w.accounts.toUsersTable) w.urls
        request)
    update := fun request =>
      (request, (AdequateApi.UsersController.update app.toServices w.state request
        (w.updating request)).2)
    remove := fun request =>
      (request, (AdequateApi.UsersController.remove app.toServices w.state request
        w.removing).2) }

def dispatch (request : Request) : Except Exn Response :=
  (RouterModel.dispatch app.lib app.env (router w.handlers) request).result

/-- The token of the request is valid. -/
def Authenticated (request : Request) : Prop :=
  ∃ id, (authenticate app request w.moment w.accounts).result = .ok (.ok id)

end World

/-! ### The routes -/

inductive Route
  | register
  | login
  | users
  | user (segment : Str) (ne_nil : segment ≠ []) (no_slash : '/' ∉ segment)

def Route.path : Route → Str
  | .register => "/register".toList
  | .login => "/login".toList
  | .users => "/users".toList
  | .user segment _ _ => userPath segment

section routes
variable {app : Application} (w : World app)

/-- Where a handler behind the middleware runs, the token is valid. -/
def Route.Authorized (request : Request) : Route → Prop
  | .register | .login => True
  | .users =>
      request.method = .get ∨ request.method = .head ∨ request.method = .post →
        w.Authenticated request
  | .user _ _ _ =>
      request.method = .patch ∨ request.method = .delete_ → w.Authenticated request

/-- The body is a JSON value with `p`. -/
def Reads (lib : Library) (p : Json → Prop) (request : Request) : Prop :=
  ∃ j, request.json lib = .ok j ∧ p j

/-- The request is refused before a handler runs, or is one that its handler can answer. -/
def Harmless (request : Request) : Route → Prop
  | .register => request.method = .post →
      Admitted app.lib app.env [] (Reads app.lib (Registrable w.accounts)) request
  | .login => request.method = .post →
      Admitted app.lib app.env [] (Reads app.lib LoginReadable) request
  | .users =>
      (request.method = .get →
        Admitted app.lib app.env [] (Listable app w.accounts w.urls) request) ∧
      (request.method = .head → Listable app w.accounts w.urls request) ∧
      (request.method = .post →
        Admitted app.lib app.env [] (Reads app.lib (Creatable app.db)) request)
  | .user segment _ _ =>
      (request.method = .patch → Admitted app.lib app.env ["multipart/form-data".toList]
        (Updatable app w.accounts segment) request) ∧
      (request.method = .delete_ →
        Admitted app.lib app.env [] (fun _ => ∃ id, stoi segment = .ok id) request)

end routes

/-! ### A body that cannot be read -/

section reads
variable {app : Application} {request : Request} {m : Moment} {s : Accounts app.db}

theorem sent_reads {r : Except Exn Outcome} {p : Json → Prop}
    (hfailed : ∀ e, request.json app.lib = .error e → r = .error e)
    (hread : ∀ j, request.json app.lib = .ok j → Sent r (p j)) :
    Sent r (Reads app.lib p request) := by
  unfold Reads
  cases hj : request.json app.lib with
  | error e =>
    rw [hfailed e hj]
    refine .failed ?_
    rintro ⟨_, h, _⟩
    cases h
  | ok j =>
    refine (hread j hj).congr ?_
    simp

theorem registration_reads (hw : Works app s m) :
    Sent (AuthenticationController.registration app request m s).result
      (Reads app.lib (Registrable s) request) := by
  refine sent_reads (fun e he => ?_) fun j hj => registration_sent hw hj
  unfold AuthenticationController.registration
  rw [record_bind, he, lift_error_bind]
  rfl

theorem login_reads (hw : Works app s m) :
    Sent (AuthenticationController.login app request m s).result
      (Reads app.lib LoginReadable request) := by
  refine sent_reads (fun e he => ?_) fun j hj => login_sent hw hj
  unfold AuthenticationController.login
  rw [record_bind, he, lift_error_bind]
  rfl

theorem store_reads (hw : Works app s m) :
    Sent (AccountServices.UsersController.store app request m s).result
      (Reads app.lib (Creatable app.db) request) := by
  refine sent_reads (fun e he => ?_) fun j hj => store_sent hw hj
  unfold AccountServices.UsersController.store
  rw [record_bind, he, lift_error_bind]
  rfl

end reads

/-! ### The routes, one by one -/

section entry
variable (entry : RouteEntry) (fn : RouteFn) (types : List Str)

@[simp] theorem methods_set (method : Verb) :
    (Router.RouteEntry.set entry method fn types).methods method = some fn := by
  simp [Router.RouteEntry.set]

theorem methods_set_ne {method other : Verb} (h : other ≠ method) :
    (Router.RouteEntry.set entry method fn types).methods other = entry.methods other := by
  simp [Router.RouteEntry.set, h]

@[simp] theorem types_set (method : Verb) :
    (Router.RouteEntry.set entry method fn types).allowedContentTypes method = some types := by
  simp [Router.RouteEntry.set]

end entry

section dispatch
variable {app : Application} {w : World app} {request : Request}

/-- A route with a POST handler and no middleware. -/
theorem public_harmless (hw : w.Works) {tmpl : Str} {fn : RouteFn} {p : Request → Prop}
    (hpath : normalizeTarget request = tmpl) (hpublic : startsWith tmpl "/users".toList = false)
    (hmatch : (router w.handlers).matchRoute tmpl =
      some (Router.RouteEntry.set (compileRoute tmpl) .post fn [], []))
    (hsent : ∀ r, Sent (fn r).2 (p r))
    (hp : ∀ r : Request, p { r with path_params := [] } ↔ p r) :
    ¬ ServerError (w.dispatch request) ↔
      (request.method = .post → Admitted app.lib app.env [] p request) := by
  rw [← hpath] at hmatch hpublic
  have hchain : (router w.handlers).collectMiddlewaresFor (normalizeTarget request) = [] :=
    middlewares_public w.handlers hpublic
  have hq : Quiet ((router w.handlers).collectMiddlewaresFor (normalizeTarget request)) := by
    rw [hchain]
    simp [Quiet]
  unfold World.dispatch
  by_cases hpost : request.method = .post
  · rw [forall_prop_of_true hpost, ← admitted_params hp]
    have hfn : (Router.RouteEntry.set (compileRoute (normalizeTarget request)) .post fn
        []).methods request.method = some fn := by rw [hpost, methods_set]
    refine dispatch_handled hw.parts.json hq hmatch hfn ?_ fun r _ => ?_
    · rw [hpost, types_set]
      rfl
    · rw [hchain]
      exact hsent r
  · refine iff_of_true (dispatch_unhandled hw.parts.json hq hmatch (methods_set_ne _ fn _ hpost)
      fun _ => ?_) fun h => absurd h hpost
    rw [methods_set_ne _ _ _ (by decide)]
    rfl

theorem register_harmless (hw : w.Works) (hpath : normalizeTarget request = Route.path .register) :
    ¬ ServerError (w.dispatch request) ↔ Harmless w request .register :=
  public_harmless hw hpath rfl (matchRoute_register w.handlers)
    (fun _ => registration_reads hw.parts) fun _ => Iff.rfl

theorem login_harmless (hw : w.Works) (hpath : normalizeTarget request = Route.path .login) :
    ¬ ServerError (w.dispatch request) ↔ Harmless w request .login :=
  public_harmless hw hpath rfl (matchRoute_login w.handlers)
    (fun _ => login_reads hw.parts) fun _ => Iff.rfl

/-- The middleware reads the headers only, and hands an authenticated request on. -/
theorem chain_authenticated {s : Accounts app.db} {m : Moment} {r : Request} {id : ℤ}
    (hheaders : r.headers = request.headers)
    (hauth : (authenticate app request m s).result = .ok (.ok id)) (leaf : Request → Run) :
    (runChain leaf [authentication app s m] r).result =
      (leaf { r with user_id := some id }).result := by
  have hsame : (authenticate app r m s).result = .ok (.ok id) := by
    rw [← hauth]
    unfold authenticate
    rw [hheaders]
  have hrun : runChain leaf [authentication app s m] r =
      (authentication app s m).run leaf r := rfl
  rw [hrun, authentication_run hsame]

/-- What a request with a valid token meets behind `/users`. -/
theorem chain_sent {r : Request} {params : Dict Str} {fn : RouteFn} {tmpl : Str} {method : Verb}
    {p : Request → Prop} (hbelow : startsWith (normalizeTarget request) "/users".toList = true)
    (hauth : w.Authenticated request)
    (hr : SameHead { request with path_params := params } r)
    (hsent : ∀ r, r.path_params = params → Sent (fn r).2 (p r))
    (hp : ∀ (r : Request) (id : ℤ), p { r with user_id := some id } ↔ p r) :
    Sent (runChain (runLeaf tmpl method fn)
      ((router w.handlers).collectMiddlewaresFor (normalizeTarget request)) r).result (p r) := by
  obtain ⟨id, hid⟩ := hauth
  have hchain : (router w.handlers).collectMiddlewaresFor (normalizeTarget request) =
      [authentication app w.accounts w.moment] := middlewares_users w.handlers hbelow
  rw [hchain, chain_authenticated hr.headers hid]
  exact (hsent { r with user_id := some id } hr.path_params).congr (hp r id)

theorem quiet_users (hbelow : startsWith (normalizeTarget request) "/users".toList = true) :
    Quiet ((router w.handlers).collectMiddlewaresFor (normalizeTarget request)) := by
  rw [middlewares_users w.handlers hbelow]
  intro middleware hmem request response
  rw [List.mem_singleton.mp hmem]
  rfl

theorem protected_handled (hw : w.Works) {entry : RouteEntry} {params : Dict Str} {fn : RouteFn}
    {types : List Str} {p : Request → Prop}
    (hbelow : startsWith (normalizeTarget request) "/users".toList = true)
    (hauth : w.Authenticated request)
    (hmatch : (router w.handlers).matchRoute (normalizeTarget request) = some (entry, params))
    (hfn : entry.methods request.method = some fn)
    (htypes : (entry.allowedContentTypes request.method).getD [] = types)
    (hsent : ∀ r, r.path_params = params → Sent (fn r).2 (p r))
    (hp : ∀ (r : Request) (id : ℤ), p { r with user_id := some id } ↔ p r)
    (hp' : ∀ r : Request, p { r with path_params := params } ↔ p r) :
    ¬ ServerError (w.dispatch request) ↔ Admitted app.lib app.env types p request := by
  rw [← admitted_params hp']
  exact dispatch_handled hw.parts.json (quiet_users hbelow) hmatch hfn htypes
    fun r hr => chain_sent hbelow hauth hr hsent hp

theorem users_harmless (hw : w.Works) (hpath : normalizeTarget request = Route.path .users)
    (hauth : Route.Authorized w request .users) :
    ¬ ServerError (w.dispatch request) ↔ Harmless w request .users := by
  have hbelow : startsWith (normalizeTarget request) "/users".toList = true := by
    rw [hpath]
    rfl
  have hmatch := matchRoute_users w.handlers
  rw [show "/users".toList = normalizeTarget request from hpath.symm] at hmatch
  have hgets : (usersEntry w.handlers).methods .get = some w.handlers.index := by
    rw [usersEntry, methods_set_ne _ _ _ (by decide), methods_set]
  have hposts : (usersEntry w.handlers).methods .post = some w.handlers.store := by
    rw [usersEntry, methods_set]
  have hothers : ∀ {v : Verb}, v ≠ .get → v ≠ .post →
      (usersEntry w.handlers).methods v = none := by
    intro v hget hpost
    rw [usersEntry, methods_set_ne _ _ _ hpost, methods_set_ne _ _ _ hget]
    rfl
  have hindex : ∀ r : Request, Sent (w.handlers.index r).2 (Listable app w.accounts w.urls r) :=
    fun _ => index_sent hw.parts
  have hstore : ∀ r : Request, Sent (w.handlers.store r).2
      (Reads app.lib (Creatable app.db) r) := fun _ => store_reads hw.parts
  unfold Harmless
  by_cases hget : request.method = .get
  · simp only [hget, forall_const, reduceCtorEq, false_imp_iff, and_true]
    exact protected_handled hw hbelow (hauth (.inl hget)) hmatch (hget ▸ hgets)
      (by rw [hget]; rfl) (fun r _ => hindex r) (fun _ _ => Iff.rfl) fun _ => Iff.rfl
  by_cases hpost : request.method = .post
  · simp only [hpost, forall_const, reduceCtorEq, false_imp_iff, true_and]
    exact protected_handled hw hbelow (hauth (.inr (.inr hpost))) hmatch (hpost ▸ hposts)
      (by rw [hpost]; rfl) (fun r _ => hstore r) (fun _ _ => Iff.rfl) fun _ => Iff.rfl
  by_cases hhead : request.method = .head
  · simp only [hhead, forall_const, reduceCtorEq, false_imp_iff, true_and, and_true]
    have hanswer : ¬ ServerError (w.dispatch request) ↔
        Listable app w.accounts w.urls { request with path_params := [] } :=
      dispatch_head hw.parts.json (quiet_users hbelow) hmatch hhead
        (hothers (by decide) (by decide)) hgets fun r hr =>
          chain_sent hbelow (hauth (.inr (.inl hhead))) hr (fun r _ => hindex r) fun _ _ => Iff.rfl
    exact hanswer
  · simp only [hget, hpost, hhead, false_imp_iff, and_self, iff_true]
    exact dispatch_unhandled hw.parts.json (quiet_users hbelow) hmatch (hothers hget hpost)
      fun h => absurd h hhead

theorem user_harmless (hw : w.Works) {segment : Str} {hne : segment ≠ []} {hs : '/' ∉ segment}
    (hpath : normalizeTarget request = Route.path (.user segment hne hs))
    (hauth : Route.Authorized w request (.user segment hne hs)) :
    ¬ ServerError (w.dispatch request) ↔ Harmless w request (.user segment hne hs) := by
  have hbelow : startsWith (normalizeTarget request) "/users".toList = true := by
    rw [hpath]
    rfl
  have hmatch := matchRoute_user w.handlers hne hs
  rw [show userPath segment = normalizeTarget request from hpath.symm] at hmatch
  have hpatches : (userEntry w.handlers).methods .patch = some w.handlers.update := by
    rw [userEntry, methods_set_ne _ _ _ (by decide), methods_set]
  have hdeletes : (userEntry w.handlers).methods .delete_ = some w.handlers.remove := by
    rw [userEntry, methods_set]
  have hothers : ∀ {v : Verb}, v ≠ .patch → v ≠ .delete_ →
      (userEntry w.handlers).methods v = none := by
    intro v hpatch hdelete
    rw [userEntry, methods_set_ne _ _ _ hdelete, methods_set_ne _ _ _ hpatch]
    rfl
  have hid : ∀ r : Request, r.path_params = [("id".toList, segment)] →
      r.path_params.find "id".toList = some segment := by
    intro r hr
    rw [hr]
    rfl
  unfold Harmless
  by_cases hpatch : request.method = .patch
  · simp only [hpatch, forall_const, reduceCtorEq, false_imp_iff, and_true]
    exact protected_handled hw hbelow (hauth (.inl hpatch)) hmatch (hpatch ▸ hpatches)
      (by rw [hpatch]; rfl) (fun r hr => update_sent hw.parts (hw.updating r) (hid r hr))
      (fun _ _ => Iff.rfl) fun _ => Iff.rfl
  by_cases hdelete : request.method = .delete_
  · simp only [hdelete, forall_const, reduceCtorEq, false_imp_iff, true_and]
    exact protected_handled hw hbelow (hauth (.inr hdelete)) hmatch (hdelete ▸ hdeletes)
      (by rw [hdelete]; rfl) (fun r hr => remove_sent hw.parts hw.removing (hid r hr) w.state)
      (fun _ _ => Iff.rfl) fun _ => Iff.rfl
  · simp only [hpatch, hdelete, false_imp_iff, and_self, iff_true]
    exact dispatch_unhandled hw.parts.json (quiet_users hbelow) hmatch (hothers hpatch hdelete)
      fun _ => hothers (by decide) (by decide)

/-- The status is below 500 exactly for the harmless requests. -/
theorem no_server_error_iff (hw : w.Works) {route : Route}
    (hpath : normalizeTarget request = route.path) (hauth : route.Authorized w request) :
    ¬ ServerError (w.dispatch request) ↔ Harmless w request route := by
  cases route with
  | register => exact register_harmless hw hpath
  | login => exact login_harmless hw hpath
  | users => exact users_harmless hw hpath hauth
  | user segment ne_nil no_slash => exact user_harmless hw hpath hauth

end dispatch

/-! ### A world to try it on -/

/-- A server in UTF-8. -/
def utf8Server : AccountServer :=
  { plainServer with
    encoded := fun s => decide (Utf8 s)
    index_holds := fun e => e.length ≤ 2000 }

/-- Of JSON texts only the empty object is read. Canonical paths stay as they are, and one token
is for the user 1. -/
def plainApp : Application where
  lib := readingOnly [("{}".toList, .obj [])]
  os := ⟨some, fun _ => .ok "image/png".toList⟩
  rootPath := "/srv/media".toList
  media_path := "media".toList
  file_upload_limit_size := 1000
  multipart_adapter := []
  db := utf8Server
  hasher := ⟨fun salt _ => .ok (to_string salt), fun _ _ => (true, false)⟩
  jwt := annApp.jwt
  secret_key := "k".toList

theorem storable_ascii {t : Str} (hnul : '\x00' ∉ t)
    (h : t.all (fun c => c.toNat < 128) = true) : Storable plainApp.db.toPostgres t :=
  ⟨hnul, decide_eq_true (utf8_literal h)⟩

def adminAccount : Accounts plainApp.db where
  users := [stored 1 "admin"]
  primary := by decide
  texts := by
    intro u hu
    rw [List.mem_singleton.mp hu]
    refine ⟨storable_ascii (by decide) (by decide), ?_⟩
    rintro e ⟨⟩
    exact storable_ascii (by decide) (by decide)
  next_id := 2
  unique_email := List.pairwise_singleton _ _

theorem utf8Server_documented : utf8Server.toPostgres.Documented where
  ascii := fun _ h => decide_eq_true (Utf8.ascii fun c hc => (h c hc).1)
  bigint := plainServer_documented.bigint
  int4 := plainServer_documented.int4
  array := plainServer_documented.array
  citext_refl := plainServer_documented.citext_refl
  citext_nul := plainServer_documented.citext_nul
  dated := plainServer_documented.dated

theorem isAbsolute_append_left {p : Str} (h : isAbsolute p = true) (q : Str) :
    isAbsolute (append p q) = true := by
  unfold append
  split
  · assumption
  · cases p with
    | nil => cases h
    | cons c p => split <;> exact h

/-- A path with more names than the root's is within it. -/
theorem within_root {path : Str} {rest : Path} (habs : isAbsolute path = true)
    (hnames : names path = names plainApp.rootPath ++ rest) :
    ensureWithinRoot plainApp.os plainApp.rootPath path = .ok () := by
  have hroot : components plainApp.rootPath = ["/".toList] ++ names plainApp.rootPath := by decide
  have hcomponents : components plainApp.rootPath <+: components path := by
    rw [hroot, components, if_pos habs, hnames]
    simp only [List.append_assoc]
    exact ⟨_, rfl⟩
  have hbelow : (components plainApp.rootPath).isPrefixOf (components path) = true :=
    List.isPrefixOf_iff_prefix.mpr hcomponents
  unfold ensureWithinRoot
  change (if (components plainApp.rootPath).isPrefixOf (components path) = true then _ else _) = _
  rw [if_pos hbelow]

theorem names_pictureDir (id : ℤ) :
    names (append plainApp.rootPath (pictureDir id)) =
      names plainApp.rootPath ++ ["users".toList, to_string id, "file".toList] :=
  picturePath_eq plainApp.toServices id

theorem plain_directory (id : ℤ) : ensureWithinRoot plainApp.os plainApp.rootPath
    (append plainApp.rootPath (pictureDir id)) = .ok () :=
  within_root (isAbsolute_append_left (by decide) _) (names_pictureDir id)

theorem plain_file (id : ℤ) (rng : ℕ → ℕ) (original : Str) :
    ensureWithinRoot plainApp.os plainApp.rootPath
      (append (append plainApp.rootPath (pictureDir id))
        (storedName plainApp.opts rng original)) = .ok () := by
  have hnames := names_append_storedName plainApp.opts (append plainApp.rootPath (pictureDir id))
    rng original
  rw [names_pictureDir, List.append_assoc] at hnames
  exact within_root (isAbsolute_append_left (isAbsolute_append_left (by decide) _) _) hnames

theorem plain_library : JsonLibrary plainApp.lib :=
  readingOnly_library (List.forall_mem_singleton.mpr (written_members.mpr (by simp)))

def plainWorld : World plainApp where
  base := noHandlers
  accounts := adminAccount
  disk := noFiles
  moment := firstMoment
  urls := fun _ => some []
  updating := fun request =>
    let sent := sentEntity plainApp.toServices noFiles request
      ⟨.ok "h".toList, false, none, smoothAnswers, .done 0⟩
    ⟨.ok "h".toList, false, none, smoothAnswers,
      sent.elim (.done 0) fun user => updateAnswer adminAccount user firstMoment.now⟩
  removing := ⟨false, none, .done 0⟩

theorem plain_parts : AccountAnswers.Works plainApp adminAccount firstMoment where
  json := plain_library
  server := utf8Server_documented
  int4_range := by
    intro n hn
    change ((leadingNumber (to_string n)).filter fun m => _) = none
    rw [leadingNumber_to_string]
    simp [Option.filter, hn]
  encoding := fun t _ => decide_eq_true_iff
  hash := fun _ => ⟨_, rfl, utf8_to_string _⟩
  sign := by
    intro header payload
    refine ⟨_, rfl, ?_⟩
    split
    · exact utf8_literal (by decide +kernel)
    · exact utf8_literal (by decide)
  sequence := by decide
  id_free := by
    rintro ⟨u, hu, hid⟩
    rw [List.mem_singleton.mp hu] at hid
    exact absurd hid (by decide)
  readable := by
    intro u _
    exact ⟨_, _, rfl, rfl⟩
  pictures := by
    intro u hu p hp
    rw [List.mem_singleton.mp hu] at hp
    cases hp
  media_path := utf8_literal (by decide)
  directories := plain_directory
  files := plain_file

theorem plain_works : plainWorld.Works where
  parts := plain_parts
  updating := fun request =>
    { hash := ⟨_, rfl, by decide, utf8_literal (by decide)⟩
      seen := rfl
      removed := rfl
      stored := ⟨rfl, rfl, rfl, rfl, rfl⟩
      query := by
        intro user h
        have hsent : sentEntity plainApp.toServices noFiles request
            ⟨.ok "h".toList, false, none, smoothAnswers, .done 0⟩ = some user := h
        change (sentEntity plainApp.toServices noFiles request
          ⟨.ok "h".toList, false, none, smoothAnswers, .done 0⟩).elim _ _ = _
        rw [hsent]
        rfl }
  removing := ⟨rfl, rfl, 0, rfl⟩

def removal (segment : String) : Request where
  method := .delete_
  target := userPath segment.toList
  version := 11
  keep_alive := true
  headers := [("Authorization".toList, "Bearer ".toList ++ firstToken)]
  body := []
  user_id := none
  path_params := []
  multipart := none

theorem removal_authorized (segment : String) : plainWorld.Authenticated (removal segment) := by
  have htoken : JwtService.decode plainApp.jwt plainApp.secret_key
      (("Bearer ".toList ++ firstToken).drop 7) firstMoment.received =
        .ok ⟨1, none, none, none, none⟩ := firstToken_decoded (by decide)
  have hheader : (removal segment).headers.find?
      (fun e => toLower e.1 = "authorization".toList) =
        some ("Authorization".toList, "Bearer ".toList ++ firstToken) := rfl
  have hfound : ∃ u ∈ adminAccount.users, u.id = Int64.ofInt 1 :=
    ⟨stored 1 "admin", List.mem_singleton.mpr rfl, rfl⟩
  refine ⟨1, ?_⟩
  change (authenticate plainApp (removal segment) firstMoment adminAccount).result = _
  rw [authenticate_ok hheader (by decide) htoken (by decide +kernel) hfound]

theorem removal_path {segment : String} (h : '?' ∉ userPath segment.toList) :
    normalizeTarget (removal segment) = userPath segment.toList := by
  refine List.takeWhile_eq_self_iff.mpr fun c hc => ?_
  have hne : c ≠ '?' := fun e => h (e ▸ hc)
  simpa using hne

/-- Removing the user 1 with a token for that user. -/
theorem no_server_error_iff_removal :
    ¬ ServerError (plainWorld.dispatch (removal "1")) := by
  have hpath : normalizeTarget (removal "1") =
      Route.path (.user "1".toList (by decide) (by decide)) := removal_path (by decide)
  refine (no_server_error_iff plain_works hpath fun _ => removal_authorized "1").mpr
    ⟨?_, fun _ => ?_⟩
  · rintro ⟨⟩
  · exact .inr (.inr ⟨1, rfl⟩)

/-- The id is no number, and the answer is no client error. -/
theorem malformed_id_fails :
    plainWorld.Works ∧ plainWorld.Authenticated (removal "abc") ∧
      normalizeTarget (removal "abc") = "/users/abc".toList ∧
      ServerError (plainWorld.dispatch (removal "abc")) := by
  have hpath : normalizeTarget (removal "abc") =
      Route.path (.user "abc".toList (by decide) (by decide)) := removal_path (by decide)
  refine ⟨plain_works, removal_authorized "abc", hpath, ?_⟩
  by_contra hfine
  obtain ⟨_, hdelete⟩ := (user_harmless plain_works hpath fun _ => removal_authorized "abc").mp
    hfine
  rcases hdelete rfl with ⟨h, _⟩ | h | h
  · exact h rfl
  · exact absurd h (by decide)
  · obtain ⟨id, h⟩ := h
    cases h

end AdequateApi.ServerErrors
