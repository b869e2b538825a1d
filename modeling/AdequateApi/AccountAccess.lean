import AdequateApi.ApplicationDispatch
import AdequateApi.LoginTokens

/-! Who gets past the middleware: a token opens the users' routes as long as its account has a
row, and never again afterwards. -/
namespace AdequateApi.AccountAccess
open StdString DbConnection HttpMessages UsersRepository UsersListing RouterModel ApplicationRoutes
  AccountStore AccountServices AccountCreation LoggedAction Action UserUpdateAnswers
  AccountStatements AccountCalls LoginTokens ApplicationDispatch

variable {app : Application} {s : Accounts app.db} {m : Moment} {request : Request}

/-- The request carries a token that is valid now, for this user. -/
def Presents (app : Application) (m : Moment) (request : Request) (id : ℤ) : Prop :=
  ∃ name auth user, request.headers.find? (fun e => toLower e.1 = "authorization".toList) =
      some (name, auth) ∧ startsWith auth "Bearer ".toList = true ∧
    JwtService.decode app.jwt app.secret_key (auth.drop 7) m.received = .ok user ∧ user.id = id

theorem decodeToken_error (s : Accounts app.db) {token : Str} {e : JwtService.JwtException}
    (h : JwtService.decode app.jwt app.secret_key token m.received = .error e) :
    ∃ log, decodeToken app token m s = ⟨log, s, .ok (.error (mapJwtError e))⟩ := by
  unfold decodeToken
  rw [h]
  exact ⟨_, rfl⟩

theorem decodeToken_ok {token : Str} {user : UserEntity}
    (h : JwtService.decode app.jwt app.secret_key token m.received = .ok user) :
    decodeToken app token m s = ⟨[], s, .ok (.ok user)⟩ := by
  unfold decodeToken
  rw [h]
  rfl

theorem exists_unbound (s : Accounts app.db) {filters : UserFilter}
    (h : bindable app.db (existsStatement filters).params = false) :
    AccountServices.UsersService.exists_ app filters s =
      ⟨[existsRecord filters.email], s, .error (.db .Unknown app.db.complaint)⟩ := by
  unfold AccountServices.UsersService.exists_ AccountStore.exists_
  rw [record_bind, run_change, h]
  rfl

/-- The middleware asks for a valid token and for the row of its user. -/
theorem authenticate_iff {id : ℤ} :
    (authenticate app request m s).result = .ok (.ok id) ↔
      Presents app m request id ∧ bindable app.db [some (idText (Int64.ofInt id))] = true ∧
        ∃ u ∈ s.users, u.id = Int64.ofInt id := by
  constructor
  · intro h
    unfold authenticate at h
    cases hheader : request.headers.find? fun e => toLower e.1 = "authorization".toList with
    | none =>
      rw [hheader] at h
      cases h
    | some entry =>
      obtain ⟨name, auth⟩ := entry
      rw [hheader] at h
      dsimp only at h
      cases hbearer : startsWith auth "Bearer ".toList with
      | false =>
        rw [hbearer] at h
        cases h
      | true =>
        rw [hbearer, if_neg (by decide)] at h
        cases htoken : JwtService.decode app.jwt app.secret_key (auth.drop 7) m.received with
        | error e =>
          obtain ⟨log, hrun⟩ := decodeToken_error s htoken
          rw [bind_ok hrun] at h
          cases h
        | ok user =>
          rw [bind_ok (decodeToken_ok htoken)] at h
          dsimp only at h
          cases hbind : bindable app.db [some (idText (Int64.ofInt user.id))] with
          | false =>
            have hbind' : bindable app.db
                (existsStatement ⟨some (Int64.ofInt user.id), none, none⟩).params = false := hbind
            rw [bind_error (tryValidated_error (exists_unbound s hbind') (by simp) _)] at h
            cases h
          | true =>
            have hfound := exists_id s (Int64.ofInt user.id) hbind
            rw [bind_ok (tryValidated_ok hfound _)] at h
            by_cases hexists : ∃ u ∈ s.users, u.id = Int64.ofInt user.id
            · rw [decide_eq_true hexists] at h
              cases h
              exact ⟨⟨name, auth, user, hheader, hbearer, htoken, rfl⟩, hbind, hexists⟩
            · rw [decide_eq_false hexists] at h
              cases h
  · rintro ⟨⟨name, auth, user, hheader, hbearer, htoken, rfl⟩, hbind, hexists⟩
    rw [authenticate_ok hheader hbearer htoken hbind hexists]

/-! ### Locked out -/

/-- The number in a token fits into an `int`. -/
theorem decode_range {token : Str} {now : ℕ} {user : UserEntity}
    (h : JwtService.decode app.jwt app.secret_key token now = .ok user) :
    -2147483648 ≤ user.id ∧ user.id ≤ 2147483647 := by
  unfold JwtService.decode at h
  cases hclaims : JwtService.decodeClaims app.jwt app.secret_key token now with
  | error e =>
    rw [hclaims] at h
    cases h
  | ok claimed =>
    rw [hclaims] at h
    cases h
    unfold JwtService.decodeClaims at hclaims
    obtain ⟨data, _, hclaims⟩ := AccountSerializers.bind_ok.mp hclaims
    obtain ⟨_, _, hclaims⟩ := AccountSerializers.bind_ok.mp hclaims
    obtain ⟨sub, _, hclaims⟩ := AccountSerializers.bind_ok.mp hclaims
    obtain ⟨text, _, hclaims⟩ := AccountSerializers.bind_ok.mp hclaims
    obtain ⟨id, hid, hclaims⟩ := AccountSerializers.bind_ok.mp hclaims
    cases hclaims
    cases hstoi : stoi text with
    | error e =>
      rw [hstoi] at hid
      cases hid
    | ok n =>
      rw [hstoi] at hid
      cases hid
      exact AdequateApi.UsersController.stoi_range hstoi

theorem Presents.range {id : ℤ} (h : Presents app m request id) :
    -2147483648 ≤ id ∧ id ≤ 2147483647 := by
  obtain ⟨_, _, user, _, _, htoken, rfl⟩ := h
  exact decode_range htoken

/-- The row of the id, seen by primary key. -/
theorem row_iff {id : ℤ} (hlow : -2147483648 ≤ id) (hhigh : id ≤ 2147483647) :
    (∃ u ∈ s.users, u.id = Int64.ofInt id) ↔ rows s id ≠ none := by
  have hid : (Int64.ofInt id).toInt = id := Int64.toInt_ofInt_of_le (by omega) (by omega)
  rw [ne_eq, rows_none, not_not]
  constructor
  · rintro ⟨u, hu, hu'⟩
    exact ⟨u, hu, by rw [hu', hid]⟩
  · rintro ⟨u, hu, hu'⟩
    exact ⟨u, hu, Int64.toInt_inj.mp (hu'.trans hid.symm)⟩

theorem Presents.unique {id id' : ℤ} (h : Presents app m request id)
    (h' : Presents app m request id') : id = id' := by
  obtain ⟨_, _, user, hheader, _, htoken, rfl⟩ := h
  obtain ⟨_, _, user', hheader', _, htoken', rfl⟩ := h'
  rw [hheader] at hheader'
  cases hheader'
  rw [htoken] at htoken'
  cases htoken'
  rfl

/-- Behind the middleware no handler runs for a request that it refuses. -/
theorem refused_no_handler {h : Handlers} (hauth : h.authentication = authentication app s m)
    (hpath : startsWith (normalizeTarget request) "/users".toList = true)
    (hrefused : ∀ id, (authenticate app request m s).result ≠ .ok (.ok id)) :
    (dispatch app.lib app.env (router h) request).trace.find? Event.isHandler = none := by
  have hguard : ∀ (tmpl : Str) (method : Verb) (fn : RouteFn) (r : Request),
      r.headers = request.headers →
        (chained s m (normalizeTarget request) tmpl method fn r).trace.find? Event.isHandler =
          none := by
    intro tmpl method fn r hr
    refine (chained_event s m _ tmpl method fn r).resolve_right fun ⟨_, hpassed⟩ => ?_
    obtain ⟨id, hid⟩ := hpassed hpath
    rw [authenticate_headers hr] at hid
    exact hrefused id hid
  have hexit := dispatch_exit hauth request
  generalize (dispatch app.lib app.env (router h) request).trace.find? Event.isHandler = event
    at hexit ⊢
  generalize (dispatch app.lib app.env (router h) request).result = result at hexit
  cases hexit with
  | closed => rfl
  | options => rfl
  | handled matched serves run hrun =>
    rw [hrun]
    exact hguard _ _ _ _ (checked_head _ _ _).headers
  | head matched method serves run hrun =>
    rw [hrun]
    exact hguard _ _ _ _ rfl

/-- Once the row of an account is gone, no token of it lets a request through to a handler under
`/users`, whatever happens in between and whoever registers. -/
theorem deleted_account_locked_out (app : Application) (before later : List Call) {id : ℤ}
    (hgiven : id < (afterCalls app (migrated app.db) before).next_id)
    (hgone : rows (afterCalls app (migrated app.db) before) id = none)
    {m : Moment} {h : Handlers}
    (hauth : h.authentication =
      authentication app (afterCalls app (migrated app.db) (before ++ later)) m)
    {request : Request} (hpath : startsWith (normalizeTarget request) "/users".toList = true)
    (htoken : Presents app m request id) :
    (dispatch app.lib app.env (router h) request).trace.find? Event.isHandler = none := by
  refine refused_no_handler hauth hpath fun id' hin => ?_
  obtain ⟨hpresents, _, hrow⟩ := authenticate_iff.mp hin
  cases hpresents.unique htoken
  obtain ⟨hlow, hhigh⟩ := hpresents.range
  obtain ⟨row, hrow⟩ := Option.ne_none_iff_exists'.mp ((row_iff hlow hhigh).mp hrow)
  rw [afterCalls_append] at hrow
  obtain ⟨old, hold, _⟩ := call_row_kept (Behind.afterCalls app before) later hgiven hrow
  rw [hgone] at hold
  cases hold

/-- Canonical paths stay as they are. -/
def gateApp : Application := { annApp with os := ServerErrors.plainApp.os }

def deleteRequest : Request :=
  { annRequest "/users/1" with
    method := .delete_
    path_params := [("id".toList, "1".toList)] }

/-- Ann registers and her account is removed. -/
def removedCalls : List Call :=
  [.registration (annRequest "/register") firstMoment,
    .remove deleteRequest FileSystemService.noFiles ⟨false, none, .done 0⟩]

theorem annRequest_presents : Presents gateApp firstMoment (annRequest "/users") 1 :=
  ⟨"Authorization".toList, "Bearer ".toList ++ firstToken, ⟨1, none, none, none, none⟩, rfl,
    (bearer_token firstToken).1, firstToken_decoded (by decide), rfl⟩

/-- The next registration with her address does not bring her tokens back. -/
theorem deleted_account_locked_out_ann :
    (dispatch gateApp.lib gateApp.env (router (accountHandlers gateApp noHandlers
      (afterCalls gateApp (migrated gateApp.db)
        (removedCalls ++ [.registration (annRequest "/register") secondMoment])) firstMoment))
      (annRequest "/users")).trace.find? Event.isHandler = none :=
  deleted_account_locked_out gateApp removedCalls
    [.registration (annRequest "/register") secondMoment] (by decide +kernel) (by decide +kernel)
    rfl (by decide) annRequest_presents

/-! ### Let in -/

/-- In every run of calls the token of a login is good for one account, and as long as it has not
expired it opens the routes under `/users` exactly while the row of this account is there. An id
that an `int` cannot hold never does. -/
theorem token_opens_while_row (app : Application) (before later : List Call) {request : Request}
    {m : Moment} {token : Str}
    (hlogin : (AuthenticationController.login app request m
      (afterCalls app (migrated app.db) before)).result =
        .ok (created request (tokensBody token)))
    (hjwt : ∀ u ∈ (afterCalls app (migrated app.db) before).users,
      app.jwt.Honours JwtService.header (JwtService.payload u.entity m.issued m.expiry)
        app.secret_key)
    (hdb : app.db.toPostgres.Documented) {moment : Moment} (hissued : m.issued ≤ moment.received)
    (hexpiry : moment.received <
      JwtService.to_time_t (m.expiry + 3600 * JwtService.second) * JwtService.second)
    {r : Request} {name : Str}
    (hheader : r.headers.find? (fun e => toLower e.1 = "authorization".toList) =
      some (name, "Bearer ".toList ++ token)) :
    ∃ u ∈ (afterCalls app (migrated app.db) before).users, ∀ id,
      (authenticate app r moment (afterCalls app (migrated app.db) (before ++ later))).result =
          .ok (.ok id) ↔
        id = u.id.toInt ∧ id ≤ 2147483647 ∧
          ∃ row, rows (afterCalls app (migrated app.db) (before ++ later)) id = some row ∧
            row.created_at = u.row.created_at := by
  obtain ⟨j, data, u, _, _, hg⟩ := login_granted_iff.mp hlogin
  have hu : u ∈ (afterCalls app (migrated app.db) before).users :=
    List.mem_of_find?_eq_some hg.found
  have hid := (Behind.afterCalls app before).ids u hu
  obtain ⟨hbearer, hdrop⟩ := bearer_token token
  obtain ⟨token', hencode, hdecode⟩ := JwtService.decode_encode (hjwt u hu) hissued hexpiry
  obtain rfl : token' = token := Except.ok.inj (hencode.symm.trans hg.signed)
  have hpresents : ∀ id, Presents app moment r id ↔ id = u.id.toInt ∧ id ≤ 2147483647 := by
    intro id
    have hentity : u.entity.id = u.id.toInt := rfl
    rw [stoi_eq, hentity] at hdecode
    constructor
    · rintro ⟨_, auth, user, hheader', _, htoken, rfl⟩
      rw [hheader] at hheader'
      cases hheader'
      rw [hdrop, hdecode] at htoken
      by_cases hle : u.id.toInt ≤ 2147483647
      · rw [readInteger_to_string _ (by omega) hle] at htoken
        cases htoken
        exact ⟨rfl, hle⟩
      · rw [readInteger_beyond _ (.inr (by omega))] at htoken
        cases htoken
    · rintro ⟨rfl, hle⟩
      rw [readInteger_to_string _ (by omega) hle] at hdecode
      exact ⟨name, _, _, hheader, hbearer, hdrop ▸ hdecode, rfl⟩
  refine ⟨u, hu, fun id => ?_⟩
  rw [authenticate_iff, hpresents, and_assoc]
  refine and_congr_right fun hsame => and_congr_right fun hle => ?_
  have hbind : bindable app.db [some (idText (Int64.ofInt id))] = true := by
    have hencoded := hdb.ascii _ (SqlBuilder.to_string_ascii (Int64.ofInt id).toInt)
    change (app.db.encoded (c_str (to_string (Int64.ofInt id).toInt)) && true) = true
    rw [SqlBuilder.c_str_to_string, hencoded]
    rfl
  rw [and_iff_right hbind, row_iff (by omega) hle, Option.ne_none_iff_exists']
  refine exists_congr fun row => (and_iff_left_of_imp fun hrow => ?_).symm
  rw [afterCalls_append] at hrow
  obtain ⟨old, hold, hcreated⟩ :=
    call_row_kept (Behind.afterCalls app before) later (hsame ▸ hid.2) hrow
  rw [hsame, rows_of_mem hu] at hold
  cases hold
  exact hcreated.symm

def annRow : StoredUser :=
  ⟨1, "ann".toList, none, some "ann@x.org".toList, some "1$secret".toList, 100, 100⟩

theorem gateApp_rows :
    (afterCalls gateApp (migrated gateApp.db) annCalls).users = [annRow] := by decide +kernel

theorem gateApp_logs_in :
    (AuthenticationController.login gateApp (annRequest "/login") firstMoment
      (afterCalls gateApp (migrated gateApp.db) annCalls)).result =
        .ok (created (annRequest "/login") (tokensBody firstToken)) :=
  login_granted_iff.mpr ⟨annBody, _, annRow, rfl, annBody_logs_in, by decide +kernel,
    by decide +kernel, ⟨_, _, rfl, rfl⟩, rfl, rfl⟩

theorem token_opens_while_row_ann :
    ∃ u ∈ (afterCalls gateApp (migrated gateApp.db) annCalls).users, ∀ id,
      (authenticate gateApp (annRequest "/users") firstMoment
          (afterCalls gateApp (migrated gateApp.db) (annCalls ++ removedCalls))).result =
          .ok (.ok id) ↔
        id = u.id.toInt ∧ id ≤ 2147483647 ∧
          ∃ row, rows (afterCalls gateApp (migrated gateApp.db) (annCalls ++ removedCalls)) id =
            some row ∧ row.created_at = u.row.created_at := by
  have hheader : (annRequest "/users").headers.find?
      (fun e => toLower e.1 = "authorization".toList) =
        some ("Authorization".toList, "Bearer ".toList ++ firstToken) := rfl
  have hissued : firstMoment.issued ≤ firstMoment.received := by decide
  refine token_opens_while_row gateApp annCalls removedCalls gateApp_logs_in (fun u hu => ?_)
    plainServer_documented hissued (by decide) hheader
  rw [gateApp_rows] at hu
  cases List.mem_singleton.mp hu
  exact JwtService.oneToken_honours _ _ _ _

end AdequateApi.AccountAccess
