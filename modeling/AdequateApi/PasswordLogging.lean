import AdequateApi.PasswordTwins

/-! Which records of a request show its password: two runs from one state, whose requests differ
in the password only and whose hasher and database answer alike, and when they leave the same
records. -/
namespace AdequateApi.PasswordLogging
open StdString MultipartForm DbConnection HttpMessages UsersRepository AdequateApi.UsersService
  AdequateApi.UsersController AccountSerializers AccountStore AccountServices LoggedAction Action
  RouterModel ApplicationRoutes AccountCreation RequestLog RequestLogRoutes PasswordTwins
open JsonText (readingOnly)

/-! ### Two requests from one state -/

/-- The second request is the first with another body of the same length. -/
structure SameButBody (r r' : Request) : Prop where
  same : r' = { r with body := r'.body }
  length : r'.body.length = r.body.length

theorem SameButBody.dispatchedLog {r r' : Request} (h : SameButBody r r') :
    RequestLog.dispatchedLog r' = RequestLog.dispatchedLog r := by
  have hsize : sizeValue r'.body = sizeValue r.body := by rw [sizeValue, h.length, sizeValue]
  have htype : contentTypeRecord r' = contentTypeRecord r := by
    rw [contentTypeRecord, hsize, h.same]
    rfl
  unfold RequestLog.dispatchedLog
  rw [htype, h.same]
  rfl

/-- Both bodies are one JSON value, but for the password. -/
structure JsonTwins (lib : Library) (env : EnvConfig) (method : Verb) (path : Str) (j : Json)
    (p p' : Str) (r r' : Request) : Prop extends SameButBody r r' where
  sends : SendsJson lib env method path (withPassword j p) r
  body' : lib.parse_json r'.body = .ok (withPassword j p')

theorem JsonTwins.sends' {lib : Library} {env : EnvConfig} {method : Verb} {path : Str} {j : Json}
    {p p' : Str} {r r' : Request} (h : JsonTwins lib env method path j p p' r r') :
    SendsJson lib env method path (withPassword j p') r' := by
  have hsize : r'.body.length ≤ env.file_upload_limit_size := h.length ▸ h.sends.size
  have hbody := h.body'
  rw [h.same] at hbody hsize ⊢
  exact ⟨h.sends.method, h.sends.target, h.sends.content_type, hsize, hbody⟩

/-- Both forms have the same parts, but for the last field with the password. -/
structure FormTwins (lib : Library) (env : EnvConfig) (segment : Str) (before after : List Part)
    (contentType : Str) (headers : Dict Str) (p p' : Str) (r r' : Request) : Prop
    extends SameButBody r r' where
  sends : SendsForm lib env segment (partsWith before after contentType headers p) r
  parts' : parse lib.poco r'.content_type r'.body =
    .ok (partsWith before after contentType headers p')
  last : ∀ part ∈ after, part.filename = [] → part.name ≠ "password".toList

theorem FormTwins.sends' {lib : Library} {env : EnvConfig} {segment : Str}
    {before after : List Part} {contentType : Str} {headers : Dict Str} {p p' : Str}
    {r r' : Request} (h : FormTwins lib env segment before after contentType headers p p' r r') :
    SendsForm lib env segment (partsWith before after contentType headers p') r' := by
  have hsize : r'.body.length ≤ env.file_upload_limit_size := h.length ▸ h.sends.size
  have hparts := h.parts'
  rw [h.same] at hparts hsize ⊢
  exact ⟨h.sends.method, h.sends.target, h.sends.segment, h.sends.content_type, h.sends.not_json,
    hsize, h.sends.adapter, hparts⟩

inductive Endpoint
  | register
  | login (email : Str)
  | create
  | patchJson (segment : Str)
  | patchForm (segment : Str)

/-- Two requests to one endpoint that its serializer accepts, with passwords that get the same
verdict from the hasher and the database. A JSON body never reaches the serializer of an update,
and `dump` writes different members differently. -/
inductive Twins (app : Application) (s : Accounts app.db) (m : Moment) (a a' : UpdateAnswers)
    (p p' : Str) (r r' : Request) : Endpoint → Prop
  | register {j : Json} {data : RegisterSerializer}
      (requests : JsonTwins app.lib app.env .post "/register".toList j p p' r r')
      (accepted : RegisterSerializer.from_json (withPassword j p) = .ok data)
      (verdict : (addAccount app s data.username data.email p m).2 =
        (addAccount app s data.username data.email p' m).2) :
      Twins app s m a a' p p' r r' .register
  | login {j : Json} {data : LoginSerializer}
      (requests : JsonTwins app.lib app.env .post "/login".toList j p p' r r')
      (accepted : LoginSerializer.from_json (withPassword j p) = .ok data)
      (verdict : loginVerdict app s data.email p = loginVerdict app s data.email p') :
      Twins app s m a a' p p' r r' (.login data.email)
  | create {j : Json} {data : UserCreateSerializer}
      (requests : JsonTwins app.lib app.env .post "/users".toList j p p' r r')
      (accepted : UserCreateSerializer.from_json (withPassword j p) = .ok data)
      (verdict : (addAccount app s data.username data.email p m).2 =
        (addAccount app s data.username data.email p' m).2) :
      Twins app s m a a' p p' r r' .create
  | patchJson {j : Json} {segment : Str} (hsegment : segment ≠ [] ∧ '/' ∉ segment)
      (requests : JsonTwins app.lib app.env .patch (userPath segment) j p p' r r')
      (has_body : r.body ≠ []) (received : r.multipart = none) :
      Twins app s m a a' p p' r r' (.patchJson segment)
  | patchForm {segment contentType : Str} {before after : List Part} {headers : Dict Str}
      {data data' : UserUpdateSerializer}
      (requests : FormTwins app.lib app.env segment before after contentType headers p p' r r')
      (accepted : from_json app.lib
        (formBody (formWith before after contentType headers p)) = .ok data)
      (accepted' : from_json app.lib
        (formBody (formWith before after contentType headers p')) = .ok data')
      (verdict : OtherHashAnswer a a')
      (lossless : p ≠ p' →
        app.lib.dump (formBody (formWith before after contentType headers p)) (-1) ≠
          app.lib.dump (formBody (formWith before after contentType headers p')) (-1)) :
      Twins app s m a a' p p' r r' (.patchForm segment)

/-- The middleware accepts the token. -/
def Authorized (app : Application) (s : Accounts app.db) (m : Moment) (r : Request) : Prop :=
  ∃ id, (authenticate app r m s).result = .ok (.ok id)

/-- No record shows a difference between the passwords: the endpoint does not log them, the
request ends before it would, or what it logs of them is the same. -/
def Unseen (app : Application) (s : Accounts app.db) (m : Moment) (p p' : Str) (r : Request) :
    Endpoint → Prop
  | .register | .patchJson _ => True
  | .login email => p = p' ∨ ¬ Known s email
  | .create => p = p' ∨ ¬ Authorized app s m r
  | .patchForm segment => p.take 80 = p'.take 80 ∧
      (p = p' ∨ ¬ (Authorized app s m r ∧ ∃ id, stoi segment = .ok id))

section agreement
variable {app : Application} {s : Accounts app.db} {t : State} {m : Moment} {a a' : UpdateAnswers}
  {others : Str → Verb → Request → List LogRecord} {base : Handlers} {p p' : Str} {r r' : Request}

theorem register_agrees {j : Json} {data : RegisterSerializer} (hlen : p'.length = p.length)
    (h : JsonTwins app.lib app.env .post "/register".toList j p p' r r')
    (hd : RegisterSerializer.from_json (withPassword j p) = .ok data)
    (hv : (addAccount app s data.username data.email p m).2 =
      (addAccount app s data.username data.email p' m).2) :
    requestLog app s t m a others base r = requestLog app s t m a' others base r' := by
  obtain ⟨hp, hd'⟩ := register_twin hlen hd
  rw [register_log h.sends, register_log h.sends', h.dispatchedLog,
    registration_run (h.sends.path_params []).json hd,
    registration_run (h.sends'.path_params []).json hd', hp]
  dsimp only
  rw [← hv, h.same]
  rfl

theorem obtainRecord_inj {email : Str} :
    obtainRecord ⟨email, p⟩ = obtainRecord ⟨email, p'⟩ ↔ p = p' := by
  simp [obtainRecord, info, texts]

theorem login_agrees_iff {j : Json} {data : LoginSerializer} (hlen : p'.length = p.length)
    (h : JsonTwins app.lib app.env .post "/login".toList j p p' r r')
    (hd : LoginSerializer.from_json (withPassword j p) = .ok data)
    (hv : loginVerdict app s data.email p = loginVerdict app s data.email p') :
    requestLog app s t m a others base r = requestLog app s t m a' others base r' ↔
      p = p' ∨ ¬ Known s data.email := by
  obtain ⟨hp, hd'⟩ := login_twin hlen hd
  obtain ⟨email, password⟩ := data
  obtain rfl : password = p := hp
  have hjson := (h.sends.path_params []).json
  have hjson' := (h.sends'.path_params []).json
  have haccepted : ∀ e, loginAccepted { r' with path_params := [] } e =
      loginAccepted { r with path_params := [] } e := by
    intro e
    rw [h.same]
    rfl
  rw [login_log h.sends, login_log h.sends', h.dispatchedLog, List.append_cancel_left_eq]
  by_cases hknown : Known s email
  · have hrest := loginTokens_matches (r := { r with path_params := [] })
      (grantTokens_matches (m := m) hv)
    have hsame : loginTokens app { r' with path_params := [] } (grantTokens app ⟨email, p'⟩ m) s =
        loginTokens app { r with path_params := [] } (grantTokens app ⟨email, p'⟩ m) s := by
      rw [h.same]
      rfl
    rw [login_known hjson hd hknown, login_known hjson' hd' hknown]
    dsimp only
    rw [hsame, haccepted, Ran.after_log, Ran.after_log, hrest.log, List.append_cancel_right_eq,
      List.append_cancel_left_eq, List.singleton_inj, obtainRecord_inj]
    simp [hknown]
  · rw [login_unknown hjson hd hknown, login_unknown hjson' hd' hknown, haccepted]
    simp [hknown]

theorem authenticate_same (h : SameButBody r r') :
    authenticate app r' m s = authenticate app r m s := by
  rw [h.same]
  rfl

/-- Behind the middleware the records of the handlers decide. -/
theorem authorizedLog_eq_iff (h : SameButBody r r') (handler handler' : ℤ → List LogRecord) :
    authorizedLog app s m r handler = authorizedLog app s m r' handler' ↔
      ∀ id, (authenticate app r m s).result = .ok (.ok id) → handler id = handler' id := by
  unfold authorizedLog
  rw [authenticate_same h, List.append_cancel_left_eq]
  cases (authenticate app r m s).result with
  | error e => simp
  | ok answer =>
    cases answer with
    | error outcome => simp
    | ok id => simp

theorem create_agrees_iff {j : Json} {data : UserCreateSerializer} (hlen : p'.length = p.length)
    (h : JsonTwins app.lib app.env .post "/users".toList j p p' r r')
    (hd : UserCreateSerializer.from_json (withPassword j p) = .ok data)
    (hv : (addAccount app s data.username data.email p m).2 =
      (addAccount app s data.username data.email p' m).2) :
    requestLog app s t m a others base r = requestLog app s t m a' others base r' ↔
      p = p' ∨ ¬ Authorized app s m r := by
  obtain ⟨hp, hd'⟩ := create_twin hlen hd
  obtain ⟨username, email, password⟩ := data
  obtain rfl : password = p := hp
  have hstore : ∀ id : ℤ,
      (AccountServices.UsersController.store app { r with path_params := [], user_id := some id }
          m s).log =
        (AccountServices.UsersController.store app
          { r' with path_params := [], user_id := some id } m s).log ↔ password = p' := by
    intro id
    have hjson : Request.json app.lib { r with path_params := [], user_id := some id } =
        .ok (withPassword j password) := h.sends.json
    have hjson' : Request.json app.lib { r' with path_params := [], user_id := some id } =
        .ok (withPassword j p') := h.sends'.json
    rw [store_run hjson hd, store_run hjson' hd']
    dsimp only
    rw [← hv, h.same]
    constructor
    · intro heq
      have hrest := List.append_cancel_left heq
      have hcreated := List.append_cancel_right hrest
      simpa [createLog, info, texts] using hcreated
    · rintro rfl
      rfl
  rw [create_log h.sends, create_log h.sends', h.dispatchedLog, List.append_cancel_left_eq,
    authorizedLog_eq_iff h.toSameButBody]
  simp only [hstore]
  constructor
  · intro hall
    by_cases hauth : Authorized app s m r
    · obtain ⟨id, hid⟩ := hauth
      exact .inl (hall id hid)
    · exact .inr hauth
  · rintro (hp | hauth) id hid
    · exact hp
    · exact absurd ⟨id, hid⟩ hauth

theorem patchJson_agrees {j : Json} {segment : Str} (hsegment : segment ≠ [] ∧ '/' ∉ segment)
    (h : JsonTwins app.lib app.env .patch (userPath segment) j p p' r r') (hbody : r.body ≠ [])
    (hform : r.multipart = none) :
    requestLog app s t m a others base r = requestLog app s t m a' others base r' := by
  have hbody' : r'.body ≠ [] := by
    intro hnil
    have hlength := h.length
    rw [hnil, List.length_nil, eq_comm, List.length_eq_zero_iff] at hlength
    exact hbody hlength
  have hform' : r'.multipart = none := by
    rw [h.same]
    exact hform
  rw [json_update_log h.sends hsegment hbody hform, json_update_log h.sends' hsegment hbody' hform',
    h.dispatchedLog]
  have hrefused : (fun _ : ℤ => refusedUpdateLog segment r') =
      fun _ => refusedUpdateLog segment r := by
    rw [h.same]
    rfl
  have hauthorized : authorizedLog app s m r' (fun _ => refusedUpdateLog segment r') =
      authorizedLog app s m r fun _ => refusedUpdateLog segment r := by
    rw [hrefused]
    exact ((authorizedLog_eq_iff h.toSameButBody _ _).mpr fun _ _ => rfl).symm
  rw [hauthorized, h.same]
  rfl

/-- Behind an accepted form, the texts of the two bodies decide. -/
theorem update_agrees_iff {segment text text' : Str} {form form' : Form} {id n : ℤ}
    {data : UserUpdateSerializer} (h : SameButBody r r')
    (hct : contains r.content_type "multipart/form-data".toList = true)
    (hform : OtherField form form' p p') (hn : stoi segment = .ok n)
    (hdump : app.lib.dump (formBody form) (-1) = .ok text)
    (hdump' : app.lib.dump (formBody form') (-1) = .ok text')
    (hd : from_json app.lib (formBody form) = .ok data) (hpassword : data.password = some p)
    (hd' : from_json app.lib (formBody form') = .ok { data with password := some p' })
    (ha : OtherHashAnswer a a') :
    (RequestLog.update app.toServices (handedOn segment (some form) r id) a t).log =
        (RequestLog.update app.toServices (handedOn segment (some form') r' id) a' t).log ↔
      text = text' := by
  have hread : readBody app.toServices (handedOn segment (some form) r id) =
      .ok (formBody form, formPicture form) := if_pos hct
  have hread' : readBody app.toServices (handedOn segment (some form') r' id) =
      .ok (formBody form', formPicture form) := by
    have hpicture : formPicture form' = formPicture form := by
      rw [formPicture, hform.files, formPicture]
    rw [h.same, ← hpicture]
    exact if_pos hct
  have hid : pathId (handedOn segment (some form) r id) = .ok n := by
    change (stoi segment).mapError Exn.std = _
    rw [hn]
    rfl
  have hid' : pathId (handedOn segment (some form') r' id) = .ok n := by
    change (stoi segment).mapError Exn.std = _
    rw [hn]
    rfl
  have hpassword' : ({ data with id := n } : UserUpdateSerializer).password = some p := hpassword
  have hrest := finishUpdate_matches (handedOn segment (some form) r id)
    (updateService_matches (t := t) app.toServices p' hpassword' ha (formPicture form))
  have hsame : ∀ x : Act State Unit, finishUpdate (handedOn segment (some form') r' id) x =
      finishUpdate (handedOn segment (some form) r id) x := by
    intro x
    rw [h.same]
    rfl
  rw [update_accepted hid hread hdump hd, update_accepted hid' hread' hdump' hd', hsame,
    Ran.after_log, Ran.after_log, hrest.log, List.append_cancel_right_eq]
  constructor
  · intro heq
    simp only [updateAccepted, acceptedLog, readUpdateLog, debug, texts, List.cons.injEq,
      List.map_cons, List.cons_append, LogRecord.mk.injEq, Prod.mk.injEq,
      LogValue.string.injEq] at heq
    exact heq.2.2.1.2.2.1.2
  · rintro rfl
    rw [h.same]
    rfl

theorem dump_accepted {lib : Library} {j : Json} {data : UserUpdateSerializer}
    (h : from_json lib j = .ok data) : ∃ text, lib.dump j (-1) = .ok text := by
  unfold from_json at h
  obtain ⟨text, htext, _⟩ := AccountSerializers.bind_ok.mp h
  cases hd : lib.dump j (-1) with
  | ok text => exact ⟨text, rfl⟩
  | error e =>
    rw [hd] at htext
    cases htext

theorem partLog_password {contentType : Str} {headers : Dict Str} (hlen : p'.length = p.length) :
    partLog (passwordPart contentType headers p) = partLog (passwordPart contentType headers p') ↔
      p.take 80 = p'.take 80 := by
  unfold partLog passwordPart
  dsimp only
  rw [hlen, if_pos rfl]
  simp [debug, texts]

section form
variable {segment contentType : Str} {before after : List Part} {headers : Dict Str}
  {data data' : UserUpdateSerializer}
  (h : FormTwins app.lib app.env segment before after contentType headers p p' r r')
  (hd : from_json app.lib (formBody (formWith before after contentType headers p)) = .ok data)
  (hd' : from_json app.lib (formBody (formWith before after contentType headers p')) = .ok data')
  (ha : OtherHashAnswer a a')
  (hlossless : p ≠ p' →
    app.lib.dump (formBody (formWith before after contentType headers p)) (-1) ≠
      app.lib.dump (formBody (formWith before after contentType headers p')) (-1))
include h hd hd' ha hlossless

theorem formUpdate_agrees_iff (id : ℤ) :
    (RequestLog.update app.toServices
        (handedOn segment (some (formWith before after contentType headers p)) r id) a t).log =
      (RequestLog.update app.toServices
        (handedOn segment (some (formWith before after contentType headers p')) r' id) a' t).log ↔
    p = p' ∨ ¬ ∃ n, stoi segment = .ok n := by
  have hform := formWith_twin before after contentType headers p p' h.last
  cases hn : stoi segment with
  | error e =>
    have hid : ∀ form q, pathId (handedOn segment form q id) = .error (.std e) := by
      intro form q
      change (stoi segment).mapError Exn.std = _
      rw [hn]
      rfl
    unfold RequestLog.update
    rw [hid, hid, lift_error_bind, lift_error_bind]
    simp
  | ok n =>
    obtain ⟨text, hdump⟩ := dump_accepted hd
    obtain ⟨text', hdump'⟩ := dump_accepted hd'
    rw [hform.body] at hd'
    obtain ⟨hpassword, hdata⟩ := update_twin hform.member hd hd'
    rw [← hform.body, hdata] at hd'
    have htexts : text = text' ↔ p = p' := by
      rw [hdump, hdump'] at hlossless
      constructor
      · intro htext
        by_contra hne
        exact hlossless hne (congrArg _ htext)
      · rintro rfl
        exact Except.ok.inj (hdump.symm.trans hdump')
    rw [update_agrees_iff h.toSameButBody h.sends.content_type hform hn hdump hdump' hd hpassword
      hd' ha]
    simp [htexts]

theorem patchForm_agrees_iff (hlen : p'.length = p.length) :
    requestLog app s t m a others base r = requestLog app s t m a' others base r' ↔
      p.take 80 = p'.take 80 ∧
        (p = p' ∨ ¬ (Authorized app s m r ∧ ∃ id, stoi segment = .ok id)) := by
  have hparts : ∀ q, (partsWith before after contentType headers q).flatMap partLog =
      before.flatMap partLog ++
        (partLog (passwordPart contentType headers q) ++ after.flatMap partLog) := by
    intro q
    rw [partsWith, List.flatMap_append, List.flatMap_cons]
  have hlength : (partLog (passwordPart contentType headers p)).length =
      (partLog (passwordPart contentType headers p')).length := rfl
  have hchain : authorizedLog app s m r _ = authorizedLog app s m r' _ ↔ _ :=
    authorizedLog_eq_iff h.toSameButBody
    (fun id => (RequestLog.update app.toServices
      (handedOn segment (some (formWith before after contentType headers p)) r id) a t).log)
    (fun id => (RequestLog.update app.toServices
      (handedOn segment (some (formWith before after contentType headers p')) r' id) a' t).log)
  simp only [formUpdate_agrees_iff h hd hd' ha hlossless] at hchain
  rw [form_log h.sends, form_log h.sends', h.dispatchedLog, List.append_cancel_left_eq, hparts,
    hparts, List.append_assoc, List.append_assoc, List.append_assoc, List.append_assoc,
    List.append_cancel_left_eq]
  constructor
  · intro heq
    obtain ⟨hpart, hrest⟩ := List.append_inj heq hlength
    refine ⟨(partLog_password hlen).mp hpart, ?_⟩
    have hall := hchain.mp (List.append_cancel_left hrest)
    by_cases hreached : Authorized app s m r ∧ ∃ id, stoi segment = .ok id
    · obtain ⟨⟨id, hid⟩, hn⟩ := hreached
      exact .inl ((hall id hid).resolve_right (not_not.mpr hn))
    · exact .inr hreached
  · rintro ⟨htake, hor⟩
    rw [(partLog_password hlen).mpr htake]
    refine congrArg _ (congrArg _ (hchain.mpr fun id hid => ?_))
    rcases hor with hp | hnot
    · exact .inl hp
    · exact .inr fun hn => hnot ⟨⟨id, hid⟩, hn⟩

end form

/-- The second password is in the records of creating a user, of an update by a form, and of a
login to an account that is there. -/
theorem logs_agree_iff {endpoint : Endpoint} (hlen : p'.length = p.length)
    (h : Twins app s m a a' p p' r r' endpoint) :
    requestLog app s t m a others base r = requestLog app s t m a' others base r' ↔
      Unseen app s m p p' r endpoint := by
  cases h with
  | register requests accepted verdict =>
    have hagree := @register_agrees app s t m a a' others base p p' r r' _ _ hlen requests accepted
      verdict
    exact ⟨fun _ => trivial, fun _ => hagree⟩
  | login requests accepted verdict => exact login_agrees_iff hlen requests accepted verdict
  | create requests accepted verdict => exact create_agrees_iff hlen requests accepted verdict
  | patchJson hsegment requests has_body received =>
    have hagree := @patchJson_agrees app s t m a a' others base p p' r r' _ _ hsegment requests
      has_body received
    exact ⟨fun _ => trivial, fun _ => hagree⟩
  | patchForm requests accepted accepted' verdict lossless =>
    exact patchForm_agrees_iff requests accepted accepted' verdict lossless hlen

end agreement

/-! ### Two passwords in the log -/

def bananaText : Str :=
  "\x7b\"username\":\"ann\",\"email\":\"ann@x.org\",\"password\":\"banana\"\x7d".toList

/-- Reads the two texts, and nothing else. -/
def twoTexts : Library :=
  readingOnly [(annText, annBody), (bananaText, withPassword annBody "banana".toList)]

def twoTextsApp : Application := { annApp with lib := twoTexts }

def bananaRequest (target : String) : Request := { annRequest target with body := bananaText }

theorem read_banana :
    twoTexts.parse_json bananaText = .ok (withPassword annBody "banana".toList) := by
  have hfind : Dict.find [(annText, annBody), (bananaText, withPassword annBody "banana".toList)]
      bananaText = some (withPassword annBody "banana".toList) := by
    have hne : ¬ annText = bananaText := by decide
    simp [Dict.find, hne]
  simp only [twoTexts, readingOnly, hfind]

theorem texts_twins {target : String}
    (h : normalizeTarget (annRequest target) = target.toList) :
    JsonTwins twoTextsApp.lib twoTextsApp.env .post target.toList annBody "secret".toList
      "banana".toList (annRequest target) (bananaRequest target) := by
  have hlength : bananaText.length = annText.length := by decide
  have hsize : annText.length ≤ 1000 := by decide
  have hct : contains (annRequest target).content_type "application/json".toList = true := rfl
  exact ⟨⟨rfl, hlength⟩, ⟨rfl, h, .inl hct, hsize, rfl⟩, read_banana⟩

def noFiles : State := ⟨⟨fun _ => none, fun _ => false⟩, fun _ => none⟩

def plainAnswers : UpdateAnswers :=
  ⟨.ok "h".toList, false, none,
    ⟨none, fun _ => 0, fun _ => 0, true, none, true, none, true⟩, .done 0⟩

/-- All records of a request to the store with one account. -/
def recordsOf (r : Request) : List LogRecord :=
  @requestLog twoTextsApp oneAccount noFiles firstMoment plainAnswers (fun _ _ _ => []) noHandlers r

theorem same_verdict :
    (@addAccount twoTextsApp oneAccount "ann".toList "ann@x.org".toList "secret".toList
        firstMoment).2 =
      (@addAccount twoTextsApp oneAccount "ann".toList "ann@x.org".toList "banana".toList
        firstMoment).2 := by
  decide +kernel

theorem register_twins :
    @Twins twoTextsApp oneAccount firstMoment plainAnswers plainAnswers "secret".toList
      "banana".toList (annRequest "/register") (bananaRequest "/register") .register :=
  .register (texts_twins (by decide)) annBody_registers same_verdict

theorem create_twins :
    @Twins twoTextsApp oneAccount firstMoment plainAnswers plainAnswers "secret".toList
      "banana".toList (annRequest "/users") (bananaRequest "/users") .create :=
  .create (texts_twins (by decide)) annBody_creates same_verdict

theorem secret_authorized :
    @Authorized twoTextsApp oneAccount firstMoment (annRequest "/users") := by
  have hheader : (annRequest "/users").headers.find?
      (fun e => toLower e.1 = "authorization".toList) =
        some ("Authorization".toList, "Bearer ".toList ++ firstToken) := rfl
  have htoken : JwtService.decode twoTextsApp.jwt twoTextsApp.secret_key
      (("Bearer ".toList ++ firstToken).drop 7) firstMoment.received =
        .ok ⟨1, none, none, none, none⟩ := firstToken_decoded (by decide)
  have hrow : ∃ u ∈ oneAccount.users, u.id = Int64.ofInt 1 :=
    ⟨stored 1 "root", List.mem_singleton.mpr rfl, rfl⟩
  refine ⟨1, ?_⟩
  rw [@authenticate_ok twoTextsApp _ _ _ _ _ _ hheader (by decide) htoken rfl hrow]

theorem same_length : "banana".toList.length = "secret".toList.length := by decide

theorem logs_agree_iff_ann :
    recordsOf (annRequest "/register") = recordsOf (bananaRequest "/register") :=
  (logs_agree_iff same_length register_twins).mpr trivial

/-- Two passwords of one length, both taken for a new user, leave different records. -/
theorem created_password_logged :
    @Twins twoTextsApp oneAccount firstMoment plainAnswers plainAnswers "secret".toList
        "banana".toList (annRequest "/users") (bananaRequest "/users") .create ∧
      recordsOf (annRequest "/users") ≠ recordsOf (bananaRequest "/users") := by
  have htwins : JsonTwins twoTextsApp.lib twoTextsApp.env .post "/users".toList annBody
      "secret".toList "banana".toList (annRequest "/users") (bananaRequest "/users") :=
    texts_twins (by decide)
  have hcreates : UserCreateSerializer.from_json (withPassword annBody "secret".toList) =
      .ok ⟨"ann".toList, "ann@x.org".toList, "secret".toList⟩ := annBody_creates
  refine ⟨create_twins, fun hsame => ?_⟩
  rcases (create_agrees_iff same_length htwins hcreates same_verdict).mp hsame with hp | hnot
  · exact absurd hp (by decide)
  · exact hnot secret_authorized

end AdequateApi.PasswordLogging
