import AdequateApi.AnswerKinds
import AdequateApi.UserPictureName

/-! What a client may conclude from 204 when no other request is served meanwhile: which of the two
handlers ran, to its end, and what it did to the row and to the files. -/
namespace AdequateApi.MutationEffects
open StdString FileTree FileSystemService DbConnection HttpMessages UsersRepository UsersListing
  AdequateApi.UsersService AdequateApi.UsersController AccountStore AccountServices AccountCreation
  LoggedAction Action RouterModel ApplicationRoutes UsersIndex UserUpdateAnswers ServerErrors
  AccountStatements AccountCalls ApplicationDispatch AccountAccess ServerStep AnswerKinds

variable {app : Application} {st : Store app} {e : Surroundings} {request : Request}

/-! ### The handler behind a 204 -/

/-- A mutation that was answered with 204. -/
inductive Mutated (st : Store app) (e : Surroundings) (request : Request) : Store app → Prop
  | updated (segment : Str) (method : request.method = .patch)
      (path : normalizeTarget request = userPath segment)
      (auth : (st.world e).Authenticated request)
      (params : (st.handed e request).path_params = [("id".toList, segment)])
      (parsed : st.handed e request =
        checked app.lib app.env { request with path_params := [("id".toList, segment)] })
      (done : (AdequateApi.UsersController.update app.toServices (st.world e).state
        (st.handed e request) (st.answering e (st.handed e request))).2.map Outcome.status =
          .ok 204) :
      Mutated st e request (st.updated e (st.handed e request))
  | removed (segment : Str) (method : request.method = .delete_)
      (path : normalizeTarget request = userPath segment)
      (auth : (st.world e).Authenticated request)
      (params : (st.handed e request).path_params = [("id".toList, segment)])
      (done : (AdequateApi.UsersController.remove app.toServices (st.world e).state
        (st.handed e request) e.removing).2.map Outcome.status = .ok 204) :
      Mutated st e request (st.removed e (st.handed e request))

/-- An error of the router is not 204. -/
theorem closing_not_204 {lib : Library} {r : Request} {status : ℕ} {message : Str}
    {headers : Dict Str} {response : Response} (hstatus : status ∈ [400, 404, 405, 413, 415, 500])
    (h : (makeError lib r status message headers).bind (render lib r) = .ok response) :
    response.status ≠ 204 := by
  have hclosing : Kind r response ∧ Framed response ∧ response.status = status :=
    makeError_closing hstatus h
  obtain ⟨_, _, rfl⟩ := hclosing
  simp only [List.mem_cons, List.not_mem_nil, or_false] at hstatus
  omega

theorem step_mutated {response : Response} (h : (st.step e request).2 = .ok response)
    (h204 : response.status = 204) : Mutated st e request (st.step e request).1 := by
  obtain ⟨event, hafter, hreply⟩ := step_reply h
  rw [hafter]
  cases hreply with
  | refused r status message headers why hrendered =>
    exact absurd h204 (closing_not_204 (List.mem_of_mem_dropLast why.among) hrendered)
  | failed r message event hrendered => exact absurd h204 (closing_not_204 (by decide) hrendered)
  | options r matched method hrendered =>
    obtain ⟨_, _, hsame⟩ := makeOptions_keeping method hrendered
    exact absurd (hsame.symm.trans h204) (by decide)
  | @head entry params fn types event method serves full replied emptied =>
    have hfull : full.status = 204 := by
      rw [emptied] at h204
      exact h204
    cases replied with
    | refused text hrendered =>
      exact absurd ((rendered_unauthorized hrendered).1.symm.trans hfull) (by decide)
    | handled id o ho hhandled hrendered passed =>
      have hmem := (rendered_handled hhandled hrendered).1
      rw [hfull, statusesOf] at hmem
      split at hmem <;> exact absurd hmem (by decide)
  | @handled entry params fn types event matched serves replied =>
    obtain ⟨_, _, huser⟩ := selects_path (selects_of_match matched)
    have hhead := checked_head app.lib app.env { request with path_params := params }
    have hhanded : st.handed e request =
        checked app.lib app.env { request with path_params := params } := by
      unfold Store.handed
      rw [matched]
    rw [← hhanded] at replied hhead
    cases replied with
    | refused text hrendered =>
      exact absurd ((rendered_unauthorized hrendered).1.symm.trans h204) (by decide)
    | handled id o ho hhandled hrendered passed =>
      obtain ⟨hmem, hsame, _⟩ := rendered_handled hhandled hrendered
      rw [h204] at hmem hsame
      have hauth : startsWith (normalizeTarget request) "/users".toList = true →
          (st.world e).Authenticated request := by
        intro hbelow
        obtain ⟨id, hid⟩ := passed hbelow
        rw [authenticate_headers hhead.headers] at hid
        exact ⟨id, hid⟩
      change Mutated st e request
        (st.handled e (st.handed e request) entry.original request.method)
      generalize hm : request.method = method at serves hmem ⊢
      generalize entry.original = tmpl at huser serves hmem ⊢
      cases serves with
      | health => exact absurd hmem (by decide)
      | registration => exact absurd hmem (by decide)
      | login => exact absurd hmem (by decide)
      | index => exact absurd hmem (by decide)
      | store => exact absurd hmem (by decide)
      | swagger => exact absurd hmem (by decide)
      | update =>
        obtain ⟨segment, _, _, hpath, hparams⟩ := huser rfl
        rw [Store.handled, if_pos rfl]
        -- the handler does not read the id that the middleware adds
        have hdone : (AdequateApi.UsersController.update app.toServices (st.world e).state
            (st.handed e request) (st.answering e (st.handed e request))).2 = .ok o := ho
        exact .updated segment hm hpath (hauth (by rw [hpath]; rfl))
          (hhead.path_params.trans hparams) (by rw [hhanded, hparams])
          (by rw [hdone]; exact congrArg Except.ok hsame.symm)
      | remove =>
        obtain ⟨segment, _, _, hpath, hparams⟩ := huser rfl
        rw [Store.handled, if_pos rfl]
        have hdone : (AdequateApi.UsersController.remove app.toServices (st.world e).state
            (st.handed e request) e.removing).2 = .ok o := ho
        exact .removed segment hm hpath (hauth (by rw [hpath]; rfl))
          (hhead.path_params.trans hparams) (by rw [hdone]; exact congrArg Except.ok hsame.symm)

theorem pathId_stoi {r : Request} {segment : Str} {id : ℤ}
    (params : r.path_params = [("id".toList, segment)]) (h : pathId r = .ok id) :
    stoi segment = .ok id := by
  have hfind : r.path_params.find "id".toList = some segment := by
    rw [params]
    rfl
  cases hs : stoi segment with
  | error what =>
    rw [pathId_error hfind hs] at h
    cases h
  | ok v =>
    obtain rfl : v = id := Except.ok.inj ((pathId_ok hfind hs).symm.trans h)
    rfl

/-! ### What a PATCH did -/

/-- The entity that a PATCH sends: its fields, a hash in place of the password, and the name of
the stored file in place of the name of a file with content. -/
def patchEntity (app : Application) (m : Moment) (a : UpdateAnswers) (id : ℤ)
    (data : UserUpdateSerializer) (picture : IncomingFile) : UserEntity where
  id := id
  username := data.username
  email := data.email
  picture := if data.picture.isSome ∧ picture.bytes ≠ [] then
    some (pictureName app.toServices picture a.store) else data.picture
  password := data.password.bind fun p => (app.hasher.hash m.salt p).toOption

/-- The row after a PATCH: what was given, up to its first NUL, and the rest as it was. -/
def patchedRow (user : UserEntity) (now : ℤ) (row : Row) : Row where
  username := ((given user.username).map c_str).getD row.username
  picture := ((given user.picture).map c_str).or row.picture
  email := ((given user.email).map c_str).or row.email
  password := ((given user.password).map c_str).or row.password
  created_at := row.created_at
  updated_at := now

theorem repository_done {users : Table} {user : UserEntity} {q : QueryAnswer}
    (h : (UsersRepository.update users user q).2 = .ok ()) :
    ∃ now, q.executed = some now ∧ (UsersRepository.update users user q).1 =
      Function.update users user.id ((users user.id).map (patchedRow user now)) := by
  unfold UsersRepository.update at h ⊢
  rcases updateQuery_cases user with ⟨_, e, hq⟩ | ⟨_, query, hq, hchange⟩
  · rw [hq] at h
    cases h
  · rw [hq] at h ⊢
    cases q with
    | failed e carried => cases h
    | done now =>
      refine ⟨now, rfl, ?_⟩
      change query.change.apply now users = _
      rw [hchange, Change.apply]
      simp only [Row.update_sets]
      rfl

theorem hashed_entity {user hashed : UserEntity} {hash : Except Str Str}
    (h : hashPassword user hash = .ok hashed) :
    hashed = { user with password := user.password.bind fun _ => hash.toOption } := by
  obtain ⟨id, username, email, picture, password⟩ := user
  cases password with
  | none =>
    cases h
    rfl
  | some p =>
    cases hash with
    | error what => cases h
    | ok made =>
      cases h
      rfl

/-- The hasher is asked for the password that the serializer read. -/
theorem hashing_hash {data : UserUpdateSerializer} {m : Moment} {r : Request} {body : Json}
    {picture : IncomingFile} (a : UpdateAnswers)
    (hbody : readBody app.toServices r = .ok (body, picture))
    (hdata : from_json app.lib body = .ok data) :
    (hashing app r m a).hash = app.hasher.hash m.salt (data.password.getD []) := by
  have hpassword : requestPassword app.toServices r = data.password := by
    simp only [requestPassword, hbody, Option.bind_eq_bind, Except.toOption, Option.bind_some,
      show from_json app.toServices.lib body = _ from hdata]
  rw [hashing, hpassword]

/-- A PATCH that succeeds sends this entity; a file with content is then on the disk, and without
one the disk is as it was. -/
theorem sent_entity {data : UserUpdateSerializer} {a : UpdateAnswers} {id : ℤ} {m : Moment}
    {hash : Except Str Str} {picture : IncomingFile} {disk disk' : Disk} {user user' : UserEntity}
    (hmade : hash = app.hasher.hash m.salt (data.password.getD []))
    (hhash : hashPassword { data with id := id }.toEntity hash = .ok user)
    (hpicture : replacePicture app.toServices disk user picture a = (disk', .ok user')) :
    user' = patchEntity app m a id data picture ∧
      (data.picture.isSome ∧ picture.bytes ≠ [] → disk'.files (picturePath app.toServices id ++
        [pictureName app.toServices picture a.store]) = some picture.bytes) ∧
      (¬ (data.picture.isSome ∧ picture.bytes ≠ []) → disk' = disk) := by
  have hpassword : (data.password.bind fun _ => hash.toOption) =
      data.password.bind fun p => (app.hasher.hash m.salt p).toOption := by
    rw [hmade]
    cases data.password <;> rfl
  have huser := hashed_entity hhash
  have hfields : user.id = id ∧ user.picture = data.picture := by
    rw [huser]
    exact ⟨rfl, rfl⟩
  by_cases taken : user.picture.isSome ∧ picture.bytes ≠ []
  · obtain ⟨hsent, hgenerated⟩ := replacePicture_taken app.toServices taken hpicture
    rw [hfields.2] at taken
    refine ⟨?_, fun _ => ?_, fun hnot => absurd taken hnot⟩
    · rw [hsent, huser, patchEntity, if_pos taken, ← hpassword]
      rfl
    · rw [← hfields.1]
      exact hgenerated.file
  · rw [replacePicture_none app.toServices taken] at hpicture
    cases hpicture
    rw [hfields.2] at taken
    refine ⟨?_, fun h => absurd h taken, fun _ => rfl⟩
    rw [huser, patchEntity, if_neg taken, ← hpassword]
    rfl

/-- What a PATCH of a user did: the row of this user, if there is one, has the given values and
otherwise its old ones, and no other row changed; a picture with content is on the disk, and
without one the disk is as it was. -/
structure Rewritten (st t : Store app) (e : Surroundings) (id : ℤ) (data : UserUpdateSerializer)
    (picture : IncomingFile) : Prop where
  row : ∃ now, rows t.accounts = Function.update (rows st.accounts) id
    ((rows st.accounts id).map
      (patchedRow (patchEntity app e.moment e.updating id data picture) now))
  stored : data.picture.isSome ∧ picture.bytes ≠ [] →
    t.disk.files (picturePath app.toServices id ++
      [pictureName app.toServices picture e.updating.store]) = some picture.bytes
  same_disk : ¬ (data.picture.isSome ∧ picture.bytes ≠ []) → t.disk = st.disk

theorem updated_rewritten {segment : Str} {r : Request}
    (params : r.path_params = [("id".toList, segment)])
    (done : (AdequateApi.UsersController.update app.toServices (st.world e).state r
      (st.answering e r)).2.map Outcome.status = .ok 204) :
    ∃ id body picture data, stoi segment = .ok id ∧
      readBody app.toServices r = .ok (body, picture) ∧ from_json app.lib body = .ok data ∧
      Rewritten st (st.updated e r) e id data picture := by
  obtain ⟨id, body, picture, data, hid, hbody, hdata, hok, ht⟩ :=
    update_answered_204 app.toServices done
  obtain ⟨user, disk', user', hhash, hpicture, hrepository, hservice⟩ :=
    update_succeeds app.toServices hok
  obtain ⟨now, _, hrows⟩ := repository_done hrepository
  obtain ⟨rfl, hfile, hsame⟩ := sent_entity (hashing_hash e.updating hbody hdata) hhash hpicture
  have hdisk : (st.updated e r).disk = disk' := by
    change (AdequateApi.UsersController.update app.toServices (st.world e).state r
      (st.answering e r)).1.disk = _
    rw [ht, hservice]
  refine ⟨id, body, picture, data, pathId_stoi params hid, hbody, hdata, ⟨now, ?_⟩, ?_, ?_⟩
  · rw [updated_rows, ht, hservice]
    exact hrows
  · rw [hdisk]
    exact hfile
  · rw [hdisk]
    exact hsame

/-- Poco reads the part of the request below, whatever the body. -/
def pictureApp : Application :=
  { gateApp with
    multipart_adapter := "POCO".toList
    lib := { annLibrary with poco := (formServices "png".toList).lib.poco } }

def pictureStore : Store pictureApp :=
  ⟨afterCalls pictureApp (migrated pictureApp.db) annCalls, FileSystemService.noFiles⟩

def patchFirst : Request :=
  { annRequest "/users/1" with
    method := .patch
    headers := [("Content-Type".toList, "multipart/form-data; boundary=b".toList),
      ("Authorization".toList, "Bearer ".toList ++ firstToken)]
    body := (formRequest "png".toList).body }

theorem patchFirst_answer : (pictureStore.step smooth patchFirst).2 = .ok goneAnswer := by
  decide +kernel

/-- The directory that a DELETE removes; the id is read as a `uint64_t`. -/
def removedPath (app : Application) (id : ℤ) : Path :=
  picturePath app.toServices (BitVec.ofInt 64 id).toNat

theorem remove_answered_204 {srv : Services} {s : State} {r : Request} {b : RemoveAnswers}
    (h : (AdequateApi.UsersController.remove srv s r b).2.map Outcome.status = .ok 204) :
    ∃ id, pathId r = .ok id ∧
      (UsersService.remove srv s (BitVec.ofInt 64 id) b).2 = .ok () ∧
      (AdequateApi.UsersController.remove srv s r b).1 =
        (UsersService.remove srv s (BitVec.ofInt 64 id) b).1 := by
  unfold AdequateApi.UsersController.remove at h ⊢
  cases hid : pathId r with
  | error e =>
    rw [hid] at h
    cases h
  | ok id =>
    rw [hid] at h
    dsimp only at h ⊢
    refine ⟨id, rfl, ?_⟩
    cases hr : UsersService.remove srv s (BitVec.ofInt 64 id) b with
    | mk t result =>
      rw [hr] at h
      cases result with
      | ok u => exact ⟨rfl, rfl⟩
      | error e =>
        cases e with
        | validation what => simp [errorResult, Outcome.status, Except.map] at h
        | _ => cases h

/-- Whether the directory is seen, when clearing it goes on. -/
theorem clearing_seen {srv : Services} {disk : Disk} {id : ℤ} {stat_fails : Bool}
    {removal : Option RemovalFailure} :
    (clearing srv disk id stat_fails removal = .absent →
      ¬ (stat_fails = false ∧ disk.exists_ (picturePath srv id) = true)) ∧
    (clearing srv disk id stat_fails removal = .emptied →
      stat_fails = false ∧ disk.exists_ (picturePath srv id) = true) := by
  unfold clearing
  split
  · simp
  · split
    · rename_i hunseen
      refine ⟨fun _ h => ?_, nofun⟩
      rcases hunseen with hstat | hexists
      · exact absurd (hstat.symm.trans h.1) (by decide)
      · exact absurd (hexists.symm.trans h.2) (by decide)
    · rename_i hseen
      have hboth : stat_fails = false ∧ disk.exists_ (picturePath srv id) = true := by
        simpa using hseen
      cases removal with
      | some f => simp
      | none => exact ⟨nofun, fun _ => hboth⟩

/-- A deletion that succeeds takes the row, and the directory if it was seen. -/
theorem remove_succeeds {srv : Services} {s : State} {id : BitVec 64} {b : RemoveAnswers}
    (h : (UsersService.remove srv s id b).2 = .ok ()) :
    (UsersService.remove srv s id b).1.users = Function.update s.users id.toInt none ∧
      ∀ q, (UsersService.remove srv s id b).1.disk.files q =
        if (b.stat_fails = false ∧ s.disk.exists_ (picturePath srv id.toNat) = true) ∧
            Disk.below (picturePath srv id.toNat) q = true then none
        else s.disk.files q := by
  have hquery : (UsersRepository.remove s.users id.toInt b.query).2 = .ok () →
      (UsersRepository.remove s.users id.toInt b.query).1 =
        Function.update s.users id.toInt none := by
    intro hok
    cases hb : b.query with
    | done now => rfl
    | failed e carried =>
      rw [hb] at hok
      cases hok
  obtain ⟨habsent, hemptied⟩ := @clearing_seen srv s.disk id.toNat b.stat_fails b.removal
  have hcleared := clearDirectory_cleared srv s.disk id.toNat b.stat_fails b.removal
  unfold UsersService.remove at h ⊢
  generalize clearing srv s.disk id.toNat b.stat_fails b.removal = c at habsent hemptied hcleared
  generalize clearDirectory srv s.disk (pictureDir id.toNat) b.stat_fails b.removal = r
    at h hcleared ⊢
  cases hcleared with
  | refused => cases h
  | failed => cases h
  | absent =>
    refine ⟨hquery h, fun q => ?_⟩
    rw [if_neg fun hseen => habsent rfl hseen.1]
  | emptied =>
    refine ⟨hquery h, fun q => ?_⟩
    simp [Disk.remove_all, hemptied rfl]

/-- What a DELETE of a user did: the row of this user is gone and no other row changed; if the
directory of the picture is seen, every file below it is gone and every other file is as it was. -/
structure Erased (st t : Store app) (e : Surroundings) (id : ℤ) : Prop where
  row : rows t.accounts = Function.update (rows st.accounts) id none
  files : ∀ q, t.disk.files q =
    if (e.removing.stat_fails = false ∧ st.disk.exists_ (removedPath app id) = true) ∧
        Disk.below (removedPath app id) q = true then none
    else st.disk.files q

theorem removed_erased {segment : Str} {r : Request}
    (params : r.path_params = [("id".toList, segment)])
    (done : (AdequateApi.UsersController.remove app.toServices (st.world e).state r
      e.removing).2.map Outcome.status = .ok 204) :
    ∃ id, stoi segment = .ok id ∧ Erased st (st.removed e r) e id := by
  obtain ⟨id, hid, hok, ht⟩ := remove_answered_204 done
  obtain ⟨hrows, hfiles⟩ := remove_succeeds hok
  have hstoi := pathId_stoi params hid
  obtain ⟨hlow, hhigh⟩ := AdequateApi.UsersController.stoi_range hstoi
  rw [AdequateApi.UsersController.toInt_ofInt hlow hhigh] at hrows
  refine ⟨id, hstoi, ?_, fun q => ?_⟩
  · rw [removed_rows, ht]
    exact hrows
  · change (AdequateApi.UsersController.remove app.toServices (st.world e).state r
      e.removing).1.disk.files q = _
    rw [ht]
    exact hfiles q

/-- What a client that is answered 204 to a DELETE may conclude, if the request was served alone:
the token is valid, the path names a user by number, and row and picture of this user are gone. -/
theorem delete_answered_204 (st : Store app) (e : Surroundings) (request : Request)
    {response : Response} (h : (st.step e request).2 = .ok response) (h204 : response.status = 204)
    (hmethod : request.method = .delete_) :
    ∃ segment id, normalizeTarget request = userPath segment ∧ stoi segment = .ok id ∧
      (st.world e).Authenticated request ∧ Erased st (st.step e request).1 e id := by
  have hmutated := step_mutated h h204
  generalize (st.step e request).1 = t at hmutated ⊢
  cases hmutated with
  | updated segment method => exact absurd (hmethod.symm.trans method) (by decide)
  | removed segment method path auth params done =>
    obtain ⟨id, hid, herased⟩ := removed_erased params done
    exact ⟨segment, id, path, hid, auth, herased⟩

theorem delete_answered_204_second :
    ∃ segment id, normalizeTarget deleteSecond = userPath segment ∧ stoi segment = .ok id ∧
      (annStore.world smooth).Authenticated deleteSecond ∧
      Erased annStore (annStore.step smooth deleteSecond).1 smooth id :=
  delete_answered_204 annStore smooth deleteSecond deleteSecond_answer rfl rfl

end AdequateApi.MutationEffects
