import AdequateApi.RefusedRequests

/-! The files of the server over whole runs of requests one after another: which directories a run
can change, and when every picture of a user is a file. Two changes of one user that are served at
the same time can leave a row without its picture (`UserPictureRace`); a run has none. -/
namespace AdequateApi.StoredPictures
open StdString FileTree FileSystemService DbConnection HttpMessages UsersRepository UsersListing
  AdequateApi.UsersService AdequateApi.UsersController AccountStore AccountServices AccountCreation
  RouterModel ApplicationRoutes UsersIndex UserUpdateAnswers AccountStatements AccountCalls
  ApplicationDispatch AccountAccess ServerStep AnswerKinds MutationEffects RefusedRequests

variable {app : Application} {st : Store app} {e : Surroundings} {request : Request}

/-! ### The directories that a run can change -/

/-- A request with a valid token whose path names a user, and the directory of this user; a DELETE
reads the id as a `uint64_t`. -/
inductive Reaches (st : Store app) (e : Surroundings) (request : Request) : Path → Prop
  | patch (segment : Str) (id : ℤ) (method : request.method = .patch)
      (path : normalizeTarget request = userPath segment) (named : stoi segment = .ok id)
      (auth : (st.world e).Authenticated request) :
      Reaches st e request (picturePath app.toServices id)
  | delete (segment : Str) (id : ℤ) (method : request.method = .delete_)
      (path : normalizeTarget request = userPath segment) (named : stoi segment = .ok id)
      (auth : (st.world e).Authenticated request) :
      Reaches st e request (removedPath app id)

/-- A request of the run reaches the directory, in the store as it is then. -/
def ReachedIn (p : Path) : Store app → List (Surroundings × Request) → Prop
  | _, [] => False
  | st, (e, request) :: rest => Reaches st e request p ∨ ReachedIn p (st.step e request).1 rest

/-- The files of a PATCH, or an id that cannot be read. -/
theorem updated_files {segment : Str} {r : Request}
    (params : r.path_params = [("id".toList, segment)]) :
    (∀ q, (st.updated e r).disk.files q = st.disk.files q) ∨
      ∃ id, stoi segment = .ok id ∧
        ∀ q, Disk.below (picturePath app.toServices id) q = false →
          (st.updated e r).disk.files q = st.disk.files q := by
  have hfind : r.path_params.find "id".toList = some segment := by
    rw [params]
    rfl
  have hrun : Patched app.toServices segment (st.world e).state _ :=
    ⟨r, st.answering e r, hfind, rfl⟩
  have hsame : (AdequateApi.UsersController.update app.toServices (st.world e).state r
      (st.answering e r)).1 = (st.world e).state →
      ∀ q, (st.updated e r).disk.files q = st.disk.files q := by
    intro h q
    change (AdequateApi.UsersController.update app.toServices (st.world e).state r
      (st.answering e r)).1.disk.files q = _
    rw [h]
    rfl
  cases hid : stoi segment with
  | error what => exact .inl (hsame (patched_rejects hid _ _ _ hrun).1)
  | ok id =>
    cases hbody : readBody app.toServices r with
    | error what =>
      left
      apply hsame
      rw [AdequateApi.UsersController.update, pathId_ok hfind hid, hbody]
    | ok read =>
      obtain ⟨body, picture⟩ := read
      cases hdata : from_json app.toServices.lib body with
      | error what =>
        left
        apply hsame
        rw [AdequateApi.UsersController.update, pathId_ok hfind hid, hbody]
        dsimp only
        rw [hdata]
        cases what <;> rfl
      | ok data =>
        refine .inr ⟨id, rfl, fun q hq => ?_⟩
        change (AdequateApi.UsersController.update app.toServices (st.world e).state r
          (st.answering e r)).1.disk.files q = _
        rw [update_state (st.answering e r) (pathId_ok hfind hid) hbody hdata]
        exact (update_frame app.toServices (st.world e).state { data with id := id } picture
          (st.answering e r)).2 q hq

theorem removed_files {segment : Str} {r : Request}
    (params : r.path_params = [("id".toList, segment)]) :
    (∀ q, (st.removed e r).disk.files q = st.disk.files q) ∨
      ∃ id, stoi segment = .ok id ∧ ∀ q, Disk.below (removedPath app id) q = false →
        (st.removed e r).disk.files q = st.disk.files q := by
  have hfind : r.path_params.find "id".toList = some segment := by
    rw [params]
    rfl
  have hrun : Deleted app.toServices segment (st.world e).state _ := ⟨r, e.removing, hfind, rfl⟩
  cases hid : stoi segment with
  | error what =>
    refine .inl fun q => ?_
    change (AdequateApi.UsersController.remove app.toServices (st.world e).state r
      e.removing).1.disk.files q = _
    rw [(deleted_rejects hid _ _ _ hrun).1]
    rfl
  | ok id =>
    refine .inr ⟨id, rfl, fun q hq => ?_⟩
    change (AdequateApi.UsersController.remove app.toServices (st.world e).state r
      e.removing).1.disk.files q = _
    rw [remove_state e.removing (pathId_ok hfind hid)]
    exact (remove_frame app.toServices (st.world e).state (BitVec.ofInt 64 id) e.removing).2 q hq

theorem step_files (st : Store app) (e : Surroundings) (request : Request) {q : Path}
    (h : (st.step e request).1.disk.files q ≠ st.disk.files q) :
    ∃ p, Reaches st e request p ∧ Disk.below p q = true := by
  have htouched := step_touched st e request
  generalize (st.step e request).1 = t at h htouched
  cases htouched with
  | nothing => exact absurd rfl h
  | registered method path => exact absurd rfl h
  | created method path auth => exact absurd rfl h
  | updated segment method path auth params =>
    rcases updated_files params with hsame | ⟨id, hid, hfiles⟩
    · exact absurd (hsame q) h
    · exact ⟨_, .patch segment id method path hid auth, by simpa using mt (hfiles q) h⟩
  | removed segment method path auth params =>
    rcases removed_files params with hsame | ⟨id, hid, hfiles⟩
    · exact absurd (hsame q) h
    · exact ⟨_, .delete segment id method path hid auth, by simpa using mt (hfiles q) h⟩

/-- Whatever requests a run has, one after another, and whatever they meet: a file that it
changes, adds or removes is below the directory of a user whom a PATCH or a DELETE of the run
names, with a token that is valid then. -/
theorem changed_files_were_reached (st : Store app) (requests : List (Surroundings × Request))
    {q : Path} (h : (st.run requests).1.disk.files q ≠ st.disk.files q) :
    ∃ p, ReachedIn p st requests ∧ Disk.below p q = true := by
  induction requests generalizing st with
  | nil => exact absurd rfl h
  | cons x rest ih =>
    obtain ⟨e, request⟩ := x
    by_cases hfirst : (st.step e request).1.disk.files q = st.disk.files q
    · obtain ⟨p, hreached, hbelow⟩ := ih (st.step e request).1 (by rw [hfirst]; exact h)
      exact ⟨p, .inr hreached, hbelow⟩
    · obtain ⟨p, hreached, hbelow⟩ := step_files st e request hfirst
      exact ⟨p, .inl hreached, hbelow⟩

/-- Where the picture of the first user comes to be. -/
def firstPicture : Path :=
  picturePath pictureApp.toServices 1 ++ [pictureName pictureApp.toServices
    ⟨[], "x.exe".toList, []⟩ smooth.updating.store]

theorem changed_files_were_reached_first :
    ∃ p, ReachedIn p pictureStore [(smooth, patchFirst)] ∧ Disk.below p firstPicture = true :=
  changed_files_were_reached pictureStore [(smooth, patchFirst)] (by decide +kernel)

/-! ### Every picture is a file -/

/-- Each picture that a row names is a file in the directory of its user. -/
def PicturesStored (st : Store app) : Prop :=
  ∀ (id : ℤ) (row : Row) (name : Str), 1 ≤ id → id ≤ 9223372036854775807 →
    rows st.accounts id = some row → row.picture = some name →
      (st.disk.files (picturePath app.toServices id ++ [name])).isSome

/-- A PATCH or a DELETE is answered, by neither a conflict nor an error of the server, and a PATCH
that names a picture has its content. -/
structure Completes (st : Store app) (e : Surroundings) (request : Request) : Prop where
  answered : request.method = .patch ∨ request.method = .delete_ →
    ∃ response, (st.step e request).2 = .ok response ∧ response.status ≠ 409 ∧
      response.status ≠ 500
  content : request.method = .patch → ∀ body picture data,
    readBody app.toServices (st.handed e request) = .ok (body, picture) →
      from_json app.lib body = .ok data → data.picture.isSome → picture.bytes ≠ []

/-- A PATCH or a DELETE that completes is answered 204, or changes nothing. -/
theorem mutation_completed (h : Completes st e request)
    (hmethod : request.method = .patch ∨ request.method = .delete_) :
    (st.step e request).1 = st ∨
      ∃ response, (st.step e request).2 = .ok response ∧ response.status = 204 := by
  obtain ⟨response, hr, h409, h500⟩ := h.answered hmethod
  obtain ⟨event, hafter, hreply⟩ := step_reply hr
  cases hreply with
  | refused r status message headers why hrendered => exact .inl hafter
  | failed r message event hrendered =>
    have hclosing : Kind r response ∧ Framed response ∧ response.status = 500 :=
      makeError_closing (by decide) hrendered
    exact absurd hclosing.2.2 h500
  | options r matched method hrendered => exact .inl hafter
  | head method serves replied emptied => exact .inl (by rw [hafter]; cases replied <;> rfl)
  | handled matched serves replied =>
    cases replied with
    | refused text hrendered => exact .inl hafter
    | handled id o ho hhandled hrendered passed =>
      obtain ⟨hmem, _⟩ := rendered_handled hhandled hrendered
      have hstatus : response.status ∈ changing := by
        rcases hmethod with hm | hm
        · rw [hm] at hmem
          exact hmem
        · rw [hm] at hmem
          exact hmem
      simp only [changing, List.mem_cons, List.not_mem_nil, or_false, h409, false_or] at hstatus
      rcases hstatus with h204 | h422
      · exact .inr ⟨response, hr, h204⟩
      · exact .inl (step_refused hr (by rw [h422]; decide))

/-- A new row names no picture. -/
theorem inserted_pictures (h : PicturesStored st) (n : NewUser) (now : ℤ) :
    PicturesStored { st with accounts := Write.apply st.accounts (.insert n now) } := by
  intro id row name hid hmax hrow hname
  change rows (st.accounts.insert n now).1 id = some row at hrow
  rcases insert_cases st.accounts n now with ⟨_, e, he⟩ | ⟨_, _, _, e, he⟩ | ⟨_, _, _, he⟩
  · rw [he] at hrow
    exact h id row name hid hmax hrow hname
  · rw [he] at hrow
    exact h id row name hid hmax hrow hname
  · rw [he, rows_append] at hrow
    by_cases hnew : id = st.accounts.nextId.toInt
    · rw [hnew, Function.update_self] at hrow
      cases hrow
      cases hname
    · rw [Function.update_of_ne hnew] at hrow
      exact h id row name hid hmax hrow hname

theorem written_pictures (h : PicturesStored st) {write : Option Write}
    (hinsert : ∀ w ∈ write, ∃ n now, w = .insert n now) :
    PicturesStored { st with accounts := written st.accounts write } := by
  cases write with
  | none => exact h
  | some w =>
    obtain ⟨n, now, rfl⟩ := hinsert w rfl
    exact inserted_pictures h n now

theorem accountWrite_insert {username email password : Str} {m : Moment} :
    ∀ w ∈ accountWrite app username email password m, ∃ n now, w = .insert n now := by
  intro w hw
  obtain ⟨hash, _, rfl⟩ := Option.map_eq_some_iff.mp hw
  exact ⟨_, _, rfl⟩

theorem registrationWrite_insert {r : Request} {m : Moment} :
    ∀ w ∈ registrationWrite app r m, ∃ n now, w = .insert n now := by
  intro w hw
  simp only [registrationWrite, Option.bind_eq_bind, Option.mem_def,
    Option.bind_eq_some_iff] at hw
  obtain ⟨j, _, data, _, hw⟩ := hw
  exact accountWrite_insert w hw

theorem storeWrite_insert {r : Request} {m : Moment} :
    ∀ w ∈ storeWrite app r m, ∃ n now, w = .insert n now := by
  intro w hw
  simp only [storeWrite, Option.bind_eq_bind, Option.mem_def, Option.bind_eq_some_iff] at hw
  obtain ⟨j, _, data, _, hw⟩ := hw
  exact accountWrite_insert w hw

/-- A path names one user at most. -/
theorem not_addressed {segment : Str} {id n : ℤ} (path : normalizeTarget request = userPath segment)
    (named : stoi segment = .ok id) (hne : n ≠ id) : ¬ Addresses st e request n := by
  rintro ⟨_, _, other, hpath, hid⟩
  have hsame : userPath segment = userPath other := path.symm.trans hpath
  rw [← List.append_cancel_left hsame, named] at hid
  exact hne (Except.ok.inj hid).symm

theorem below_append (p : Path) (name : Str) : Disk.below p (p ++ [name]) = true :=
  List.isPrefixOf_iff_prefix.mpr (List.prefix_append p [name])

/-- A PATCH with content for the picture it names keeps every picture stored. -/
theorem rewritten_pictures {t : Store app} {id : ℤ} {data : UserUpdateSerializer}
    {picture : IncomingFile} (h : PicturesStored st) (hr : Rewritten st t e id data picture)
    (hcontent : data.picture.isSome → picture.bytes ≠ [])
    (hothers : ∀ n, 1 ≤ n → n ≤ 9223372036854775807 → n ≠ id → Kept n st t) :
    PicturesStored t := by
  intro n row name hn hmax hrow hname
  obtain ⟨now, hrows⟩ := hr.row
  rw [hrows] at hrow
  by_cases hid : n = id
  · subst hid
    rw [Function.update_self] at hrow
    obtain ⟨before, hbefore, rfl⟩ := Option.map_eq_some_iff.mp hrow
    by_cases hnamed : data.picture.isSome
    · have htaken := And.intro hnamed (hcontent hnamed)
      have hpicture : (patchEntity app e.moment e.updating n data picture).picture =
          some (pictureName app.toServices picture e.updating.store) := if_pos htaken
      rw [patchedRow, hpicture, given_pictureName] at hname
      obtain rfl : pictureName app.toServices picture e.updating.store = name := by
        simpa only [Option.map_some, Option.or, c_str_pictureName, Option.some.injEq] using hname
      rw [hr.stored htaken]
      rfl
    · have hpicture : (patchEntity app e.moment e.updating n data picture).picture = none := by
        rw [patchEntity, if_neg fun h => hnamed h.1]
        exact Option.not_isSome_iff_eq_none.mp hnamed
      rw [patchedRow, hpicture] at hname
      rw [hr.same_disk fun h => hnamed h.1]
      exact h n before name hn hmax hbefore hname
  · rw [Function.update_of_ne hid] at hrow
    rw [(hothers n hn hmax hid).files _ (below_append _ _)]
    exact h n row name hn hmax hrow hname

theorem erased_pictures {t : Store app} {id : ℤ} (h : PicturesStored st) (hr : Erased st t e id)
    (hothers : ∀ n, 1 ≤ n → n ≤ 9223372036854775807 → n ≠ id → Kept n st t) :
    PicturesStored t := by
  intro n row name hn hmax hrow hname
  rw [hr.row] at hrow
  by_cases hid : n = id
  · rw [hid, Function.update_self] at hrow
    cases hrow
  · rw [Function.update_of_ne hid] at hrow
    rw [(hothers n hn hmax hid).files _ (below_append _ _)]
    exact h n row name hn hmax hrow hname

theorem step_pictures (h : PicturesStored st) (hc : Completes st e request) :
    PicturesStored (st.step e request).1 := by
  by_cases hmethod : request.method = .patch ∨ request.method = .delete_
  · rcases mutation_completed hc hmethod with hsame | ⟨response, hr, h204⟩
    · rw [hsame]
      exact h
    · have hmutated := step_mutated hr h204
      have hkept : ∀ segment id, normalizeTarget request = userPath segment →
          stoi segment = .ok id → ∀ n, 1 ≤ n → n ≤ 9223372036854775807 → n ≠ id →
            Kept n st (st.step e request).1 :=
        fun segment id path named n hn hmax hne =>
          step_kept hn hmax (not_addressed path named hne)
      generalize (st.step e request).1 = t at hmutated hkept ⊢
      cases hmutated with
      | updated segment method path auth params parsed done =>
        obtain ⟨id, body, picture, data, hid, hbody, hdata, hrewritten⟩ :=
          updated_rewritten params done
        exact rewritten_pictures h hrewritten (hc.content method body picture data hbody hdata)
          (hkept segment id path hid)
      | removed segment method path auth params done =>
        obtain ⟨id, hid, herased⟩ := removed_erased params done
        exact erased_pictures h herased (hkept segment id path hid)
  · have htouched := step_touched st e request
    generalize (st.step e request).1 = t at htouched ⊢
    cases htouched with
    | nothing => exact h
    | registered method path => exact written_pictures h registrationWrite_insert
    | created method path auth => exact written_pictures h storeWrite_insert
    | updated segment method => exact absurd (.inl method) hmethod
    | removed segment method => exact absurd (.inr method) hmethod

/-- Whatever registrations, logins, listings, changes and deletions a run has, each served alone:
if the changes and deletions complete, every picture that a row names stays a file in the
directory of its user. -/
theorem pictures_stay_stored (st : Store app) (requests : List (Surroundings × Request))
    (h : PicturesStored st) (hc : Along Completes st requests) :
    PicturesStored (st.run requests).1 := by
  let Keeps (s t : Store app) : Prop := PicturesStored s → PicturesStored t
  have hR : LoggedAction.Action.Composes Keeps := ⟨fun _ hs => hs, fun h h' hs => h' (h hs)⟩
  have hstep : ∀ s e request, Completes s e request → Keeps s (s.step e request).1 :=
    fun _ _ _ hc hs => step_pictures hs hc
  exact run_along hR hstep hc h

theorem patchFirst_completes : Completes pictureStore smooth patchFirst := by
  have hbytes : ((readBody pictureApp.toServices
      (pictureStore.handed smooth patchFirst)).toOption.map fun read => read.2.bytes) =
        some "png".toList := by decide +kernel
  refine ⟨fun _ => ⟨_, patchFirst_answer, by decide, by decide⟩,
    fun _ body picture data hbody _ _ => ?_⟩
  rw [hbody] at hbytes
  have hpng : picture.bytes = "png".toList := Option.some.inj hbytes
  rw [hpng]
  decide

theorem pictures_stay_stored_first : PicturesStored (pictureStore.run [(smooth, patchFirst)]).1 := by
  have hnone : ∀ u ∈ pictureStore.accounts.users, u.row.picture = none := by decide +kernel
  refine pictures_stay_stored pictureStore [(smooth, patchFirst)] ?_
    ⟨patchFirst_completes, trivial⟩
  intro id row name _ _ hrow hname
  obtain ⟨u, hu, _, rfl⟩ := mem_of_rows hrow
  rw [hnone u hu] at hname
  cases hname

end AdequateApi.StoredPictures
