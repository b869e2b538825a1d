import AdequateApi.UserPictureRace
import AdequateApi.UsersController

/-! Where the value of the picture column comes from when a form is accepted. -/
namespace AdequateApi.UsersController
open StdString FileTree MultipartForm FileSystemService UsersRepository HttpMessages UsersService

variable (srv : Services)

/-! ### The name in the entity -/

theorem from_json_picture {lib : Library} {j : Json} {data : UserUpdateSerializer}
    (h : from_json lib j = .ok data) : data.picture = from_json.picture j := by
  unfold from_json at h
  simp only [bind, Except.bind] at h
  split at h
  · cases h
  split at h
  · cases h
  split at h
  · cases h
  split at h
  · cases h
  split at h
  · cases h
    rfl
  · split at h
    · cases h
    · cases h
      rfl
  · cases h

theorem formBody_picture (form : Form) :
    member (formBody form) "picture".toList =
      (form.files.find "picture".toList).map fun f => .str f.filename := by
  have hmember : member (formBody form) "picture".toList =
      ((formMembers form).find? fun m => m.1 = "picture".toList).map Prod.snd := by
    unfold formBody
    cases formMembers form <;> rfl
  rw [hmember]
  unfold formMembers
  dsimp only
  cases form.fields.find "email".toList <;> cases form.fields.find "password".toList <;>
    cases form.files.find "picture".toList <;> cases form.fields.find "username".toList <;> rfl

/-- The entity of an accepted form names the file as the client did. -/
theorem picture_of_form {lib : Library} {form : Form} {data : UserUpdateSerializer}
    (hnames : ∀ k f, form.files.find k = some f → f.filename ≠ [])
    (h : from_json lib (formBody form) = .ok data) :
    data.picture = (form.files.find "picture".toList).map MultipartPart.filename := by
  rw [from_json_picture h]
  unfold from_json.picture
  rw [formBody_picture]
  cases hf : form.files.find "picture".toList with
  | none => rfl
  | some f =>
    simp only [Option.map_some]
    rw [if_neg (hnames _ f hf)]

/-! ### A successful update -/

theorem update_succeeds {s : State} {data : UserUpdateSerializer} {picture : IncomingFile}
    {a : UpdateAnswers} (h : (UsersService.update srv s data picture a).2 = .ok ()) :
    ∃ user disk user', hashPassword data.toEntity a.hash = .ok user ∧
      replacePicture srv s.disk user picture a = (disk, .ok user') ∧
      (UsersRepository.update s.users user' a.query).2 = .ok () ∧
      (UsersService.update srv s data picture a).1 =
        ⟨disk, (UsersRepository.update s.users user' a.query).1⟩ := by
  unfold UsersService.update at h ⊢
  cases hu : hashPassword data.toEntity a.hash with
  | error e =>
    rw [hu] at h
    cases h
  | ok user =>
    rw [hu] at h
    dsimp only at h ⊢
    cases hr : replacePicture srv s.disk user picture a with
    | mk disk res =>
      rw [hr] at h
      cases res with
      | error e => cases h
      | ok user' =>
        refine ⟨user, disk, user', rfl, hr, ?_, rfl⟩
        cases hw : (UsersRepository.update s.users user' a.query).2 with
        | error e =>
          simp only [hw] at h
          cases h
        | ok u => rfl

/-- `store` has just written the picture to this disk under this name. -/
structure Generated (disk : Disk) (id : ℤ) (picture : IncomingFile) (a : StoreAnswers)
    (name : Str) : Prop where
  store : ∃ before info, storePicture srv before id picture a = (disk, .ok info) ∧
    info.storedFileName = name
  form : GeneratedName srv.opts name
  file : storedFile srv disk id name = some picture.bytes

theorem generated_of_store {before disk : Disk} {id : ℤ} {picture : IncomingFile}
    {a : StoreAnswers} {info : StoredFileInfo}
    (h : storePicture srv before id picture a = (disk, .ok info)) :
    Generated srv disk id picture a (pictureName srv picture a) := by
  have hstored := storePicture_stored srv before id picture a
  rw [h] at hstored
  have hne : pictureName srv picture a ≠ tmpName a := storedName_ne_tmpName _ _ _ _
  refine ⟨⟨before, info, h, hstored.name⟩, storedName_generated _ _ _, ?_⟩
  rw [storedFile_done srv hstored hne, if_pos rfl]

/-- An empty file is never stored. -/
theorem not_generated_empty {disk : Disk} {id : ℤ} {picture : IncomingFile} {a : StoreAnswers}
    {name : Str} (h : picture.bytes = []) : ¬ Generated srv disk id picture a name := by
  rintro ⟨⟨before, info, hs, _⟩, _, _⟩
  unfold storePicture store at hs
  rw [if_pos h] at hs
  cases hs

theorem replacePicture_taken {disk disk' : Disk} {user user' : UserEntity}
    {picture : IncomingFile} {a : UpdateAnswers}
    (taken : user.picture.isSome ∧ picture.bytes ≠ [])
    (h : replacePicture srv disk user picture a = (disk', .ok user')) :
    user' = { user with picture := some (pictureName srv picture a.store) } ∧
      Generated srv disk' user.id picture a.store (pictureName srv picture a.store) := by
  unfold replacePicture at h
  rw [if_pos taken] at h
  split at h
  · cases h
  rename_i cleared _
  cases hs : storePicture srv cleared user.id picture a.store with
  | mk d res =>
    rw [hs] at h
    cases res with
    | error e => cases h
    | ok info =>
      have hstored := storePicture_stored srv cleared user.id picture a.store
      rw [hs] at hstored
      simp only [Prod.mk.injEq, Except.ok.injEq] at h
      obtain ⟨rfl, rfl⟩ := h
      exact ⟨by rw [hstored.name], generated_of_store srv hs⟩

/-- The picture column holds what it held before, or the name of a file just stored. -/
def PictureAccounted (s t : State) (id : ℤ) (picture : IncomingFile) (a : StoreAnswers) : Prop :=
  ∀ row', t.users id = some row' →
    (∃ row, s.users id = some row ∧ row'.picture = row.picture) ∨
      ∃ name, row'.picture = some name ∧ Generated srv t.disk id picture a name

theorem update_picture_iff {s : State} {data : UserUpdateSerializer} {picture : IncomingFile}
    {a : UpdateAnswers} (h : (UsersService.update srv s data picture a).2 = .ok ()) :
    PictureAccounted srv s (UsersService.update srv s data picture a).1 data.id picture a.store ↔
      ¬ (picture.bytes = [] ∧ ∃ name row, given data.picture = some name ∧
        s.users data.id = some row ∧ row.picture ≠ some (c_str name)) := by
  obtain ⟨user, disk, user', hu, hr, hok, ht⟩ := update_succeeds srv h
  obtain ⟨hid, hpicture⟩ : user.id = data.id ∧ user.picture = data.picture := hashPassword_ok hu
  rw [ht]
  unfold PictureAccounted
  dsimp only
  by_cases taken : user.picture.isSome ∧ picture.bytes ≠ []
  · obtain ⟨huser, hgen⟩ := replacePicture_taken srv taken hr
    have huid : user'.id = data.id := by rw [huser, ← hid]
    have hname : user'.picture = some (pictureName srv picture a.store) := by rw [huser]
    rw [hid] at hgen
    refine ⟨fun _ hc => taken.2 hc.1, fun _ row' hrow' => .inr ⟨_, ?_, hgen⟩⟩
    rw [← huid] at hrow'
    cases hrow : s.users user'.id with
    | none =>
      rw [update_missing hrow] at hrow'
      cases hrow'
    | some row =>
      obtain ⟨r, hr', hpic⟩ := update_generated srv hrow hname hok
      rw [hr'] at hrow'
      cases hrow'
      exact hpic
  · rw [replacePicture_none srv taken] at hr
    cases hr
    rw [← hid]
    cases hrow : s.users user.id with
    | none => simp [update_missing hrow]
    | some row =>
      obtain ⟨now, hnow⟩ := update_ok hrow hok
      rw [Row.update_sets, hpicture] at hnow
      simp only [hnow, Option.some.injEq, forall_eq']
      cases hgiven : given data.picture with
      | none => simp
      | some name =>
        have hempty : picture.bytes = [] := by
          by_contra hb
          refine taken ⟨?_, hb⟩
          rw [hpicture]
          cases hd : data.picture with
          | none => simp [hd, given] at hgiven
          | some v => rfl
        simp [hempty, not_generated_empty srv hempty, eq_comm]

/-! ### The handler -/

theorem update_answered_204 {s : State} {request : Request} {a : UpdateAnswers}
    (h : (update srv s request a).2.map Outcome.status = .ok 204) :
    ∃ id body picture data, pathId request = .ok id ∧ readBody srv request = .ok (body, picture) ∧
      from_json srv.lib body = .ok data ∧
      (UsersService.update srv s { data with id := id } picture a).2 = .ok () ∧
      (update srv s request a).1 =
        (UsersService.update srv s { data with id := id } picture a).1 := by
  unfold update at h ⊢
  cases hid : pathId request with
  | error e =>
    rw [hid] at h
    cases h
  | ok id =>
  cases hbody : readBody srv request with
  | error e =>
    rw [hid, hbody] at h
    cases h
  | ok b =>
  obtain ⟨body, picture⟩ := b
  rw [hid, hbody] at h
  dsimp only at h ⊢
  cases hdata : from_json srv.lib body with
  | error e =>
    rw [hdata] at h
    cases e with
    | validation what => simp [errorResult, Outcome.status, Except.map] at h
    | _ => cases h
  | ok data =>
  rw [hdata] at h
  dsimp only at h ⊢
  refine ⟨id, body, picture, data, rfl, rfl, hdata, ?_⟩
  cases hup : UsersService.update srv s { data with id := id } picture a with
  | mk t res =>
    rw [hup] at h
    cases res with
    | error e =>
      cases e with
      | validation what => simp [errorResult, Outcome.status, Except.map] at h
      | _ => cases h
    | ok u => exact ⟨rfl, rfl⟩

/-- What the router hands on after it has parsed the form. -/
theorem parsed_form {env : EnvConfig} {received request : Request} {form : Form}
    (hparsed : received.parseMultipart srv.lib env = .ok request)
    (hform : request.multipart = some form) :
    request.content_type = received.content_type ∧
      ∀ k f, form.files.find k = some f → f.filename ≠ [] := by
  unfold Request.parseMultipart at hparsed
  split at hparsed
  · cases hparsed
  · rename_i parsed heq
    cases hparsed
    cases hform
    exact ⟨rfl, fun k f hf => parseMultipart_filename heq hf⟩

/-- A `picture` file part without content makes the row name a file that the client chose. -/
def TakesClientName (s : State) (form : Form) (id : ℤ) : Prop :=
  ∃ f row, form.files.find "picture".toList = some f ∧ f.data = [] ∧ s.users id = some row ∧
    row.picture ≠ some (c_str f.filename)

/-- A multipart update that is answered 204 keeps the picture column or puts there the name of
a file just stored, exactly when it does not take the client's name. -/
theorem picture_accounted_iff (env : EnvConfig) {s : State} {received request : Request}
    {form : Form} {a : UpdateAnswers} {id : ℤ}
    (htype : contains received.content_type "multipart/form-data".toList = true)
    (hparsed : received.parseMultipart srv.lib env = .ok request)
    (hform : request.multipart = some form) (hid : pathId request = .ok id)
    (hanswer : (update srv s request a).2.map Outcome.status = .ok 204) :
    PictureAccounted srv s (update srv s request a).1 id (formPicture form) a.store ↔
      ¬ TakesClientName s form id := by
  obtain ⟨htype', hnames⟩ := parsed_form srv hparsed hform
  obtain ⟨id', body, picture, data, hid', hbody, hdata, hok, ht⟩ :=
    update_answered_204 srv hanswer
  rw [hid] at hid'
  cases hid'
  unfold readBody at hbody
  rw [htype', if_pos htype, hform] at hbody
  cases hbody
  have hpicture := picture_of_form hnames hdata
  rw [ht, update_picture_iff srv hok, not_iff_not]
  unfold TakesClientName
  dsimp only
  rw [hpicture]
  unfold formPicture
  cases hf : form.files.find "picture".toList with
  | none => simp [given]
  | some f =>
    have hgiven : given (some f.filename) = some f.filename := by
      simp [given, Option.filter, hnames _ f hf]
    simp [hgiven]

/-! ### A form with one file -/

def picturePart (content : Str) : RawPart :=
  ⟨[("Content-Disposition".toList,
    "form-data; name=\"picture\"; filename=\"x.exe\"".toList)], content⟩

def pictureForm (content : Str) : Form :=
  ⟨[("picture".toList, ⟨"picture".toList, "x.exe".toList, [], content⟩)], []⟩

/-- Poco reads this one part from the body of the request. -/
def formServices (content : Str) : Services :=
  { plainServices with
    lib := { plainServices.lib with
      poco := ⟨fun _ => .ok ⟨"multipart".toList, [("boundary".toList, "b".toList)]⟩,
        fun _ _ => ([picturePart content], none)⟩ } }

def formRequest (content : Str) : Request where
  method := .patch
  target := "/users/7".toList
  version := 11
  keep_alive := true
  headers := [("Content-Type".toList, "multipart/form-data; boundary=b".toList)]
  body :=
    "--b\r\nContent-Disposition: form-data; name=\"picture\"; filename=\"x.exe\"\r\n\r\n".toList ++
      content ++ "\r\n--b--\r\n".toList
  user_id := some 7
  path_params := [("id".toList, "7".toList)]
  multipart := none

def answersDone : UpdateAnswers := ⟨.ok [], false, none, plainStore 0 1, .done 5⟩

theorem picture_accounted_iff_png :
    let s := withPicture "old.png".toList
    let srv := formServices "png".toList
    let request := { formRequest "png".toList with multipart := some (pictureForm "png".toList) }
    (formRequest "png".toList).parseMultipart srv.lib ⟨0, "POCO".toList⟩ = .ok request ∧
      (PictureAccounted srv s (update srv s request answersDone).1 7
        (formPicture (pictureForm "png".toList)) answersDone.store ↔
          ¬ TakesClientName s (pictureForm "png".toList) 7) := by
  intro s srv request
  have hparsed : (formRequest "png".toList).parseMultipart srv.lib ⟨0, "POCO".toList⟩ =
      .ok request := by decide +kernel
  exact ⟨hparsed, picture_accounted_iff srv ⟨0, "POCO".toList⟩ (by decide +kernel) hparsed rfl
    (by decide +kernel) (by decide +kernel)⟩

/-- The client sends a file name and no content; the row takes the name, and no such file is
in the directory. -/
theorem client_name_stored :
    let s := withPicture "old.png".toList
    let srv := formServices []
    let request := { formRequest [] with multipart := some (pictureForm []) }
    let t := (update srv s request answersDone).1
    (formRequest []).parseMultipart srv.lib ⟨0, "POCO".toList⟩ = .ok request ∧
      (update srv s request answersDone).2.map Outcome.status = .ok 204 ∧
      t.users 7 = some ⟨"u".toList, some "x.exe".toList, none, none, 0, 5⟩ ∧
      storedFile srv t.disk 7 "x.exe".toList = none ∧
      ¬ PictureAccounted srv s t 7 (formPicture (pictureForm [])) answersDone.store := by
  intro s srv request t
  have hfacts : (formRequest []).parseMultipart srv.lib ⟨0, "POCO".toList⟩ = .ok request ∧
      (update srv s request answersDone).2.map Outcome.status = .ok 204 ∧
      t.users 7 = some ⟨"u".toList, some "x.exe".toList, none, none, 0, 5⟩ ∧
      storedFile srv t.disk 7 "x.exe".toList = none := by decide +kernel
  obtain ⟨hparsed, hanswer, hrow, hfile⟩ := hfacts
  refine ⟨hparsed, hanswer, hrow, hfile, fun h => ?_⟩
  rcases h _ hrow with ⟨row, hold, hsame⟩ | ⟨name, _, hgen⟩
  · have hbefore : s.users 7 = some ⟨"u".toList, some "old.png".toList, none, none, 0, 0⟩ := by
      decide +kernel
    rw [hbefore] at hold
    cases hold
    exact absurd hsame (by decide)
  · exact not_generated_empty srv rfl hgen

end AdequateApi.UsersController
