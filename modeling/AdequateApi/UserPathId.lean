import AdequateApi.Numerals
import AdequateApi.UserPictureSpec
import AdequateApi.UsersController

/-! Which user a path id addresses: the rows and the files that `PATCH /users/s` and
`DELETE /users/s` can change. -/
namespace AdequateApi.UsersService
open StdString FileTree FileSystemService UsersRepository HttpMessages

variable (srv : Services)

/-! ### The directory of a user -/

theorem isAbsolute_append {p q : Str} (hp : isAbsolute p = false) (hq : isAbsolute q = false)
    (hne : p ≠ []) : isAbsolute (append p q) = false := by
  unfold append
  rw [if_neg (by simp [hq])]
  cases p with
  | nil => exact absurd rfl hne
  | cons c p => split <;> simpa [isAbsolute] using hp

theorem to_string_name (n : ℤ) : to_string n ≠ [] ∧ '/' ∉ to_string n := by
  refine ⟨to_string_ne_nil n, fun h => ?_⟩
  rcases to_string_chars h with h | h
  · cases h
  · cases h

theorem picturePath_eq (id : ℤ) :
    picturePath srv id = names srv.rootPath ++ ["users".toList, to_string id, "file".toList] := by
  obtain ⟨hne, hslash⟩ := to_string_name id
  have habs : isAbsolute (to_string id) = false := by
    cases h : to_string id with
    | nil => rfl
    | cons c cs =>
      have hc : c ≠ '/' := by
        rintro rfl
        exact hslash (h ▸ List.mem_cons_self)
      simpa [isAbsolute] using hc
  have huser : isAbsolute (append "users".toList (to_string id)) = false :=
    isAbsolute_append rfl habs (by decide)
  have hfile : isAbsolute "file".toList = false := rfl
  have hdir : isAbsolute (pictureDir id) = false :=
    isAbsolute_append huser hfile (append_ne_nil hne)
  rw [picturePath, names_append _ hdir, pictureDir, buildRelativeDir, names_append _ rfl,
    names_append _ habs, names_name hne hslash]
  rfl

theorem picturePath_disjoint {m n : ℤ} {q : Path} (hm : Disk.below (picturePath srv m) q = true)
    (hn : Disk.below (picturePath srv n) q = true) : m = n := by
  rw [Disk.below, List.isPrefixOf_iff_prefix, picturePath_eq] at hm hn
  have hle := List.prefix_of_prefix_length_le hm hn (by simp)
  have heq := hle.eq_of_length (by simp)
  have hlist := List.append_cancel_left heq
  simp only [List.cons.injEq, true_and, and_true] at hlist
  exact to_string_injective hlist

/-! ### What the service leaves alone -/

theorem Clearing.files_of_not_below (c : Clearing) {p q : Path} (files : Path → Option Str)
    (h : Disk.below p q = false) : c.files p files q = files q := by
  cases c <;> simp [Clearing.files, h]

theorem pictureWrites_below {id : ℤ} {picture : IncomingFile} {a : StoreAnswers}
    {w : Path × Option Str} (h : w ∈ pictureWrites srv id picture a) :
    Disk.below (picturePath srv id) w.1 = true := by
  have hchild : ∀ name, Disk.below (picturePath srv id) (picturePath srv id ++ [name]) = true := by
    intro name
    rw [Disk.below, List.isPrefixOf_iff_prefix]
    exact List.prefix_append _ _
  unfold pictureWrites at h
  cases hend : pictureEnd srv id picture a with
  | refused => simp [hend, StoreEnd.writes] at h
  | cleaned =>
    rw [hend] at h
    obtain rfl := List.mem_singleton.mp h
    exact hchild _
  | leftover part =>
    rw [hend] at h
    obtain rfl := List.mem_singleton.mp h
    exact hchild _
  | stored =>
    rw [hend] at h
    rcases List.mem_pair.mp h with rfl | rfl
    · exact hchild _
    · exact hchild _

theorem replacePicture_frame (disk : Disk) (user : UserEntity) (picture : IncomingFile)
    (a : UpdateAnswers) :
    (∀ q, Disk.below (picturePath srv user.id) q = false →
      (replacePicture srv disk user picture a).1.files q = disk.files q) ∧
    ∀ user', (replacePicture srv disk user picture a).2 = .ok user' → user'.id = user.id := by
  by_cases taken : user.picture.isSome ∧ picture.bytes ≠ []
  · have hspec := replacePicture_spec srv taken disk a
    dsimp only at hspec
    obtain ⟨_, hfiles, e, he⟩ | ⟨_, hfiles, hend⟩ := hspec
    · rw [hfiles, he]
      exact ⟨fun q hq => Clearing.files_of_not_below _ _ hq, fun _ h => by cases h⟩
    · refine ⟨fun q hq => ?_, fun user' h => ?_⟩
      · rw [hfiles, applied_of_not_mem]
        · exact Clearing.files_of_not_below _ _ hq
        · rintro w hw rfl
          rw [pictureWrites_below srv hw] at hq
          cases hq
      · obtain ⟨_, hok⟩ | ⟨_, e, he⟩ := hend
        · rw [hok] at h
          cases h
          rfl
        · rw [he] at h
          cases h
  · rw [replacePicture_none srv taken]
    refine ⟨fun _ _ => rfl, fun user' h => ?_⟩
    cases h
    rfl

theorem update_disk (s : State) {data : UserUpdateSerializer} {user : UserEntity}
    (picture : IncomingFile) (a : UpdateAnswers)
    (hu : hashPassword data.toEntity a.hash = .ok user) :
    (update srv s data picture a).1.disk = (replacePicture srv s.disk user picture a).1 := by
  unfold update
  rw [hu]
  dsimp only
  cases replacePicture srv s.disk user picture a with
  | mk disk res => cases res <;> rfl

theorem repository_update_frame (users : Table) (user : UserEntity) (a : QueryAnswer) {m : ℤ}
    (h : m ≠ user.id) : (UsersRepository.update users user a).1 m = users m := by
  unfold UsersRepository.update
  rcases updateQuery_cases user with ⟨_, e, hq⟩ | ⟨_, q, hq, hc⟩
  · rw [hq]
  · rw [hq]
    unfold Query.run
    cases a.executed with
    | none => rfl
    | some now =>
      dsimp only
      rw [hc]
      exact Function.update_of_ne h _ _

/-- An update changes the row and the files of the user it is for. -/
theorem update_frame (s : State) (data : UserUpdateSerializer) (picture : IncomingFile)
    (a : UpdateAnswers) :
    (∀ m, m ≠ data.id → (update srv s data picture a).1.users m = s.users m) ∧
    ∀ q, Disk.below (picturePath srv data.id) q = false →
      (update srv s data picture a).1.disk.files q = s.disk.files q := by
  unfold update
  cases hu : hashPassword data.toEntity a.hash with
  | error e => exact ⟨fun _ _ => rfl, fun _ _ => rfl⟩
  | ok user =>
    have hid : user.id = data.id := (hashPassword_ok hu).1
    obtain ⟨hfiles, hsame⟩ := replacePicture_frame srv s.disk user picture a
    dsimp only
    cases hr : replacePicture srv s.disk user picture a with
    | mk disk res =>
      rw [hr] at hfiles hsame
      rw [hid] at hfiles
      cases res with
      | error e => exact ⟨fun _ _ => rfl, hfiles⟩
      | ok user' =>
        refine ⟨fun m hm => ?_, hfiles⟩
        exact repository_update_frame s.users user' a.query (by rwa [hsame user' rfl, hid])

theorem remove_frame (s : State) (id : BitVec 64) (a : RemoveAnswers) :
    (∀ m, m ≠ id.toInt → (remove srv s id a).1.users m = s.users m) ∧
    ∀ q, Disk.below (picturePath srv id.toNat) q = false →
      (remove srv s id a).1.disk.files q = s.disk.files q := by
  have hclear := (clearDirectory_cleared srv s.disk id.toNat a.stat_fails a.removal).spec
  unfold remove
  cases hc : clearDirectory srv s.disk (pictureDir id.toNat) a.stat_fails a.removal with
  | mk disk res =>
    rw [hc] at hclear
    have hfiles : ∀ q, Disk.below (picturePath srv id.toNat) q = false →
        disk.files q = s.disk.files q := by
      intro q hq
      rw [show disk.files = _ from hclear.1]
      exact Clearing.files_of_not_below _ _ hq
    cases res with
    | error e => exact ⟨fun _ _ => rfl, hfiles⟩
    | ok u =>
      refine ⟨fun m hm => ?_, hfiles⟩
      unfold UsersRepository.remove Query.run
      dsimp only
      cases a.query.executed with
      | none => rfl
      | some now => exact Function.update_of_ne hm _ _

end AdequateApi.UsersService

namespace AdequateApi.UsersController
open StdString FileTree FileSystemService MultipartForm UsersRepository UsersService HttpMessages

/-! ### Requests on `/users/s` -/

/-- The runs of a handler on a segment: services, the state before, and what it ends with. -/
abbrev PathHandler := Services → Str → State → State × Except Exn Outcome → Prop

def Patched : PathHandler := fun srv segment s r =>
  ∃ request a, request.path_params.find "id".toList = some segment ∧ update srv s request a = r

def Deleted : PathHandler := fun srv segment s r =>
  ∃ request a, request.path_params.find "id".toList = some segment ∧ remove srv s request a = r

namespace PathHandler

variable (handler : PathHandler) (segment : Str)

def TouchesRow (n : ℤ) : Prop :=
  ∃ srv s r, handler srv segment s r ∧ r.1.users n ≠ s.users n

def TouchesDirectory (n : ℤ) : Prop :=
  ∃ srv s r, handler srv segment s r ∧
    ∃ q, Disk.below (picturePath srv n) q = true ∧ r.1.disk.files q ≠ s.disk.files q

/-- Every request fails or is answered with an error, and changes nothing. -/
def Rejects : Prop :=
  ∀ srv s r, handler srv segment s r →
    r.1 = s ∧ ((∃ e, r.2 = .error e) ∨ ∃ o, r.2 = .ok o ∧ 400 ≤ o.status)

/-- The segment addresses the user whose numeral it is, and nobody else. -/
def Addresses : Prop :=
  (∀ n : ℤ, 1 ≤ n → n ≤ 9223372036854775807 →
    (handler.TouchesRow segment n ↔ segment = to_string n) ∧
    (handler.TouchesDirectory segment n ↔ segment = to_string n)) ∧
  ((∀ n : ℤ, 1 ≤ n → n ≤ 9223372036854775807 → segment ≠ to_string n) → handler.Rejects segment)

end PathHandler

theorem pathId_ok {request : Request} {segment : Str} {v : ℤ}
    (hp : request.path_params.find "id".toList = some segment) (h : stoi segment = .ok v) :
    pathId request = .ok v := by
  rw [pathId, hp]
  dsimp only
  rw [h]
  rfl

theorem pathId_error {request : Request} {segment : Str} {e : Str}
    (hp : request.path_params.find "id".toList = some segment) (h : stoi segment = .error e) :
    pathId request = .error (.std e) := by
  rw [pathId, hp]
  dsimp only
  rw [h]
  rfl

theorem stoi_range {segment : Str} {v : ℤ} (h : stoi segment = .ok v) :
    -2147483648 ≤ v ∧ v ≤ 2147483647 := by
  rw [stoi_eq, readInteger] at h
  split at h
  · cases h
  split at h
  · rename_i hr
    cases h
    exact hr
  · cases h

/-! ### A segment that `stoi` refuses -/

theorem patched_rejects {segment e : Str} (h : stoi segment = .error e) :
    Patched.Rejects segment := by
  rintro srv s r ⟨request, a, hp, rfl⟩
  unfold update
  rw [pathId_error hp h]
  exact ⟨rfl, .inl ⟨_, rfl⟩⟩

theorem deleted_rejects {segment e : Str} (h : stoi segment = .error e) :
    Deleted.Rejects segment := by
  rintro srv s r ⟨request, a, hp, rfl⟩
  unfold remove
  rw [pathId_error hp h]
  exact ⟨rfl, .inl ⟨_, rfl⟩⟩

theorem PathHandler.Rejects.touches_nothing {handler : PathHandler} {segment : Str}
    (h : handler.Rejects segment) (n : ℤ) :
    ¬ handler.TouchesRow segment n ∧ ¬ handler.TouchesDirectory segment n := by
  constructor
  · rintro ⟨srv, s, r, hr, hne⟩
    exact hne (by rw [(h srv s r hr).1])
  · rintro ⟨srv, s, r, hr, q, _, hne⟩
    exact hne (by rw [(h srv s r hr).1])

/-! ### What a request can change -/

/-- Only the row and the files of the user with this number. -/
def Confined (srv : Services) (v : ℤ) (s t : State) : Prop :=
  (∀ m, m ≠ v → t.users m = s.users m) ∧
    ∀ m, 1 ≤ m → m ≤ 9223372036854775807 → m ≠ v → ∀ q,
      Disk.below (picturePath srv m) q = true → t.disk.files q = s.disk.files q

theorem update_state {srv : Services} {s : State} {request : Request} {v : ℤ} {body : Json}
    {picture : IncomingFile} {data : UserUpdateSerializer} (a : UpdateAnswers)
    (hid : pathId request = .ok v) (hbody : readBody srv request = .ok (body, picture))
    (hdata : from_json srv.lib body = .ok data) :
    (update srv s request a).1 =
      (UsersService.update srv s { data with id := v } picture a).1 := by
  unfold update
  rw [hid, hbody]
  dsimp only
  rw [hdata]
  dsimp only
  cases UsersService.update srv s { data with id := v } picture a with
  | mk t res =>
    cases res with
    | ok u => rfl
    | error e => cases e <;> rfl

theorem remove_state {srv : Services} {s : State} {request : Request} {v : ℤ} (a : RemoveAnswers)
    (hid : pathId request = .ok v) :
    (remove srv s request a).1 = (UsersService.remove srv s (BitVec.ofInt 64 v) a).1 := by
  unfold remove
  rw [hid]
  dsimp only
  cases UsersService.remove srv s (BitVec.ofInt 64 v) a with
  | mk t res =>
    cases res with
    | ok u => rfl
    | error e => cases e <;> rfl

theorem patched_confined {srv : Services} {segment : Str} {v : ℤ} {s : State}
    {r : State × Except Exn Outcome} (h : stoi segment = .ok v) (hr : Patched srv segment s r) :
    Confined srv v s r.1 := by
  obtain ⟨request, a, hp, rfl⟩ := hr
  have hid := pathId_ok hp h
  have hsame : (update srv s request a).1 = s → Confined srv v s (update srv s request a).1 := by
    intro h
    rw [h]
    exact ⟨fun _ _ => rfl, fun _ _ _ _ _ _ => rfl⟩
  cases hbody : readBody srv request with
  | error e =>
    apply hsame
    rw [update, hid, hbody]
  | ok body =>
    obtain ⟨body, picture⟩ := body
    cases hdata : from_json srv.lib body with
    | error e =>
      apply hsame
      rw [update, hid, hbody]
      dsimp only
      rw [hdata]
      cases e <;> rfl
    | ok data =>
      rw [update_state a hid hbody hdata]
      obtain ⟨hrows, hfiles⟩ := update_frame srv s { data with id := v } picture a
      refine ⟨hrows, fun m _ _ hm q hq => hfiles q ?_⟩
      cases hv : Disk.below (picturePath srv v) q with
      | false => rfl
      | true => exact absurd (picturePath_disjoint srv hq hv) hm

theorem toInt_ofInt {v : ℤ} (hlo : -2147483648 ≤ v) (hhi : v ≤ 2147483647) :
    (BitVec.ofInt 64 v).toInt = v := by
  rw [BitVec.toInt_ofInt]
  exact Int.bmod_eq_of_le (by omega) (by omega)

theorem toNat_ofInt {v : ℤ} (hlo : -2147483648 ≤ v) (hhi : v ≤ 2147483647) :
    ((BitVec.ofInt 64 v).toNat : ℤ) = if v < 0 then v + 18446744073709551616 else v := by
  rw [BitVec.toNat_ofInt]
  split <;> omega

theorem deleted_confined {srv : Services} {segment : Str} {v : ℤ} {s : State}
    {r : State × Except Exn Outcome} (h : stoi segment = .ok v) (hr : Deleted srv segment s r) :
    Confined srv v s r.1 := by
  obtain ⟨request, a, hp, rfl⟩ := hr
  obtain ⟨hlo, hhi⟩ := stoi_range h
  obtain ⟨hrows, hfiles⟩ := remove_frame srv s (BitVec.ofInt 64 v) a
  rw [toInt_ofInt hlo hhi] at hrows
  have hdir := toNat_ofInt hlo hhi
  rw [remove_state a (pathId_ok hp h)]
  refine ⟨hrows, fun m hm hm' hne q hq => hfiles q ?_⟩
  cases hv : Disk.below (picturePath srv (BitVec.ofInt 64 v).toNat) q with
  | false => rfl
  | true =>
    have hsame := picturePath_disjoint srv hq hv
    split at hdir <;> omega

/-! ### What a request does change -/

/-- Every path is within the root. -/
def openServices : Services :=
  { plainServices with os := ⟨fun _ => some [], plainServices.os.detectMime⟩ }

/-- Every row and every file is there. -/
def filled : State where
  disk := ⟨fun _ => some [], fun _ => true⟩
  users := fun _ => some ⟨"u".toList, none, none, none, 0, 0⟩

def requestOn (segment : Str) (method : Verb) (form : Option Form) : Request where
  method := method
  target := []
  version := 11
  keep_alive := true
  headers := [("Content-Type".toList, "multipart/form-data".toList)]
  body := []
  user_id := none
  path_params := [("id".toList, segment)]
  multipart := form

theorem requestOn_id (segment : Str) (method : Verb) (form : Option Form) :
    (requestOn segment method form).path_params.find "id".toList = some segment := rfl

theorem clearing_filled (id : ℤ) :
    clearing openServices filled.disk id false none = .emptied := by
  have hroot : ensureWithinRoot openServices.os openServices.opts.rootPath
      (append openServices.opts.rootPath (pictureDir id)) = .ok () := rfl
  unfold clearing
  rw [if_neg (not_not.mpr hroot), if_neg (by simp [filled, Disk.exists_])]

/-- A deletion empties the directory and removes the row, whatever the number. -/
theorem deleted_run {segment : Str} {v : ℤ} (h : stoi segment = .ok v) :
    ∃ r o, Deleted openServices segment filled r ∧ r.2 = .ok o ∧ o.status = 204 ∧
      r.1.users v = none ∧
      r.1.disk.files (picturePath openServices (BitVec.ofInt 64 v).toNat) = none := by
  obtain ⟨hlo, hhi⟩ := stoi_range h
  let a : RemoveAnswers := ⟨false, none, .done 1⟩
  let request := requestOn segment .delete_ none
  refine ⟨remove openServices filled request a, noContent request,
    ⟨request, a, requestOn_id _ _ _, rfl⟩, ?_⟩
  have hclear :=
    clearDirectory_cleared openServices filled.disk (BitVec.ofInt 64 v).toNat false none
  rw [clearing_filled] at hclear
  have hservice : UsersService.remove openServices filled (BitVec.ofInt 64 v) a =
      (⟨filled.disk.remove_all (picturePath openServices (BitVec.ofInt 64 v).toNat) fun _ => false,
        Function.update filled.users v none⟩, .ok ()) := by
    unfold UsersService.remove
    generalize clearDirectory openServices filled.disk (pictureDir (BitVec.ofInt 64 v).toNat)
      false none = r at hclear
    cases hclear
    dsimp only
    rw [toInt_ofInt hlo hhi]
    rfl
  have hid : pathId request = .ok v := pathId_ok (requestOn_id _ _ _) h
  have hrun : remove openServices filled request a =
      (⟨filled.disk.remove_all (picturePath openServices (BitVec.ofInt 64 v).toNat) fun _ => false,
        Function.update filled.users v none⟩, .ok (noContent request)) := by
    unfold remove
    rw [hid]
    dsimp only
    rw [hservice]
  rw [hrun]
  refine ⟨rfl, rfl, Function.update_self _ _ _, ?_⟩
  simp [Disk.remove_all, Disk.below]

/-- A new name changes the row. -/
theorem patched_touches_row {segment : Str} {v : ℤ} (h : stoi segment = .ok v) :
    Patched.TouchesRow segment v := by
  let form : Form := ⟨[], [("username".toList, "x".toList)]⟩
  let a : UpdateAnswers := ⟨.error [], false, none, plainStore 0 0, .done 1⟩
  let request := requestOn segment .patch (some form)
  let user : UserEntity := ⟨v, some "x".toList, none, none, none⟩
  refine ⟨openServices, filled, _, ⟨request, a, requestOn_id _ _ _, rfl⟩, ?_⟩
  have hbody : readBody openServices request = .ok (formBody form, formPicture form) := rfl
  have hdata : from_json openServices.lib (formBody form) =
      .ok ⟨0, some "x".toList, none, none, none⟩ := rfl
  rw [update_state a (pathId_ok (requestOn_id _ _ _) h) hbody hdata]
  have hstate : (UsersService.update openServices filled ⟨v, some "x".toList, none, none, none⟩
      (formPicture form) a).1.users = (UsersRepository.update filled.users user (.done 1)).1 := rfl
  rw [hstate]
  intro hsame
  have hsets : sets user ≠ [] := List.cons_ne_nil _ _
  have hkeeps := (update_row filled.users user (.done 1)).mp hsame hsets
  have hholds := (hkeeps 1 ⟨"u".toList, none, none, none, 0, 0⟩ rfl rfl).1
  cases hholds

/-- A new picture empties the directory, also when it is refused afterwards. -/
theorem patched_touches_directory {segment : Str} {v : ℤ} (h : stoi segment = .ok v) :
    Patched.TouchesDirectory segment v := by
  let picture : MultipartPart := ⟨"picture".toList, "p".toList, [], "x".toList⟩
  let form : Form := ⟨[("picture".toList, picture)], []⟩
  let a : UpdateAnswers := ⟨.error [], false, none, { plainStore 0 0 with create_error := some [] },
    .done 1⟩
  let request := requestOn segment .patch (some form)
  let user : UserEntity := ⟨v, none, none, some "p".toList, none⟩
  refine ⟨openServices, filled, _, ⟨request, a, requestOn_id _ _ _, rfl⟩,
    picturePath openServices v, by simp [Disk.below], ?_⟩
  have hbody : readBody openServices request = .ok (formBody form, formPicture form) := rfl
  have hdata : from_json openServices.lib (formBody form) =
      .ok ⟨0, none, some "p".toList, none, none⟩ := rfl
  rw [update_state a (pathId_ok (requestOn_id _ _ _) h) hbody hdata]
  have hend : pictureEnd openServices v (formPicture form) a.store = .refused := by
    unfold pictureEnd storeEnd accepts
    rw [if_neg (by simp [a])]
  have taken : user.picture.isSome ∧ (formPicture form).bytes ≠ [] := ⟨rfl, by decide⟩
  have hspec := replacePicture_spec openServices taken filled.disk a
  have hclear : clearing openServices filled.disk user.id a.stat_fails a.removal = .emptied :=
    clearing_filled v
  dsimp only at hspec
  rw [hclear] at hspec
  have hnone : (replacePicture openServices filled.disk user (formPicture form) a).1.files
      (picturePath openServices v) = none := by
    obtain ⟨hc, _⟩ | ⟨_, hfiles, _⟩ := hspec
    · exact absurd trivial hc
    · rw [hfiles, pictureWrites, hend]
      simp [StoreEnd.writes, applied, Clearing.files, Disk.below, user]
  rw [update_disk openServices filled (formPicture form) a rfl]
  intro hsame
  have hsome := hnone.symm.trans hsame
  cases hsome

theorem deleted_touches {segment : Str} {v : ℤ} (h : stoi segment = .ok v) (hv : 1 ≤ v) :
    Deleted.TouchesRow segment v ∧ Deleted.TouchesDirectory segment v := by
  obtain ⟨r, o, hr, _, _, hrow, hfile⟩ := deleted_run h
  obtain ⟨hlo, hhi⟩ := stoi_range h
  have hdir := toNat_ofInt hlo hhi
  rw [if_neg (by omega)] at hdir
  rw [hdir] at hfile
  refine ⟨⟨openServices, filled, r, hr, ?_⟩, openServices, filled, r, hr,
    picturePath openServices v, by simp [Disk.below], ?_⟩
  · rw [hrow]
    exact Option.some_ne_none _ |>.symm
  · rw [hfile]
    exact Option.some_ne_none _ |>.symm

/-! ### The user a segment addresses -/

/-- A handler whose requests on a number change the row and the files of that user, and nothing
else. -/
theorem addresses_of_number {handler : PathHandler} {segment : Str} {v : ℤ}
    (hsegment : segment = to_string v) (hv : 1 ≤ v) (hmax : v ≤ 9223372036854775807)
    (hrow : handler.TouchesRow segment v) (hdir : handler.TouchesDirectory segment v)
    (hconfined : ∀ {srv s r}, handler srv segment s r → Confined srv v s r.1) :
    handler.Addresses segment := by
  refine ⟨fun n hn hn' => ⟨⟨?_, ?_⟩, ⟨?_, ?_⟩⟩, fun h => absurd hsegment (h v hv hmax)⟩
  · rintro ⟨srv, s, r, hr, hne⟩
    by_contra hother
    exact hne ((hconfined hr).1 n fun h => hother (h ▸ hsegment))
  · intro h
    rw [hsegment] at h
    exact to_string_injective h ▸ hrow
  · rintro ⟨srv, s, r, hr, q, hq, hne⟩
    by_contra hother
    exact hne ((hconfined hr).2 n hn hn' (fun h => hother (h ▸ hsegment)) q hq)
  · intro h
    rw [hsegment] at h
    exact to_string_injective h ▸ hdir

theorem addresses_of_rejects {handler : PathHandler} {segment : Str}
    (h : handler.Rejects segment)
    (hnone : ∀ n : ℤ, 1 ≤ n → n ≤ 9223372036854775807 → segment ≠ to_string n) :
    handler.Addresses segment := by
  refine ⟨fun n hn hn' => ?_, fun _ => h⟩
  obtain ⟨hrow, hdir⟩ := h.touches_nothing n
  have hne := hnone n hn hn'
  exact ⟨⟨fun h => absurd h hrow, fun h => absurd h hne⟩,
    ⟨fun h => absurd h hdir, fun h => absurd h hne⟩⟩

/-- Both handlers address exactly the user of the segment when it is the numeral of an id that
an `int` can hold, or when no such number stands at its start and it is no numeral of an id. -/
theorem addresses_iff (segment : Str) :
    (Patched.Addresses segment ∧ Deleted.Addresses segment) ↔
      (∃ n : ℤ, 1 ≤ n ∧ n ≤ 2147483647 ∧ segment = to_string n) ∨
      ((∀ v, leadingNumber segment = some v → v < -2147483648 ∨ 2147483647 < v) ∧
        ∀ n : ℤ, 1 ≤ n → n ≤ 9223372036854775807 → segment ≠ to_string n) := by
  have hread : (∀ v, leadingNumber segment = some v → v < -2147483648 ∨ 2147483647 < v) ↔
      ∃ e, stoi segment = .error e := by
    rw [stoi_eq, readInteger]
    cases leadingNumber segment with
    | none => simp
    | some v =>
      by_cases hv : -2147483648 ≤ v ∧ v ≤ 2147483647
      · simp only [hv, and_self, if_true, Option.some.injEq, forall_eq', reduceCtorEq,
          exists_false, iff_false]
        omega
      · simp only [hv, if_false, Option.some.injEq, forall_eq', Except.error.injEq, exists_eq',
          iff_true]
        omega
  rw [hread]
  constructor
  · rintro ⟨hpatch, hdelete⟩
    cases h : stoi segment with
    | error e =>
      refine .inr ⟨⟨e, rfl⟩, fun n hn hn' hs => ?_⟩
      exact ((deleted_rejects h).touches_nothing n).1 (((hdelete.1 n hn hn').1).mpr hs)
    | ok v =>
      obtain ⟨hlo, hhi⟩ := stoi_range h
      by_cases hv : 1 ≤ v
      · refine .inl ⟨v, hv, hhi, ?_⟩
        exact ((hdelete.1 v hv (by omega)).1).mp (deleted_touches h hv).1
      · -- a number below 1 is answered as if it were done
        exfalso
        obtain ⟨r, o, hr, hok, hstatus, _⟩ := deleted_run h
        have hnone : ∀ n : ℤ, 1 ≤ n → n ≤ 9223372036854775807 → segment ≠ to_string n := by
          rintro n hn - rfl
          rw [stoi_eq, readInteger, leadingNumber_to_string] at h
          dsimp only at h
          split at h
          · cases h
            exact hv hn
          · cases h
        obtain ⟨_, ⟨e, he⟩ | ⟨o', ho', hle⟩⟩ := hdelete.2 hnone openServices filled r hr
        · rw [hok] at he
          cases he
        · rw [hok] at ho'
          cases ho'
          omega
  · rintro (⟨n, hn, hn', rfl⟩ | ⟨⟨e, he⟩, hnone⟩)
    · have h : stoi (to_string n) = .ok n := by
        rw [stoi_eq]
        exact readInteger_to_string _ (by omega) hn'
      obtain ⟨hrow, hdir⟩ := deleted_touches h hn
      exact ⟨addresses_of_number rfl hn (by omega) (patched_touches_row h)
          (patched_touches_directory h) fun hr => patched_confined h hr,
        addresses_of_number rfl hn (by omega) hrow hdir fun hr => deleted_confined h hr⟩
    · exact ⟨addresses_of_rejects (patched_rejects he) hnone,
        addresses_of_rejects (deleted_rejects he) hnone⟩

/-- `DELETE /users/7abc` deletes user 7. -/
theorem trailing_text_addresses :
    Deleted.TouchesRow "7abc".toList 7 ∧ Deleted.TouchesDirectory "7abc".toList 7 ∧
      "7abc".toList ≠ to_string 7 ∧ ¬ Deleted.Addresses "7abc".toList := by
  have h : stoi "7abc".toList = .ok 7 := by decide
  obtain ⟨hrow, hdir⟩ := deleted_touches h (by omega)
  have hne : "7abc".toList ≠ to_string 7 := by decide
  exact ⟨hrow, hdir, hne, fun ha => hne (((ha.1 7 (by omega) (by omega)).1).mp hrow)⟩

end AdequateApi.UsersController
