import AdequateApi.FileStoreSpec
import AdequateApi.UsersService

/-! The two steps of a user's picture on disk: clearing the directory and storing. -/
namespace AdequateApi.UsersService
open StdString FileTree FileSystemService UsersRepository HttpMessages DbConnection

variable (srv : Services)

/-- The directory of a user's picture. -/
def picturePath (id : ℤ) : Path := names (append srv.opts.rootPath (pictureDir id))

/-! ### Clearing the directory -/

/-- The path check refuses; there is nothing, or it cannot be seen; the removal fails and
spares some files; done. -/
inductive Clearing
  | refused
  | absent
  | failed (kept : Path → Bool)
  | emptied

def clearing (disk : Disk) (id : ℤ) (stat_fails : Bool) (removal : Option RemovalFailure) :
    Clearing :=
  if ensureWithinRoot srv.os srv.opts.rootPath (append srv.opts.rootPath (pictureDir id)) ≠ .ok ()
    then .refused
  else if stat_fails = true ∨ disk.exists_ (picturePath srv id) = false then .absent
  else
    match removal with
    | some f => .failed f.kept
    | none => .emptied

namespace Clearing

/-- The call goes on after the directory was cleared. -/
def Clears : Clearing → Prop
  | .absent | .emptied => True
  | .refused | .failed _ => False

def files (p : Path) (fs : Path → Option Str) : Clearing → Path → Option Str
  | .refused | .absent => fs
  | .failed kept => fun q => if Disk.below p q && !kept q then none else fs q
  | .emptied => fun q => if Disk.below p q then none else fs q

end Clearing

/-- What clearing the directory `p` did. -/
inductive Cleared (disk : Disk) (p : Path) : Clearing → Disk × Except FileError Unit → Prop
  | refused {e : FileError} : Cleared disk p .refused (disk, .error e)
  | absent : Cleared disk p .absent (disk, .ok ())
  | failed {kept : Path → Bool} {e : FileError} :
      Cleared disk p (.failed kept) (disk.remove_all p kept, .error e)
  | emptied : Cleared disk p .emptied (disk.remove_all p fun _ => false, .ok ())

theorem clearDirectory_cleared (disk : Disk) (id : ℤ) (stat_fails : Bool)
    (removal : Option RemovalFailure) :
    Cleared disk (picturePath srv id) (clearing srv disk id stat_fails removal)
      (clearDirectory srv disk (pictureDir id) stat_fails removal) := by
  have hne : pictureDir id ≠ [] := append_ne_nil (q := "file".toList) (by decide)
  unfold clearing clearDirectory
  cases hw : ensureWithinRoot srv.os srv.opts.rootPath
      (append srv.opts.rootPath (pictureDir id)) with
  | error e =>
    rw [exists_refused disk stat_fails hne hw]
    exact .refused
  | ok u =>
    rw [if_neg (by simp), exists_checked disk stat_fails hne hw,
      remove_checked disk removal hne hw]
    by_cases hex : stat_fails = true ∨ disk.exists_ (picturePath srv id) = false
    · have hfalse : (!stat_fails && disk.exists_ (picturePath srv id)) = false := by
        rcases hex with h | h <;> simp [h]
      rw [if_pos hex]
      unfold picturePath at hfalse
      rw [hfalse]
      exact .absent
    · have htrue : (!stat_fails && disk.exists_ (picturePath srv id)) = true := by
        simpa using hex
      rw [if_neg hex]
      unfold picturePath at htrue
      rw [htrue]
      cases removal with
      | some f => exact .failed
      | none => exact .emptied

theorem Cleared.spec {disk : Disk} {p : Path} {c : Clearing} {r : Disk × Except FileError Unit}
    (h : Cleared disk p c r) :
    r.1.files = c.files p disk.files ∧ ((c.Clears ∧ r.2 = .ok ()) ∨
      (¬ c.Clears ∧ ∃ e, r.2 = .error e)) := by
  cases h with
  | refused => exact ⟨rfl, .inr ⟨id, _, rfl⟩⟩
  | absent => exact ⟨rfl, .inl ⟨trivial, rfl⟩⟩
  | failed => exact ⟨rfl, .inr ⟨id, _, rfl⟩⟩
  | emptied =>
    refine ⟨?_, .inl ⟨trivial, rfl⟩⟩
    funext q
    simp [Disk.remove_all, Clearing.files]

theorem clearing_absent {disk : Disk} {id : ℤ} {stat_fails : Bool}
    {removal : Option RemovalFailure}
    (h : clearing srv disk id stat_fails removal = .absent) :
    stat_fails = true ∨ disk.dirs (picturePath srv id) = false := by
  unfold clearing at h
  split at h
  · cases h
  split at h
  · rename_i hex
    refine hex.imp_right fun hex => ?_
    simp only [Disk.exists_, Bool.or_eq_false_iff] at hex
    exact hex.1
  · split at h <;> cases h

theorem clearing_emptied {disk : Disk} {id : ℤ} {stat_fails : Bool}
    {removal : Option RemovalFailure}
    (h : clearing srv disk id stat_fails removal = .emptied) : stat_fails = false := by
  unfold clearing at h
  split at h
  · cases h
  split at h
  · cases h
  · rename_i hex
    simpa using fun hs => hex (.inl hs)

/-! ### Storing the picture -/

def pictureEnd (id : ℤ) (picture : IncomingFile) (a : StoreAnswers) : StoreEnd :=
  storeEnd srv.os srv.opts "users".toList (to_string id) picture a

def pictureName (picture : IncomingFile) (a : StoreAnswers) : Str :=
  storedName srv.opts a.rng picture.originalFileName

theorem given_pictureName (picture : IncomingFile) (a : StoreAnswers) :
    given (some (pictureName srv picture a)) = some (pictureName srv picture a) := by
  obtain ⟨c, rest, _, hname⟩ := storedName_head srv.opts a.rng picture.originalFileName
  have hne : pictureName srv picture a ≠ [] := by
    unfold pictureName
    simp [hname]
  simp [given, Option.filter, hne]

theorem c_str_pictureName (picture : IncomingFile) (a : StoreAnswers) :
    c_str (pictureName srv picture a) = pictureName srv picture a := by
  obtain ⟨digits, _, hhex, hname⟩ := storedName_generated srv.opts a.rng picture.originalFileName
  have hdigits : '\x00' ∉ digits := fun h => absurd (hhex _ h) (by decide)
  have hdefault : ∀ ext ∈ ({ rootPath := [], mediaPath := [] } : Options).allowedExtensions,
      '\x00' ∉ ext := by decide
  have hext : ∀ ext ∈ srv.opts.allowedExtensions, '\x00' ∉ ext := hdefault
  apply c_str_eq_self
  unfold pictureName
  rcases hname with h | ⟨ext, hmem, h⟩
  · rw [h]
    exact hdigits
  · rw [h]
    simp [hdigits, hext ext hmem]

/-- The row after a successful update whose entity has the generated name. -/
theorem update_generated {users : Table} {user : UserEntity} {a : QueryAnswer} {r : Row}
    {picture : IncomingFile} {b : StoreAnswers} (hr : users user.id = some r)
    (hpicture : user.picture = some (pictureName srv picture b))
    (hok : (UsersRepository.update users user a).2 = .ok ()) :
    ∃ r', (UsersRepository.update users user a).1 user.id = some r' ∧
      r'.picture = some (pictureName srv picture b) := by
  obtain ⟨now, hnow⟩ := update_ok hr hok
  refine ⟨_, hnow, ?_⟩
  rw [Row.update_sets, hpicture, given_pictureName]
  simp [c_str_pictureName]

/-- What storing leaves at the paths it uses. -/
def pictureWrites (id : ℤ) (picture : IncomingFile) (a : StoreAnswers) : Writes :=
  (pictureEnd srv id picture a).writes (picturePath srv id ++ [tmpName a])
    (picturePath srv id ++ [pictureName srv picture a]) picture.bytes

theorem storePicture_stored (disk : Disk) (id : ℤ) (picture : IncomingFile) (a : StoreAnswers) :
    Stored disk (picturePath srv id) (tmpName a) (pictureName srv picture a) picture.bytes
      (pictureEnd srv id picture a) (storePicture srv disk id picture a) := by
  have hdir : entityDir srv.opts "users".toList (to_string id) =
      append srv.opts.rootPath (pictureDir id) := by
    unfold entityDir pictureDir
    rw [toLower_to_string, show toLower "users".toList = "users".toList by decide]
  have h := store_stored srv.os srv.opts disk "users".toList (to_string id) picture a
  rw [hdir] at h
  exact h

theorem hashPassword_ok {user hashed : UserEntity} {hash : Except Str Str}
    (h : hashPassword user hash = .ok hashed) :
    hashed.id = user.id ∧ hashed.picture = user.picture := by
  unfold hashPassword at h
  split at h
  · cases h
    exact ⟨rfl, rfl⟩
  · cases h
  · cases h
    exact ⟨rfl, rfl⟩

/-- The picture step ends in clearing, in storing, or with the generated name in the entity. -/
theorem replacePicture_spec {user : UserEntity} {picture : IncomingFile}
    (taken : user.picture.isSome ∧ picture.bytes ≠ []) (disk : Disk) (a : UpdateAnswers) :
    let c := clearing srv disk user.id a.stat_fails a.removal
    let r := replacePicture srv disk user picture a
    (¬ c.Clears ∧ r.1.files = c.files (picturePath srv user.id) disk.files ∧
      ∃ e, r.2 = .error e) ∨
    (c.Clears ∧ r.1.files = applied (c.files (picturePath srv user.id) disk.files)
        (pictureWrites srv user.id picture a.store) ∧
      ((pictureEnd srv user.id picture a.store = .stored ∧
          r.2 = .ok { user with picture := some (pictureName srv picture a.store) }) ∨
        (pictureEnd srv user.id picture a.store ≠ .stored ∧ ∃ e, r.2 = .error e))) := by
  intro c r
  have hr : replacePicture srv disk user picture a = r := rfl
  clear_value r
  unfold replacePicture at hr
  rw [if_pos taken] at hr
  have hclear := (clearDirectory_cleared srv disk user.id a.stat_fails a.removal).spec
  cases hc : clearDirectory srv disk (pictureDir user.id) a.stat_fails a.removal with
  | mk cleared res =>
    rw [hc] at hr hclear
    obtain ⟨hfiles, ⟨hclears, hok⟩ | ⟨hclears, e, herr⟩⟩ := hclear
    · right
      obtain rfl : res = .ok () := hok
      have hstore := (storePicture_stored srv cleared user.id picture a.store).spec
      rw [show cleared.files = _ from hfiles] at hstore
      cases hs : storePicture srv cleared user.id picture a.store with
      | mk d res =>
        dsimp only at hr
        rw [hs] at hr hstore
        obtain ⟨hwrites, ⟨hend, info, hok, hname⟩ | ⟨hend, e, herr⟩⟩ := hstore
        · obtain rfl : res = .ok info := hok
          subst hr
          exact ⟨hclears, hwrites, .inl ⟨hend, by rw [← hname]⟩⟩
        · obtain rfl : res = .error e := herr
          subst hr
          exact ⟨hclears, hwrites, .inr ⟨hend, e, rfl⟩⟩
    · left
      obtain rfl : res = .error e := herr
      subst hr
      exact ⟨hclears, hfiles, e, rfl⟩

theorem replacePicture_none {user : UserEntity} {picture : IncomingFile}
    (h : ¬ (user.picture.isSome ∧ picture.bytes ≠ [])) (disk : Disk) (a : UpdateAnswers) :
    replacePicture srv disk user picture a = (disk, .ok user) :=
  if_neg h

/-! ### A user with a picture -/

/-- A platform without symbolic links that takes every file for a PNG image. -/
def plainServices : Services where
  lib := ⟨fun _ => .ok .null, fun _ _ => .ok [], ⟨fun _ => .error [], fun _ _ => ([], none)⟩, 0⟩
  os := ⟨fun p => some (lexically_normal p), fun _ => .ok "image/png".toList⟩
  rootPath := "/m".toList
  media_path := "media".toList
  file_upload_limit_size := 100

/-- All digits of the generated names are the same. -/
def plainStore (digit tmp : ℕ) : StoreAnswers :=
  ⟨none, fun _ => digit, fun _ => tmp, true, none, true, none, true⟩

def samplePath (id : ℤ) (name : Str) : Path :=
  ["m".toList, "users".toList, to_string id, "file".toList, name]

/-- User 7 has one picture. -/
def withPicture (name : Str) : State where
  disk := ⟨fun q => if q = samplePath 7 name then some "old".toList else none,
    fun q => q = ["m".toList, "users".toList, "7".toList, "file".toList]⟩
  users := fun id => if id = 7 then some ⟨"u".toList, some name, none, none, 0, 0⟩ else none

end AdequateApi.UsersService
