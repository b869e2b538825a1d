import AdequateApi.UserPictureSpec

/-! What a failed `update` or `remove` leaves behind. The disk is changed before the
database is asked, and nothing is put back. -/
namespace AdequateApi.UsersService
open StdString FileTree FileSystemService UsersRepository HttpMessages DbConnection

variable (srv : Services)

/-- The directory held before the call just what the call leaves there: nothing was done, the
removal spared every file, or clearing and storing came to the same files again. -/
def DirectoryKept (files : Path → Option Str) (p : Path) : Clearing → Writes → Prop
  | .refused, _ => True
  | .failed kept, _ => ∀ q, Disk.below p q = true → files q ≠ none → kept q = true
  | .absent, ws => ∀ q, Disk.below p q = true → files q = applied files ws q
  | .emptied, ws => ∀ q, Disk.below p q = true → files q = applied (fun _ => none) ws q

theorem directoryKept_iff (files : Path → Option Str) (p : Path) (c : Clearing) (ws : Writes) :
    (¬ c.Clears → ((∀ q, Disk.below p q = true → c.files p files q = files q) ↔
      DirectoryKept files p c ws)) ∧
    (c.Clears → ((∀ q, Disk.below p q = true → applied (c.files p files) ws q = files q) ↔
      DirectoryKept files p c ws)) := by
  cases c with
  | refused => exact ⟨fun _ => ⟨fun _ => trivial, fun _ _ _ => rfl⟩, fun h => h.elim⟩
  | absent =>
    refine ⟨fun h => absurd trivial h, fun _ => ?_⟩
    exact ⟨fun h q hq => (h q hq).symm, fun h q hq => (h q hq).symm⟩
  | failed kept =>
    refine ⟨fun _ => ?_, fun h => h.elim⟩
    constructor
    · intro h q hq hne
      have hfile := h q hq
      cases hk : kept q with
      | true => rfl
      | false =>
        simp only [Clearing.files, hq, hk, Bool.not_false, Bool.and_self, if_true] at hfile
        exact absurd hfile.symm hne
    · intro h q hq
      cases hfile : files q with
      | none => simp [Clearing.files, hfile]
      | some bytes =>
        have hk := h q hq (by simp [hfile])
        simp [Clearing.files, hk, hfile]
  | emptied =>
    refine ⟨fun h => absurd trivial h, fun _ => ?_⟩
    have hnone : ∀ q, Disk.below p q = true →
        applied (Clearing.emptied.files p files) ws q = applied (fun _ => none) ws q := by
      intro q hq
      exact applied_congr (by simp [Clearing.files, hq]) ws
    constructor
    · intro h q hq
      rw [← h q hq, hnone q hq]
    · intro h q hq
      rw [hnone q hq, h q hq]

/-! ### The mutations -/

inductive Mutation
  | update (data : UserUpdateSerializer) (picture : IncomingFile) (a : UpdateAnswers)
  | remove (id : BitVec 64) (a : RemoveAnswers)

namespace Mutation

def perform (s : State) : Mutation → State × Except Exn Unit
  | .update data picture a => UsersService.update srv s data picture a
  | .remove id a => UsersService.remove srv s id a

/-- The key of the row. -/
def row : Mutation → ℤ
  | .update data _ _ => data.id
  | .remove id _ => id.toInt

/-- The number in the path of the directory. -/
def dir : Mutation → ℤ
  | .update data _ _ => data.id
  | .remove id _ => id.toNat

/-- An update of this entity keeps row and directory although it fails. -/
def UpdateFailsCleanly (s : State) (user : UserEntity) (picture : IncomingFile)
    (a : UpdateAnswers) : Prop :=
  if user.picture.isSome ∧ picture.bytes ≠ [] then
    let c := clearing srv s.disk user.id a.stat_fails a.removal
    DirectoryKept s.disk.files (picturePath srv user.id) c
        (pictureWrites srv user.id picture a.store) ∧
      (c.Clears → pictureEnd srv user.id picture a.store = .stored →
        UpdateKeepsRow s.users { user with picture := some (pictureName srv picture a.store) }
          a.query)
  else sets user ≠ [] → UpdateKeepsRow s.users user a.query

def FailsCleanly (s : State) : Mutation → Prop
  | .update data picture a => ∀ user, hashPassword data.toEntity a.hash = .ok user →
      UpdateFailsCleanly srv s user picture a
  | .remove id a =>
      let c := clearing srv s.disk id.toNat a.stat_fails a.removal
      DirectoryKept s.disk.files (picturePath srv id.toNat) c [] ∧
        (c.Clears → RemoveKeepsRow s.users id.toInt a.query)

def Unchanged (s t : State) (m : Mutation) : Prop :=
  t.users m.row = s.users m.row ∧
    ∀ q, Disk.below (picturePath srv m.dir) q = true → t.disk.files q = s.disk.files q

end Mutation

/-- One iff for the two stores. -/
theorem Mutation.unchanged_of {s t : State} {m : Mutation} {directory row : Prop}
    (hrow : t.users m.row = s.users m.row ↔ row)
    (hdir : (∀ q, Disk.below (picturePath srv m.dir) q = true →
      t.disk.files q = s.disk.files q) ↔ directory) :
    m.Unchanged srv s t ↔ directory ∧ row := by
  unfold Unchanged
  rw [hrow, hdir, and_comm]

/-- After the password was hashed. -/
theorem update_unchanged_iff (s : State) {data : UserUpdateSerializer} {user : UserEntity}
    (picture : IncomingFile) (a : UpdateAnswers)
    (hu : hashPassword data.toEntity a.hash = .ok user) :
    (Mutation.update data picture a).Unchanged srv s (update srv s data picture a).1 ↔
      Mutation.UpdateFailsCleanly srv s user picture a := by
  have hid : data.id = user.id := (hashPassword_ok hu).1.symm
  unfold update Mutation.UpdateFailsCleanly
  rw [hu]
  dsimp only
  by_cases htaken : user.picture.isSome ∧ picture.bytes ≠ []
  · rw [if_pos htaken]
    obtain ⟨hstop, hleave⟩ := directoryKept_iff s.disk.files (picturePath srv user.id)
      (clearing srv s.disk user.id a.stat_fails a.removal)
      (pictureWrites srv user.id picture a.store)
    cases hr : replacePicture srv s.disk user picture a with
    | mk d res =>
      have hspec := replacePicture_spec srv htaken s.disk a
      rw [hr] at hspec
      obtain ⟨hc, hf, e, he⟩ | ⟨hc, hf, ⟨hend, hok⟩ | ⟨hend, e, he⟩⟩ := hspec
      · obtain rfl : res = .error e := he
        apply Mutation.unchanged_of
        · exact ⟨fun _ h => absurd h hc, fun _ => rfl⟩
        · rw [← hstop hc]
          simp only [Mutation.dir, hid, ← hf]
      · obtain rfl := hok
        apply Mutation.unchanged_of
        · have hrow := update_row s.users
            { user with picture := some (pictureName srv picture a.store) } a.query
          rw [Mutation.row, hid]
          rw [hrow]
          have hne : sets { user with picture := some (pictureName srv picture a.store) } ≠ [] :=
            sets_ne_nil (given_pictureName srv picture a.store)
          exact ⟨fun h _ _ => h hne, fun h _ => h hc hend⟩
        · rw [← hleave hc]
          simp only [Mutation.dir, hid, ← hf]
      · obtain rfl : res = .error e := he
        apply Mutation.unchanged_of
        · exact ⟨fun _ _ h => absurd h hend, fun _ => rfl⟩
        · rw [← hleave hc]
          simp only [Mutation.dir, hid, ← hf]
  · rw [if_neg htaken, replacePicture_none srv htaken]
    unfold Mutation.Unchanged
    rw [Mutation.row, hid, update_row]
    simp

theorem remove_unchanged_iff (s : State) (id : BitVec 64) (a : RemoveAnswers) :
    (Mutation.remove id a).Unchanged srv s (remove srv s id a).1 ↔
      (Mutation.remove id a).FailsCleanly srv s := by
  obtain ⟨hstop, hleave⟩ := directoryKept_iff s.disk.files (picturePath srv id.toNat)
    (clearing srv s.disk id.toNat a.stat_fails a.removal) []
  have hclear := (clearDirectory_cleared srv s.disk id.toNat a.stat_fails a.removal).spec
  unfold remove Mutation.FailsCleanly
  cases hr : clearDirectory srv s.disk (pictureDir id.toNat) a.stat_fails a.removal with
  | mk d res =>
    rw [hr] at hclear
    obtain ⟨hf, ⟨hc, hok⟩ | ⟨hc, e, he⟩⟩ := hclear
    · obtain rfl : res = .ok () := hok
      apply Mutation.unchanged_of
      · rw [Mutation.row, remove_row]
        exact ⟨fun h _ => h, fun h => h hc⟩
      · rw [← hleave hc]
        simp only [Mutation.dir, applied, List.foldl_nil, ← hf]
    · obtain rfl : res = .error e := he
      apply Mutation.unchanged_of
      · exact ⟨fun _ h => absurd h hc, fun _ => rfl⟩
      · rw [← hstop hc]
        simp only [Mutation.dir, ← hf]

theorem unchanged_iff (s : State) (m : Mutation) :
    m.Unchanged srv s (m.perform srv s).1 ↔ m.FailsCleanly srv s := by
  cases m with
  | remove id a => exact remove_unchanged_iff srv s id a
  | update data picture a =>
    cases hu : hashPassword data.toEntity a.hash with
    | error e =>
      have hsame : update srv s data picture a = (s, .error e) := by
        unfold update
        rw [hu]
      have hclean : (Mutation.update data picture a).FailsCleanly srv s := by
        intro user h
        rw [hu] at h
        cases h
      refine ⟨fun _ => hclean, fun _ => ?_⟩
      simp only [Mutation.perform, hsame]
      exact ⟨rfl, fun _ _ => rfl⟩
    | ok user =>
      refine (update_unchanged_iff srv s picture a hu).trans ⟨fun h u hu' => ?_, fun h => h user hu⟩
      rw [hu] at hu'
      cases hu'
      exact h

/-- A call that throws leaves the row and the files as they were exactly when it stopped
before the directory was changed, or the directory held what the call leaves there, and its
statement was not carried out behind the error. -/
theorem failure_keeps_iff (s : State) (m : Mutation) {e : Exn}
    (_ : (m.perform srv s).2 = .error e) :
    m.Unchanged srv s (m.perform srv s).1 ↔ m.FailsCleanly srv s :=
  unchanged_iff srv s m

/-! ### A unique violation after the picture was replaced -/

def changesPicture : UserUpdateSerializer := ⟨7, none, some "p.png".toList, none, none⟩

def uniqueViolation : QueryAnswer := .failed (.db .UniqueViolation "duplicate key".toList) none

/-- A new username, and nothing else. -/
def renames : UserUpdateSerializer := ⟨7, some "v".toList, none, none, none⟩

theorem failure_keeps_iff_rename :
    let m := Mutation.update renames ⟨[], [], []⟩
      ⟨.ok [], false, none, plainStore 0 1, uniqueViolation⟩
    let s := withPicture "old.png".toList
    (m.perform plainServices s).2 = .error (.validation "Email already exists".toList) ∧
      (m.Unchanged plainServices s (m.perform plainServices s).1 ↔
        m.FailsCleanly plainServices s) :=
  ⟨by decide +kernel, failure_keeps_iff plainServices _ _
    (e := .validation "Email already exists".toList) (by decide +kernel)⟩

/-- The request is answered with a conflict; the picture that the row names is gone, and
another file is in its place. -/
theorem failure_changes :
    let m := Mutation.update { changesPicture with email := some "a@b.c".toList }
      ⟨"new".toList, "p.png".toList, "image/png".toList⟩
      ⟨.ok [], false, none, plainStore 0 1, uniqueViolation⟩
    let s := withPicture "old.png".toList
    let t := (m.perform plainServices s).1
    (m.perform plainServices s).2 = .error (.validation "Email already exists".toList) ∧
      s.disk.files (samplePath 7 "old.png".toList) = some "old".toList ∧
      t.disk.files (samplePath 7 "old.png".toList) = none ∧
      t.disk.files (samplePath 7 "00000000000000000000000000000000.png".toList) =
        some "new".toList ∧
      ¬ m.Unchanged plainServices s t := by
  intro m s t
  have hfacts : (m.perform plainServices s).2 = .error (.validation "Email already exists".toList) ∧
      s.disk.files (samplePath 7 "old.png".toList) = some "old".toList ∧
      t.disk.files (samplePath 7 "old.png".toList) = none ∧
      t.disk.files (samplePath 7 "00000000000000000000000000000000.png".toList) =
        some "new".toList := by decide +kernel
  obtain ⟨herr, hold, hgone, hnew⟩ := hfacts
  refine ⟨herr, hold, hgone, hnew, fun h => ?_⟩
  have hsame := h.2 (samplePath 7 "old.png".toList) (by decide +kernel)
  rw [hold, hgone] at hsame
  cases hsame

end AdequateApi.UsersService
