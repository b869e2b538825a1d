import AdequateApi.FileStoreSpec
import Mathlib.Data.List.DropRight

/-! `writeFileAtomic` for a final path: all of the bytes, or the disk as it was. -/
namespace AdequateApi.AtomicWrite
open StdString FileTree FileSystemService

/-! ### The directory of a path -/

/-- Up to the last slash. -/
def directoryPart (p : Str) : Str := p.rdropWhile (· ≠ '/')

/-- `parent_path`: without the last name and the slashes before it, except the root directory. -/
def parent_path (p : Str) : Str :=
  let shown := (directoryPart p).rdropWhile (· = '/')
  if shown = [] then (directoryPart p).take 1 else shown

theorem directoryPart_cases (p : Str) :
    directoryPart p = [] ∨ ∃ dir, directoryPart p = dir ++ ['/'] := by
  by_cases h : directoryPart p = []
  · exact .inl h
  · have hlast := List.rdropWhile_last_not (fun c => decide (c ≠ '/')) p h
    have hslash : (directoryPart p).getLast h = '/' :=
      by_contra fun hne => hlast (decide_eq_true hne)
    exact .inr ⟨_, by rw [← hslash, List.dropLast_append_getLast]⟩

theorem directoryPart_append (p : Str) : directoryPart p ++ p.rtakeWhile (· ≠ '/') = p :=
  List.rdropWhile_append_rtakeWhile

theorem filename_eq (p : Str) : filename p = p.rtakeWhile (· ≠ '/') := by
  have hwhole := directoryPart_append p
  have hname : '/' ∉ p.rtakeWhile (· ≠ '/') := fun h => by
    simpa using List.mem_rtakeWhile_imp h
  generalize p.rtakeWhile (· ≠ '/') = name at hwhole hname ⊢
  rw [filename, ← hwhole]
  rcases directoryPart_cases p with hdir | ⟨dir, hdir⟩
  · rw [hdir, List.nil_append, List.splitOn_eq_singleton hname]
    rfl
  · rw [hdir, List.append_assoc, List.singleton_append, List.splitOn_append_cons_self,
      List.splitOn_eq_singleton hname, List.getLastD_concat]

theorem names_slashes {s : Str} (h : ∀ c ∈ s, c = '/') : names s = [] := by
  induction s with
  | nil => rfl
  | cons c s ih =>
    obtain rfl := h c List.mem_cons_self
    have hcut := names_slash [] s
    rw [ih fun d hd => h d (List.mem_cons_of_mem _ hd)] at hcut
    exact hcut

theorem names_append_slashes (p : Str) {s : Str} (h : ∀ c ∈ s, c = '/') :
    names (p ++ s) = names p := by
  cases s with
  | nil => rw [List.append_nil]
  | cons c s =>
    obtain rfl := h c List.mem_cons_self
    have hrest := names_slashes fun d hd => h d (List.mem_cons_of_mem _ hd)
    rw [names_slash, hrest, List.append_nil]

/-- The slashes at the end do not count. -/
theorem names_shown (p : Str) : names (p.rdropWhile (· = '/')) = names p := by
  have hslashes : ∀ c ∈ p.rtakeWhile (· = '/'), c = '/' := fun c hc => by
    simpa using List.mem_rtakeWhile_imp hc
  have hwhole := names_append_slashes (p.rdropWhile (· = '/')) hslashes
  rw [List.rdropWhile_append_rtakeWhile] at hwhole
  exact hwhole.symm

theorem names_directory (p : Str) : names (parent_path p) = names (directoryPart p) := by
  unfold parent_path
  dsimp only
  split
  · rename_i hshown
    have hslashes : ∀ c ∈ directoryPart p, c = '/' := by
      simpa [List.rdropWhile_eq_nil_iff] using hshown
    rw [names_slashes hslashes, names_slashes fun c hc => hslashes c (List.mem_of_mem_take hc)]
  · exact names_shown _

/-- The directory and the last name make up the path. -/
theorem names_parent_path (p : Str) : names (append (parent_path p) (filename p)) = names p := by
  have hrelative : isAbsolute (filename p) = false := by
    cases hname : filename p with
    | nil => rfl
    | cons c s =>
      have hc : c ≠ '/' := fun e => filename_no_slash p (by rw [hname, e]; exact List.mem_cons_self)
      simpa [isAbsolute] using hc
  have hwhole := directoryPart_append p
  rw [← filename_eq] at hwhole
  rw [names_append _ hrelative, names_directory]
  rcases directoryPart_cases p with hdir | ⟨dir, hdir⟩
  · rw [hdir, List.nil_append] at hwhole
    rw [hdir, hwhole]
    rfl
  · rw [hdir, List.append_assoc, List.singleton_append] at hwhole
    rw [hdir, names_append_slashes dir (by simp), ← names_slash, hwhole]

/-! ### All or nothing -/

/-- `writeFileAtomic`, which derives the directory from the final path. A rename error spells the
path as `dir / name`. -/
def writeTo (disk : Disk) (finalPath bytes : Str) (a : StoreAnswers) :
    Disk × Except FileError ℕ :=
  writeFileAtomic disk (parent_path finalPath) (filename finalPath) bytes a

def tmpPath (finalPath : Str) (a : StoreAnswers) : Path :=
  names (append (parent_path finalPath) (tmpName a))

/-- The file is there with its bytes and nothing else has changed, or nothing has changed. -/
def AllOrNothing (disk : Disk) (finalPath bytes : Str) : Disk × Except FileError ℕ → Prop
  | (d, .ok bytesWritten) =>
      d.files (names finalPath) = some bytes ∧ bytesWritten = bytes.length ∧
        (∀ q, q ≠ names finalPath → d.files q = disk.files q) ∧ d.dirs = disk.dirs
  | (d, .error _) => d = disk

theorem bytesWritten_eq {disk d : Disk} {dir name bytes : Str} {a : StoreAnswers} {n : ℕ}
    (h : writeFileAtomic disk dir name bytes a = (d, .ok n)) : n = bytes.length := by
  unfold writeFileAtomic at h
  dsimp only at h
  split at h
  · cases h
  split at h
  · cases h
  split at h
  · cases h
  split at h
  · cases h
  · cases h
    rfl

/-- Each of the four steps may fail, and a write after any number of bytes. -/
theorem write_all_or_nothing {disk : Disk} {finalPath bytes : Str} {a : StoreAnswers}
    (fresh : disk.files (tmpPath finalPath a) = none) (cleaned : a.cleaned = true) :
    AllOrNothing disk finalPath bytes (writeTo disk finalPath bytes a) := by
  have same : Function.update disk.files (tmpPath finalPath a) none = disk.files := by
    rw [← fresh, Function.update_eq_self]
  obtain ⟨files, dirs, ends⟩ := writeFileAtomic_end disk (parent_path finalPath)
    (filename finalPath) bytes a
  change _ = applied _ ((writeEnd bytes a).writes (tmpPath finalPath a) _ _) at files
  rw [names_parent_path] at files
  unfold writeTo
  cases hr : writeFileAtomic disk (parent_path finalPath) (filename finalPath) bytes a with
  | mk d res =>
    rw [hr] at files dirs ends
    cases res with
    | ok n =>
      have hfiles : d.files = Function.update disk.files (names finalPath) (some bytes) := by
        rw [ends.mpr ⟨n, rfl⟩] at files
        rw [← same]
        exact files
      refine ⟨?_, bytesWritten_eq hr, fun q hq => ?_, dirs⟩
      · rw [hfiles, Function.update_self]
      · rw [hfiles, Function.update_of_ne hq]
    | error e =>
      have hfiles : d.files = disk.files := by
        cases hend : writeEnd bytes a with
        | refused => rwa [hend] at files
        | cleaned =>
          rw [hend] at files
          exact files.trans same
        | leftover part => exact absurd hend (writeEnd_tidy cleaned bytes part)
        | stored =>
          obtain ⟨n, hn⟩ := ends.mp hend
          cases hn
      cases d
      cases disk
      exact congrArg₂ Disk.mk hfiles dirs

def noFilesBut (p content : Str) : Disk where
  files := fun q => if q = names p then some content else none
  dirs := fun _ => true

def fullAnswers : StoreAnswers where
  create_error := none
  rng := fun _ => 0
  tmp_rng := fun _ => 0
  opened := true
  write_stops := some 2
  flushed := false
  rename_error := none
  cleaned := true

/-- The disk is full after two bytes, over a file that is there. -/
theorem write_all_or_nothing_full :
    AllOrNothing (noFilesBut "media/a.txt".toList "old".toList) "media/a.txt".toList
      "new text".toList (writeTo (noFilesBut "media/a.txt".toList "old".toList)
        "media/a.txt".toList "new text".toList fullAnswers) :=
  write_all_or_nothing (by decide +kernel) rfl

end AdequateApi.AtomicWrite
