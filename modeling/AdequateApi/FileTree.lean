import AdequateApi.StdString
import Mathlib.Logic.Function.Basic

/-! Path strings in the style of `std::filesystem::path`, and a disk of files and
directories. The disk is keyed by the names along a path, without symbolic links. -/
namespace AdequateApi.FileTree
open StdString

/-! ### Path strings -/

abbrev Name := List Char
abbrev Path := List Name

def isAbsolute (p : List Char) : Bool := p.head? = some '/'

/-- `p / q`. -/
def append (p q : List Char) : List Char :=
  if isAbsolute q then q
  else if p = [] ∨ p.getLast? = some '/' then p ++ q
  else p ++ '/' :: q

/-- The names along a path. -/
def names (p : List Char) : Path := (p.splitOn '/').filter (· ≠ [])

/-- `begin()` to `end()`: the root directory, the names, and an empty element for a
trailing slash. -/
def components (p : List Char) : Path :=
  (if isAbsolute p then [['/']] else []) ++ names p ++
    (if names p ≠ [] ∧ p.getLast? = some '/' then [[]] else [])

def filename (p : List Char) : Name := (p.splitOn '/').getLastD []

/-- With the dot; dot files have none. -/
def extension (p : List Char) : List Char :=
  let f := filename p
  if f = ['.', '.'] then []
  else
    match f.reverse.span (· ≠ '.') with
    | (_, []) | (_, [_]) => []
    | (tail, _ :: _ :: _) => '.' :: tail.reverse

def normalStep (absolute : Bool) (stack : Path) (n : Name) : Path :=
  if n = ['.'] then stack
  else if n ≠ ['.', '.'] then n :: stack
  else
    match stack with
    | [] => if absolute then [] else [n]
    | top :: rest => if top = ['.', '.'] then n :: stack else rest

def lexically_normal (p : List Char) : List Char :=
  let ns := names p
  let out := (ns.foldl (normalStep (isAbsolute p)) []).reverse
  let root := if isAbsolute p then ['/'] else []
  if p = [] then []
  else if out = [] then if isAbsolute p then ['/'] else ['.']
  else
    let slash := (p.getLast? = some '/' ∨ ns.getLast? = some ['.'] ∨ ns.getLast? = some ['.', '.'])
      ∧ out.getLast? ≠ some ['.', '.']
    root ++ ['/'].intercalate out ++ (if slash then ['/'] else [])

theorem names_slash (p q : List Char) : names (p ++ '/' :: q) = names p ++ names q := by
  unfold names
  rw [List.splitOn_append_cons_self, List.filter_append]

theorem names_name {n : Name} (hn : n ≠ []) (h : '/' ∉ n) : names n = [n] := by
  unfold names
  rw [List.splitOn_eq_singleton h, List.filter_cons_of_pos (by simpa using hn), List.filter_nil]

/-- Appending a relative path appends its names. -/
theorem names_append (p : List Char) {q : List Char} (h : isAbsolute q = false) :
    names (append p q) = names p ++ names q := by
  unfold append
  rw [if_neg (by simp [h])]
  split
  · rename_i hp
    rcases hp with rfl | hp
    · rfl
    · obtain ⟨r, rfl⟩ := List.getLast?_eq_some_iff.mp hp
      rw [List.append_assoc, List.singleton_append, names_slash, names_slash]
      simp [names]
  · exact names_slash p q

theorem filename_no_slash (p : List Char) : '/' ∉ filename p := by
  unfold filename
  rw [List.getLastD_eq_getLast?, List.getLast?_eq_some_getLast (List.splitOn_ne_nil '/' p)]
  exact not_mem_of_mem_splitOn (List.getLast_mem _)

theorem extension_no_slash (p : List Char) : '/' ∉ extension p := by
  have hf := filename_no_slash p
  unfold extension
  dsimp only
  split
  · exact List.not_mem_nil
  · have hspan := List.takeWhile_append_dropWhile (p := (· ≠ '.')) (l := (filename p).reverse)
    rw [List.span_eq_takeWhile_dropWhile]
    split
    · exact List.not_mem_nil
    · exact List.not_mem_nil
    · rename_i tail x y rest heq
      simp only [Prod.mk.injEq] at heq
      intro h
      apply hf
      rw [← List.mem_reverse, ← hspan, heq.1]
      simp at h
      simp [h]

theorem append_ne_nil {p q : List Char} (h : q ≠ []) : append p q ≠ [] := by
  unfold append
  split
  · exact h
  split
  · exact List.append_ne_nil_of_right_ne_nil p h
  · exact List.append_ne_nil_of_right_ne_nil p (List.cons_ne_nil _ q)

/-! ### The disk -/

structure Disk where
  files : Path → Option (List Char)
  dirs : Path → Bool

namespace Disk

/-- Whether `q` is `p` or lies below it. -/
def below (p q : Path) : Bool := p.isPrefixOf q

def exists_ (d : Disk) (p : Path) : Bool := d.dirs p || (d.files p).isSome

def create_directories (d : Disk) (p : Path) : Disk :=
  { d with dirs := fun q => d.dirs q || below q p }

/-- `remove_all`, sparing what satisfies `kept`. -/
def remove_all (d : Disk) (p : Path) (kept : Path → Bool) : Disk where
  files := fun q => if below p q && !kept q then none else d.files q
  dirs := fun q => if below p q && !kept q then false else d.dirs q

def write (d : Disk) (p : Path) (bytes : List Char) : Disk :=
  { d with files := Function.update d.files p (some bytes) }

def unlink (d : Disk) (p : Path) : Disk :=
  { d with files := Function.update d.files p none }

def rename (d : Disk) (p q : Path) : Disk :=
  { d with files := Function.update (Function.update d.files p none) q (d.files p) }

end Disk

/-- Contents given to some paths, the latest last; none for an absent file. -/
abbrev Writes := List (Path × Option (List Char))

def applied (files : Path → Option (List Char)) (ws : Writes) : Path → Option (List Char) :=
  ws.foldl (fun f w => Function.update f w.1 w.2) files

theorem applied_congr {f g : Path → Option (List Char)} {q : Path} (h : f q = g q)
    (ws : Writes) : applied f ws q = applied g ws q := by
  induction ws generalizing f g with
  | nil => exact h
  | cons w ws ih =>
    apply ih
    by_cases hq : q = w.1
    · subst hq
      simp
    · simp [Function.update_of_ne hq, h]

/-- Paths that are not written keep what they had. -/
theorem applied_of_not_mem {f : Path → Option (List Char)} {q : Path} {ws : Writes}
    (h : ∀ w ∈ ws, w.1 ≠ q) : applied f ws q = f q := by
  induction ws generalizing f with
  | nil => rfl
  | cons w ws ih =>
    have hw : q ≠ w.1 := (h w List.mem_cons_self).symm
    have htail : ∀ v ∈ ws, v.1 ≠ q := fun v hv => h v (List.mem_cons_of_mem w hv)
    calc applied f (w :: ws) q = applied (Function.update f w.1 w.2) ws q := rfl
      _ = Function.update f w.1 w.2 q := ih htail
      _ = f q := Function.update_of_ne hw _ _

end AdequateApi.FileTree
