import AdequateApi.FileSystemService

/-! The root check of `FileSystemService`, and what `remove` and `exists` can reach on a disk with
symbolic links. -/
namespace AdequateApi.RootConfinement
open StdString FileTree FileSystemService

/-! ### A disk with symbolic links -/

inductive Node
  | file
  | dir
  | link (target : Str)
  deriving DecidableEq, Repr

structure ValidName (n : Name) : Prop where
  ne_nil : n ≠ []
  no_slash : '/' ∉ n
  ne_dot : n ≠ ['.']
  ne_dots : n ≠ ['.', '.']

/-- Entries by their place: the names of the directories from the root directory on, and their own
name. Every entry stands in a directory. -/
structure Tree where
  node : Path → Option Node
  cwd : Path
  root_dir : node [] = some .dir
  cwd_dir : node cwd = some .dir
  parent : ∀ p n, (node (p ++ [n])).isSome → node p = some .dir
  valid : ∀ p, (node p).isSome → ∀ n ∈ p, ValidName n

/-- The canonical text of a place. -/
def text (place : Path) : Str := '/' :: ['/'].intercalate place

/-- The names of a path; a slash at its end asks for a directory, as a dot does. -/
def parts (p : Str) : Path := names p ++ if p.getLast? = some '/' then [['.']] else []

namespace Tree

variable (t : Tree)

/-- Follow names from a directory on; `next` goes on behind a symbolic link. -/
def follow (next : Path → Path → Option Path) (place : Path) : Path → Option Path
  | [] => some place
  | n :: rest =>
      if t.node place ≠ some .dir then none
      else if n = ['.'] then follow next place rest
      else if n = ['.', '.'] then follow next place.dropLast rest
      else
        match t.node (place ++ [n]) with
        | none => none
        | some (.link target) =>
            next (if isAbsolute target then [] else place) (parts target ++ rest)
        | some _ => follow next (place ++ [n]) rest

/-- Through `links` symbolic links at most. -/
def walk : ℕ → Path → Path → Option Path
  | 0 => t.follow fun _ _ => none
  | links + 1 => t.follow (walk links)

def start (p : Str) : Path := if isAbsolute p then [] else t.cwd

/-- `stat`: where a path leads, links at its end included. -/
def resolve (p : Str) : Option Path := t.walk 40 (t.start p) (parts p)

/-- `lstat`: the entry that a path names, which may be a link. -/
def lookup (p : Str) : Option Path :=
  match (parts p).getLast? with
  | none => t.resolve p
  | some n =>
      if n = ['.'] ∨ n = ['.', '.'] then t.resolve p
      else (t.walk 40 (t.start p) (parts p).dropLast).bind fun place =>
        if (t.node (place ++ [n])).isSome then some (place ++ [n]) else none

/-- A file or a directory; a link has no canonical path of its own. -/
def Canonical (q : Path) : Prop := t.node q = some .file ∨ t.node q = some .dir

variable {t}

theorem canonical_dropLast {place : Path} (h : t.node place = some .dir) :
    t.Canonical place.dropLast := by
  rcases List.eq_nil_or_concat place with rfl | ⟨p, n, rfl⟩
  · exact .inr h
  · have hparent := t.parent p n (by rw [← List.concat_eq_append, h]; rfl)
    rw [List.concat_eq_append, List.dropLast_concat]
    exact .inr hparent

theorem canonical_or_link {q : Path} {k : Node} (h : t.node q = some k) :
    t.Canonical q ∨ ∃ target, k = .link target := by
  cases k with
  | file => exact .inl (.inl h)
  | dir => exact .inl (.inr h)
  | link target => exact .inr ⟨target, rfl⟩

section follow

variable {next : Path → Path → Option Path}

theorem follow_canonical (hnext : ∀ place rest q, t.Canonical place → next place rest = some q →
    t.Canonical q) {place q rest : Path} (hplace : t.Canonical place)
    (h : t.follow next place rest = some q) : t.Canonical q := by
  induction rest generalizing place with
  | nil => exact Option.some.inj h ▸ hplace
  | cons n rest ih =>
    rw [follow] at h
    split at h
    · cases h
    rename_i hdir
    split at h
    · exact ih hplace h
    split at h
    · exact ih (canonical_dropLast (not_not.mp hdir)) h
    split at h
    · cases h
    · refine hnext _ _ _ ?_ h
      split
      · exact .inr t.root_dir
      · exact hplace
    · rename_i k hlink hnode
      exact ih ((canonical_or_link hnode).resolve_right fun ⟨target, hk⟩ => hlink target hk) h

/-- One more name that is no link. -/
theorem follow_append {q : Path} {n : Name} (hdot : n ≠ ['.']) (hdots : n ≠ ['.', '.'])
    (hq : t.node q = some .dir) (hnode : t.Canonical (q ++ [n]))
    (hnext : ∀ place rest, next place rest = some q → next place (rest ++ [n]) = some (q ++ [n]))
    {place rest : Path} (h : t.follow next place rest = some q) :
    t.follow next place (rest ++ [n]) = some (q ++ [n]) := by
  induction rest generalizing place with
  | nil =>
    obtain rfl := Option.some.inj h
    rw [List.nil_append, follow, if_neg (not_not.mpr hq), if_neg hdot, if_neg hdots]
    rcases hnode with hnode | hnode
    · rw [hnode]
      rfl
    · rw [hnode]
      rfl
  | cons m rest ih =>
    rw [follow] at h
    rw [List.cons_append, follow]
    split at h
    · cases h
    rename_i hdir
    rw [if_neg hdir]
    split at h
    · rename_i hm
      rw [if_pos hm]
      exact ih h
    rename_i hm
    rw [if_neg hm]
    split at h
    · rename_i hm'
      rw [if_pos hm']
      exact ih h
    rename_i hm'
    rw [if_neg hm']
    split at h
    · cases h
    · rw [← List.append_assoc]
      exact hnext _ _ h
    · exact ih h

end follow

/-- A walk that starts at a file or a directory ends at one. -/
theorem walk_canonical {links : ℕ} {place q rest : Path}
    (hplace : t.Canonical place) (h : t.walk links place rest = some q) : t.Canonical q := by
  induction links generalizing place rest q with
  | zero => exact follow_canonical (by simp) hplace h
  | succ links ih => exact follow_canonical (fun _ _ _ hp hn => ih hp hn) hplace h

theorem walk_append {links : ℕ} {place q rest : Path} {n : Name}
    (h : t.walk links place rest = some q) (hdot : n ≠ ['.']) (hdots : n ≠ ['.', '.'])
    (hq : t.node q = some .dir) (hnode : t.Canonical (q ++ [n])) :
    t.walk links place (rest ++ [n]) = some (q ++ [n]) := by
  induction links generalizing place rest with
  | zero => exact follow_append hdot hdots hq hnode (by simp) h
  | succ links ih => exact follow_append hdot hdots hq hnode (fun _ _ hn => ih hn) h

theorem start_canonical (p : Str) : t.Canonical (t.start p) := by
  unfold start
  split
  · exact .inr t.root_dir
  · exact .inr t.cwd_dir

theorem resolve_canonical {p : Str} {q : Path} (h : t.resolve p = some q) : t.Canonical q :=
  walk_canonical (start_canonical p) h

/-- An entry that is no link is where its path leads. -/
theorem resolve_of_lookup {p : Str} {q : Path} (h : t.lookup p = some q) (hq : t.Canonical q) :
    t.resolve p = some q := by
  unfold lookup at h
  split at h
  · exact h
  · rename_i n hlast
    split at h
    · exact h
    · rename_i hdots
      obtain ⟨place, hwalk, h⟩ := Option.bind_eq_some_iff.mp h
      split at h
      · rename_i hnode
        cases h
        obtain ⟨init, hinit⟩ := List.getLast?_eq_some_iff.mp hlast
        rw [hinit, List.dropLast_concat] at hwalk
        have hdir := t.parent place n hnode
        rw [resolve, hinit]
        exact walk_append hwalk (not_or.mp hdots).1 (not_or.mp hdots).2 hdir hq
      · cases h

/-- From the root directory a file or a directory is found under its own names. -/
theorem walk_place {q : Path} (hq : t.Canonical q) (links : ℕ) : t.walk links [] q = some q := by
  induction q using List.reverseRecOn with
  | nil => cases links <;> rfl
  | append_singleton p n ih =>
    have hnode : (t.node (p ++ [n])).isSome := by
      rcases hq with h | h <;> rw [h] <;> rfl
    have hdir := t.parent p n hnode
    have hname := t.valid _ hnode n (by simp)
    exact walk_append (ih (.inr hdir)) hname.ne_dot hname.ne_dots hdir hq

/-- What lies strictly below an entry lies in a directory. -/
theorem dir_of_below {p : Path} {r : Path} (hr : r ≠ []) (h : (t.node (p ++ r)).isSome) :
    t.node p = some .dir := by
  induction r using List.reverseRecOn with
  | nil => exact absurd rfl hr
  | append_singleton r n ih =>
    rw [← List.append_assoc] at h
    have hparent := t.parent _ _ h
    cases r with
    | nil => rwa [List.append_nil] at hparent
    | cons m r => exact ih (List.cons_ne_nil m r) (by rw [hparent]; rfl)

end Tree

/-! ### Canonical texts -/

theorem names_text {place : Path} (h : ∀ n ∈ place, ValidName n) : names (text place) = place := by
  have hslash : names (text place) = names (['/'].intercalate place) := by
    have hcut := names_slash [] (['/'].intercalate place)
    simpa [text, names] using hcut
  rw [hslash]
  by_cases hne : place = []
  · subst hne
    rfl
  · unfold names
    rw [List.splitOn_intercalate '/' (fun n hn => (h n hn).no_slash) hne]
    exact List.filter_eq_self.mpr fun n hn => by simpa using (h n hn).ne_nil

theorem last_text {place : Path} (h : ∀ n ∈ place, ValidName n) (hne : place ≠ []) :
    (text place).getLast? ≠ some '/' := by
  intro hlast
  obtain ⟨r, hr⟩ := List.getLast?_eq_some_iff.mp hlast
  cases r with
  | nil =>
    have hnames := names_text h
    rw [hr] at hnames
    exact hne hnames.symm
  | cons c r =>
    have hjoin : ['/'].intercalate place = r ++ ['/'] := (List.cons.inj hr).2
    have hsplit := List.splitOn_intercalate '/' (fun n hn => (h n hn).no_slash) hne
    rw [hjoin, List.splitOn_append_cons_self] at hsplit
    have hmem : [] ∈ place := by
      rw [← hsplit]
      exact List.mem_append_right _ (by simp)
    exact (h [] hmem).ne_nil rfl

/-- The elements of a canonical text: the root directory and the names. -/
theorem components_text {place : Path} (h : ∀ n ∈ place, ValidName n) :
    components (text place) = ['/'] :: place := by
  have habs : isAbsolute (text place) = true := rfl
  unfold components
  rw [habs, if_pos rfl, names_text h]
  by_cases hne : place = []
  · subst hne
    rfl
  · rw [if_neg fun hslash => last_text h hne hslash.2, List.append_nil]
    rfl

/-- The check compares the names of the canonical forms. -/
theorem ensureWithinRoot_iff {os : Platform} {root full : Str} {rootPlace fullPlace : Path}
    (hroot : os.weakly_canonical root = some (text rootPlace))
    (hfull : os.weakly_canonical full = some (text fullPlace))
    (hr : ∀ n ∈ rootPlace, ValidName n) (hf : ∀ n ∈ fullPlace, ValidName n) :
    ensureWithinRoot os root full =
      if rootPlace <+: fullPlace then .ok ()
      else .error (.security ("Path escapes rootDir: ".toList ++ full)) := by
  unfold ensureWithinRoot
  rw [hroot, hfull, Option.getD_some, Option.getD_some]
  dsimp only
  rw [components_text hr, components_text hf]
  have hiff : (['/'] :: rootPlace).isPrefixOf (['/'] :: fullPlace) = true ↔
      rootPlace <+: fullPlace := by
    rw [List.isPrefixOf_iff_prefix, List.cons_prefix_cons]
    exact and_iff_right rfl
  simp only [hiff]

/-! ### What `remove` and `exists` reach -/

inductive SystemCall
  | remove_all (path : Str)
  | exists_ (path : Str)
  deriving DecidableEq, Repr

/-- The path of the system call, if there is one. -/
def checkedPath (os : Platform) (opts : Options) (relativePath : Str) :
    Except FileError (Option Str) :=
  if relativePath = [] then .ok none
  else
    (ensureWithinRoot os opts.rootPath (append opts.rootPath relativePath)).map fun _ =>
      some (append opts.rootPath relativePath)

section calls

variable (os : Platform) (opts : Options) (relativePath : Str)

def removeCall : Option SystemCall :=
  match checkedPath os opts relativePath with
  | .ok (some p) => some (.remove_all p)
  | _ => none

def existsCall : Option SystemCall :=
  match checkedPath os opts relativePath with
  | .ok (some p) => some (.exists_ p)
  | _ => none

/-- Without the system call `remove` leaves the disk as it is. -/
theorem remove_without_call (disk : Disk) (failure : Option RemovalFailure)
    (h : removeCall os opts relativePath = none) :
    (remove os opts disk relativePath failure).1 = disk := by
  unfold removeCall checkedPath at h
  unfold remove
  by_cases hempty : relativePath = []
  · rw [if_pos hempty]
  · rw [if_neg hempty] at h ⊢
    dsimp only
    cases hcheck : ensureWithinRoot os opts.rootPath (append opts.rootPath relativePath) with
    | error e => rfl
    | ok _ =>
      rw [hcheck] at h
      cases h

/-- Without the system call `exists` does not depend on the disk. -/
theorem exists_without_call (disk : Disk) (stat_fails : Bool)
    (h : existsCall os opts relativePath = none) :
    exists_ os opts disk relativePath stat_fails =
      (checkedPath os opts relativePath).map fun _ => false := by
  unfold existsCall at h
  unfold exists_
  unfold checkedPath at h ⊢
  by_cases hempty : relativePath = []
  · rw [if_pos hempty, if_pos hempty]
    rfl
  · rw [if_neg hempty] at h ⊢
    rw [if_neg hempty]
    dsimp only
    cases hcheck : ensureWithinRoot os opts.rootPath (append opts.rootPath relativePath) with
    | error e => rfl
    | ok _ =>
      rw [hcheck] at h
      cases h

end calls

/-- The entries that a call removes or probes: `remove_all` takes the entry its path names and all
below it, without following links; `exists` follows them. -/
def Tree.Reaches (t : Tree) : SystemCall → Path → Prop
  | .remove_all p, q => (t.node q).isSome ∧ ∃ place, t.lookup p = some place ∧ place <+: q
  | .exists_ p, q => t.resolve p = some q

/-- The canonical form of a path that leads somewhere is the text of that place. -/
def Agrees (os : Platform) (t : Tree) : Prop :=
  ∀ p place, t.resolve p = some place → os.weakly_canonical p = some (text place)

section confinement

variable {os : Platform} {t : Tree} {opts : Options} {relativePath : Str} {rootPlace : Path}

/-- A path that passed the check and leads somewhere leads into the root. -/
theorem resolved_within (hos : Agrees os t)
    (hroot : os.weakly_canonical opts.rootPath = some (text rootPlace))
    (hvalid : ∀ n ∈ rootPlace, ValidName n) {p : Str} {q : Path}
    (hp : checkedPath os opts relativePath = .ok (some p)) (hq : t.resolve p = some q) :
    rootPlace <+: q := by
  have hnode : (t.node q).isSome := by
    rcases Tree.resolve_canonical hq with h | h <;> rw [h] <;> rfl
  unfold checkedPath at hp
  split at hp
  · cases hp
  · cases hcheck : ensureWithinRoot os opts.rootPath (append opts.rootPath relativePath) with
    | error e =>
      rw [hcheck] at hp
      cases hp
    | ok _ =>
      rw [hcheck] at hp
      cases hp
      rw [ensureWithinRoot_iff hroot (hos _ _ hq) hvalid (t.valid q hnode)] at hcheck
      by_contra hout
      rw [if_neg hout] at hcheck
      cases hcheck

/-- An entry that `remove_all` takes lies in the root, or is the link that the path names. -/
theorem removed_within (hos : Agrees os t)
    (hroot : os.weakly_canonical opts.rootPath = some (text rootPlace))
    (hvalid : ∀ n ∈ rootPlace, ValidName n) {p : Str} {q : Path}
    (hp : checkedPath os opts relativePath = .ok (some p)) (hq : t.Reaches (.remove_all p) q) :
    rootPlace <+: q ∨ (t.lookup p = some q ∧ ¬ t.Canonical q) := by
  obtain ⟨hnode, place, hlookup, r, rfl⟩ := hq
  by_cases hplace : t.Canonical place
  · have hin := resolved_within hos hroot hvalid hp (Tree.resolve_of_lookup hlookup hplace)
    exact .inl (hin.trans (List.prefix_append _ _))
  · right
    have hr : r = [] := by
      by_contra hne
      exact hplace (.inr (Tree.dir_of_below hne hnode))
    rw [hr, List.append_nil]
    exact ⟨hlookup, hplace⟩

theorem checkedPath_path {p : Str} (h : checkedPath os opts relativePath = .ok (some p)) :
    p = append opts.rootPath relativePath := by
  unfold checkedPath at h
  split at h
  · cases h
  · cases hcheck : ensureWithinRoot os opts.rootPath (append opts.rootPath relativePath) with
    | error e =>
      rw [hcheck] at h
      cases h
    | ok _ =>
      rw [hcheck] at h
      cases h
      rfl

theorem removeCall_path {call : SystemCall} (h : removeCall os opts relativePath = some call) :
    ∃ p, call = .remove_all p ∧ checkedPath os opts relativePath = .ok (some p) ∧
      p = append opts.rootPath relativePath := by
  unfold removeCall at h
  split at h
  · rename_i heq
    cases h
    exact ⟨_, rfl, heq, checkedPath_path heq⟩
  · cases h

theorem existsCall_path {call : SystemCall} (h : existsCall os opts relativePath = some call) :
    ∃ p, call = .exists_ p ∧ checkedPath os opts relativePath = .ok (some p) ∧
      p = append opts.rootPath relativePath := by
  unfold existsCall at h
  split at h
  · rename_i heq
    cases h
    exact ⟨_, rfl, heq, checkedPath_path heq⟩
  · cases h

theorem resolve_text {q : Path} (hq : t.Canonical q) : t.resolve (text q) = some q := by
  have hnode : (t.node q).isSome := by
    rcases hq with h | h <;> rw [h] <;> rfl
  have hparts : parts (text q) = q ++ if (text q).getLast? = some '/' then [['.']] else [] := by
    rw [parts, names_text (t.valid q hnode)]
  have hstart : t.start (text q) = [] := rfl
  rw [Tree.resolve, hstart, hparts]
  by_cases hne : q = []
  · subst hne
    simp [text, Tree.walk, Tree.follow, t.root_dir]
  · rw [if_neg (last_text (t.valid q hnode) hne), List.append_nil]
    exact Tree.walk_place hq 40

/-- Nothing that the call removes or probes stands outside the root, or leads out of it. -/
def Tree.Confined (t : Tree) (rootPlace : Path) (call : SystemCall) : Prop :=
  ∀ q, t.Reaches call q → rootPlace <+: q ∧ ∀ place, t.resolve (text q) = some place →
    rootPlace <+: place

/-- The links that a removal takes: the entry that its path names is no link outside the root, and
the links at it or below it do not lead out of the root. -/
structure Tree.LinksStay (t : Tree) (rootPlace : Path) (p : Str) : Prop where
  named : ∀ q target, t.lookup p = some q → t.node q = some (.link target) → rootPlace <+: q
  below : ∀ place q target, t.lookup p = some place → place <+: q →
    t.node q = some (.link target) → ∀ out, t.resolve (text q) = some out → rootPlace <+: out

theorem exists_confined (hos : Agrees os t)
    (hroot : os.weakly_canonical opts.rootPath = some (text rootPlace))
    (hvalid : ∀ n ∈ rootPlace, ValidName n) {p : Str}
    (hp : checkedPath os opts relativePath = .ok (some p)) :
    t.Confined rootPlace (.exists_ p) := by
  intro q hq
  have hin := resolved_within hos hroot hvalid hp hq
  refine ⟨hin, fun place hplace => ?_⟩
  rw [resolve_text (Tree.resolve_canonical hq)] at hplace
  cases hplace
  exact hin

theorem remove_confined_iff (hos : Agrees os t)
    (hroot : os.weakly_canonical opts.rootPath = some (text rootPlace))
    (hvalid : ∀ n ∈ rootPlace, ValidName n) {p : Str}
    (hp : checkedPath os opts relativePath = .ok (some p)) :
    t.Confined rootPlace (.remove_all p) ↔ t.LinksStay rootPlace p := by
  constructor
  · intro h
    constructor
    · intro q target hlookup hlink
      exact (h q ⟨by rw [hlink]; rfl, q, hlookup, List.prefix_rfl⟩).1
    · intro place q target hlookup hbelow hlink out hout
      exact (h q ⟨by rw [hlink]; rfl, place, hlookup, hbelow⟩).2 out hout
  · intro h q hq
    obtain ⟨hnode, place, hlookup, hbelow⟩ := id hq
    obtain ⟨k, hk⟩ := Option.isSome_iff_exists.mp hnode
    have hin : rootPlace <+: q := by
      rcases removed_within hos hroot hvalid hp hq with hin | ⟨hnamed, hnot⟩
      · exact hin
      · obtain ⟨target, rfl⟩ := (Tree.canonical_or_link hk).resolve_left hnot
        exact h.named q target hnamed hk
    refine ⟨hin, fun out hout => ?_⟩
    rcases Tree.canonical_or_link hk with hcanonical | ⟨target, rfl⟩
    · rw [resolve_text hcanonical] at hout
      cases hout
      exact hin
    · exact h.below place q target hlookup hbelow hk out hout

/-- The check compares names. `exists` stays within the root; `remove` does exactly as far as the
links allow it, since the check looks at where a path leads, and `remove_all` takes the link. -/
theorem root_confinement_iff (hos : Agrees os t) :
    (∀ root full rootPlace fullPlace, os.weakly_canonical root = some (text rootPlace) →
      os.weakly_canonical full = some (text fullPlace) → (∀ n ∈ rootPlace, ValidName n) →
      (∀ n ∈ fullPlace, ValidName n) →
        ensureWithinRoot os root full =
          if rootPlace <+: fullPlace then .ok ()
          else .error (.security ("Path escapes rootDir: ".toList ++ full))) ∧
    ∀ opts relativePath rootPlace, os.weakly_canonical opts.rootPath = some (text rootPlace) →
      (∀ n ∈ rootPlace, ValidName n) →
        (∀ call, existsCall os opts relativePath = some call → t.Confined rootPlace call) ∧
        ∀ call, removeCall os opts relativePath = some call →
          (t.Confined rootPlace call ↔
            t.LinksStay rootPlace (append opts.rootPath relativePath)) := by
  refine ⟨fun root full rootPlace fullPlace hr hf hvr hvf => ensureWithinRoot_iff hr hf hvr hvf,
    fun opts relativePath rootPlace hroot hvalid => ⟨fun call hcall => ?_, fun call hcall => ?_⟩⟩
  · obtain ⟨p, rfl, hp, rfl⟩ := existsCall_path hcall
    exact exists_confined hos hroot hvalid hp
  · obtain ⟨p, rfl, hp, rfl⟩ := removeCall_path hcall
    exact remove_confined_iff hos hroot hvalid hp

end confinement

/-! ### A root with a sibling and links -/

def mediaEntries : List (Path × Node) :=
  [([], .dir), (["srv".toList], .dir), (["srv".toList, "media".toList], .dir),
    (["srv".toList, "media".toList, "a".toList], .file),
    (["srv".toList, "media".toList, "users".toList], .dir),
    (["srv".toList, "media".toList, "users".toList, "out".toList], .link "../../media2".toList),
    (["srv".toList, "media2".toList], .dir),
    (["srv".toList, "current".toList], .link "media/a".toList)]

instance (n : Name) : Decidable (ValidName n) :=
  decidable_of_iff (n ≠ [] ∧ '/' ∉ n ∧ n ≠ ['.'] ∧ n ≠ ['.', '.'])
    ⟨fun h => ⟨h.1, h.2.1, h.2.2.1, h.2.2.2⟩, fun h => ⟨h.1, h.2, h.3, h.4⟩⟩

def mediaNode (q : Path) : Option Node := (mediaEntries.find? fun e => e.1 = q).map Prod.snd

theorem mediaNode_mem {q : Path} (h : (mediaNode q).isSome) : ∃ e ∈ mediaEntries, e.1 = q := by
  obtain ⟨k, hk⟩ := Option.isSome_iff_exists.mp h
  obtain ⟨e, he, -⟩ := Option.map_eq_some_iff.mp hk
  exact ⟨e, List.mem_of_find?_eq_some he, by simpa using List.find?_some he⟩

theorem mediaNode_parent (p : Path) (n : Name) (h : (mediaNode (p ++ [n])).isSome) :
    mediaNode p = some .dir := by
  have hall : ∀ e ∈ mediaEntries, e.1 ≠ [] → mediaNode e.1.dropLast = some .dir := by decide
  obtain ⟨e, he, heq⟩ := mediaNode_mem h
  have hparent := hall e he (by rw [heq]; simp)
  rwa [heq, List.dropLast_concat] at hparent

theorem mediaNode_valid (p : Path) (h : (mediaNode p).isSome) : ∀ n ∈ p, ValidName n := by
  have hall : ∀ e ∈ mediaEntries, ∀ n ∈ e.1, ValidName n := by decide
  obtain ⟨e, he, rfl⟩ := mediaNode_mem h
  exact hall e he

def mediaTree : Tree where
  node := mediaNode
  cwd := ["srv".toList]
  root_dir := rfl
  cwd_dir := rfl
  parent := mediaNode_parent
  valid := mediaNode_valid

def mediaPlatform : Platform where
  weakly_canonical := fun p => (mediaTree.resolve p).map text
  detectMime := fun _ => .error []

def mediaOptions : Options := { rootPath := "media".toList, mediaPath := "m".toList }

theorem mediaPlatform_agrees : Agrees mediaPlatform mediaTree := fun p place h => by
  simp only [mediaPlatform, h, Option.map_some]

/-- The sibling whose name starts with the root's is refused; a file is removed over dots. -/
theorem root_confinement_media :
    ensureWithinRoot mediaPlatform "media".toList "media/../media2".toList =
        .error (.security "Path escapes rootDir: media/../media2".toList) ∧
      mediaTree.Confined ["srv".toList, "media".toList]
        (.remove_all "media/.//../media/a".toList) := by
  have spec := root_confinement_iff mediaPlatform_agrees
  refine ⟨(spec.1 "media".toList "media/../media2".toList ["srv".toList, "media".toList]
      ["srv".toList, "media2".toList] (by decide +kernel) (by decide +kernel) (by decide)
      (by decide)).trans (by decide +kernel), ?_⟩
  refine (((spec.2 mediaOptions ".//../media/a".toList _ (by decide +kernel) (by decide)).2 _
    (by decide +kernel)).mpr ?_)
  have hlookup : mediaTree.lookup (append mediaOptions.rootPath ".//../media/a".toList) =
      some ["srv".toList, "media".toList, "a".toList] := by decide +kernel
  constructor
  · intro q target hq hlink
    rw [hlookup] at hq
    cases hq
    cases hlink
  · -- nothing lies below a file
    intro place q target hq hbelow hlink
    rw [hlookup] at hq
    cases hq
    obtain ⟨r, rfl⟩ := hbelow
    have hr : r = [] := by
      by_contra hne
      have hdir := Tree.dir_of_below hne (by rw [hlink]; rfl)
      cases hdir
    subst hr
    cases hlink

/-- A link beside the root that leads into it is removed, and so is one in the root that leads
out of it. -/
theorem link_outside_removed :
    removeCall mediaPlatform mediaOptions "../current".toList =
        some (.remove_all "media/../current".toList) ∧
      mediaTree.Reaches (.remove_all "media/../current".toList) ["srv".toList, "current".toList] ∧
      ¬ ["srv".toList, "media".toList] <+: ["srv".toList, "current".toList] ∧
      ¬ mediaTree.Confined ["srv".toList, "media".toList]
        (.remove_all "media/../current".toList) ∧
      removeCall mediaPlatform mediaOptions "users".toList =
        some (.remove_all "media/users".toList) ∧
      mediaTree.Reaches (.remove_all "media/users".toList)
        ["srv".toList, "media".toList, "users".toList, "out".toList] ∧
      mediaTree.resolve (text ["srv".toList, "media".toList, "users".toList, "out".toList]) =
        some ["srv".toList, "media2".toList] := by
  have hreaches : mediaTree.Reaches (.remove_all "media/../current".toList)
      ["srv".toList, "current".toList] :=
    ⟨by decide, _, by decide +kernel, List.prefix_rfl⟩
  have hout : ¬ ["srv".toList, "media".toList] <+: ["srv".toList, "current".toList] := by decide
  refine ⟨by decide +kernel, hreaches, hout, fun h => hout (h _ hreaches).1, by decide +kernel,
    ⟨by decide, ["srv".toList, "media".toList, "users".toList], by decide +kernel, by decide⟩,
    by decide +kernel⟩

end AdequateApi.RootConfinement
