import AdequateApi.FileStoreConfinement
import AdequateApi.RootConfinement

/-! A stored file by its URL and by the directory of its entity. `store` puts the names in lower
case; the URL and the directory are built from the names as they come. -/
namespace AdequateApi.StoredFileAddress
open StdString FileTree FileSystemService RootConfinement

/-- The URL leads below `mediaPath` where the file is below the root, the directory is there, and
removing it removes the file. -/
structure FoundAgain (os : Platform) (opts : Options) (d : Disk) (entityName entityId bytes : Str)
    (info : StoredFileInfo) : Prop where
  written : d.files (names (append opts.rootPath info.relativePath)) = some bytes
  url : buildRelativePath opts entityName entityId info.storedFileName =
    append opts.mediaPath info.relativePath
  listed : exists_ os opts d (buildRelativeDir entityName entityId) false = .ok true
  removed : ∃ d', remove os opts d (buildRelativeDir entityName entityId) none = (d', .ok ()) ∧
    d'.files (names (append opts.rootPath info.relativePath)) = none

/-! ### Paths of names -/

/-- What stands before a relative path does not depend on it. -/
theorem append_relative (p : Str) {q : Str} (hq : isAbsolute q = false) :
    append p q = (if p = [] ∨ p.getLast? = some '/' then p else p ++ ['/']) ++ q := by
  have hne : ¬ isAbsolute q = true := by simp [hq]
  unfold append
  rw [if_neg hne]
  split
  · rfl
  · rw [List.append_assoc, List.singleton_append]

theorem append_injective {p q r : Str} (hq : isAbsolute q = false) (hr : isAbsolute r = false)
    (h : append p q = append p r) : q = r := by
  rw [append_relative p hq, append_relative p hr] at h
  exact List.append_cancel_left h

theorem append_last (p : Str) {q : Str} (hq : q ≠ []) (hrel : isAbsolute q = false) :
    (append p q).getLast? = q.getLast? := by
  rw [append_relative p hrel, List.getLast?_append_of_ne_nil _ hq]

/-- A name at the end of a path below `p`. -/
theorem append_name (p : Str) {q n : Str} (hn : PathName n) (hq : q ≠ [])
    (hlast : q.getLast? ≠ some '/') (hrel : isAbsolute q = false) :
    append p (append q n) = append p q ++ '/' :: n := by
  have hrel' : isAbsolute (q ++ '/' :: n) = false := by
    obtain ⟨c, s, rfl⟩ := List.exists_cons_of_ne_nil hq
    exact hrel
  rw [hn.append_to hq hlast, append_relative p hrel', append_relative p hrel, List.append_assoc]

theorem pathName_of_toLower {v : Str} (h : PathName (toLower v)) : PathName v where
  ne_nil := fun hv => h.ne_nil (by rw [hv]; rfl)
  no_slash := fun hs => h.no_slash (List.mem_map.mpr ⟨'/', hs, by decide⟩)

section dir

variable {e i : Str} (he : PathName e) (hi : PathName i)

include he hi

theorem dir_ne_nil : buildRelativeDir e i ≠ [] := by
  rw [buildRelativeDir_eq he hi]
  simp

theorem dir_last : (buildRelativeDir e i).getLast? ≠ some '/' := by
  rw [buildRelativeDir_eq he hi]
  exact file_pathName.last _

theorem dir_relative : isAbsolute (buildRelativeDir e i) = false :=
  (relativePath_eq he hi file_pathName).2.2

theorem dir_names : names (buildRelativeDir e i) = [e, i, "file".toList] :=
  (relativePath_eq he hi file_pathName).2.1

/-- The URL of a name, from the path below `mediaPath`. -/
theorem url_eq (opts : Options) {n : Str} (hn : PathName n) :
    buildRelativePath opts e i n = append opts.mediaPath (append (buildRelativeDir e i) n) := by
  rw [append_name _ hn (dir_ne_nil he hi) (dir_last he hi) (dir_relative he hi)]
  rfl

/-- Both names can be read off a URL. -/
theorem url_injective (opts : Options) {e' i' n : Str} (he' : PathName e') (hi' : PathName i')
    (h : buildRelativePath opts e i n = buildRelativePath opts e' i' n) : e = e' ∧ i = i' := by
  have hdir := append_injective (dir_relative he hi) (dir_relative he' hi')
    (List.append_cancel_right h)
  have hnames := congrArg names hdir
  rw [dir_names he hi, dir_names he' hi'] at hnames
  simpa using hnames

end dir

/-! ### What `store` leaves behind -/

section store

variable {os : Platform} {opts : Options} {disk d : Disk} {entityName entityId : Str}
  {file : IncomingFile} {a : StoreAnswers} {info : StoredFileInfo}

theorem store_leaves (h : store os opts disk entityName entityId file a = (d, .ok info)) :
    d.files (names (entityDir opts entityName entityId) ++
        [storedName opts a.rng file.originalFileName]) = some file.bytes ∧
      d.dirs (names (entityDir opts entityName entityId)) = true ∧
      info.storedFileName = storedName opts a.rng file.originalFileName := by
  have hends := store_stored os opts disk entityName entityId file a
  rw [h] at hends
  generalize storeEnd os opts entityName entityId file a = ends at hends
  cases hends with
  | done files dirs stored =>
    refine ⟨?_, ?_, stored⟩
    · rw [files]
      simp [StoreEnd.writes, applied]
    · rw [dirs]
      simp [Disk.create_directories, Disk.below]

end store

/-! ### The root check of the directory -/

/-- Where a stored file stands, on the disk with symbolic links that `os` reads. -/
structure Placed (os : Platform) (t : Tree) (root dir : Str) (name : Name)
    (rootPlace place : Path) : Prop where
  agrees : Agrees os t
  root_leads : t.resolve root = some rootPlace
  root_dir : t.node rootPlace = some .dir
  dir_leads : t.resolve dir = some place
  file : t.node (place ++ [name]) = some .file

theorem parts_append_name {dir n : Str} (hn : PathName n) (hdir : dir ≠ [])
    (hlast : dir.getLast? ≠ some '/') : parts (append dir n) = parts dir ++ [n] := by
  have hend : (append dir n).getLast? ≠ some '/' := by
    rw [hn.append_to hdir hlast]
    exact hn.last dir
  unfold parts
  rw [if_neg hlast, if_neg hend, List.append_nil, List.append_nil, names_append _ hn.relative,
    hn.names_eq]

theorem start_append_name {t : Tree} {dir n : Str} (hn : PathName n) (hdir : dir ≠ [])
    (hlast : dir.getLast? ≠ some '/') : t.start (append dir n) = t.start dir := by
  obtain ⟨c, s, rfl⟩ := List.exists_cons_of_ne_nil hdir
  rw [hn.append_to hdir hlast]
  rfl

section placed

variable {os : Platform} {t : Tree} {root dir : Str} {name : Name} {rootPlace place : Path}

/-- When the file is within the root, so is its directory: the file is not the root itself. -/
theorem Placed.within (h : Placed os t root dir name rootPlace place) (hn : PathName name)
    (hdir : dir ≠ []) (hlast : dir.getLast? ≠ some '/')
    (hcheck : ensureWithinRoot os root (append dir name) = .ok ()) :
    ensureWithinRoot os root dir = .ok () := by
  have hplace : t.node place = some .dir := t.parent place name (by rw [h.file]; rfl)
  have hvalid : ∀ n ∈ place ++ [name], ValidName n := t.valid _ (by rw [h.file]; rfl)
  have hname : ValidName name := hvalid name (by simp)
  have hroot : ∀ n ∈ rootPlace, ValidName n := t.valid _ (by rw [h.root_dir]; rfl)
  have hleads : t.resolve (append dir name) = some (place ++ [name]) := by
    have hwalk : t.walk 40 (t.start dir) (parts dir) = some place := h.dir_leads
    unfold Tree.resolve
    rw [parts_append_name hn hdir hlast, start_append_name hn hdir hlast]
    exact Tree.walk_append hwalk hname.ne_dot hname.ne_dots hplace (.inl h.file)
  have hcanon := h.agrees _ _ h.root_leads
  rw [ensureWithinRoot_iff hcanon (h.agrees _ _ hleads) hroot hvalid] at hcheck
  have hprefix : rootPlace <+: place ++ [name] := by
    by_contra hout
    rw [if_neg hout] at hcheck
    cases hcheck
  rw [ensureWithinRoot_iff hcanon (h.agrees _ _ h.dir_leads) hroot
    fun n hmem => hvalid n (List.mem_append_left _ hmem)]
  rcases List.prefix_concat_iff.mp hprefix with heq | hin
  · have hclash := h.root_dir
    rw [heq, h.file] at hclash
    cases hclash
  · exact if_pos hin

end placed

/-! ### Found again -/

section found

variable {os : Platform} {opts : Options} {disk d : Disk} {entityName entityId : Str}
  {file : IncomingFile} {a : StoreAnswers} {info : StoredFileInfo} {t : Tree}
  {rootPlace place : Path}

/-- With names in lower case `exists` and `remove` get the directory that `store` wrote to. -/
theorem lower_found
    (h : store os opts disk entityName entityId file a = (d, .ok info))
    (hwithin : ensureWithinRoot os opts.rootPath (entityDir opts entityName entityId) = .ok ())
    (hE : toLower entityName = entityName) (hI : toLower entityId = entityId) :
    FoundAgain os opts d entityName entityId file.bytes info := by
  obtain ⟨valid, valid', _, hpath⟩ := store_checked h
  obtain ⟨hfile, hdirs, hname⟩ := store_leaves h
  have hn := storedName_pathName opts a.rng file.originalFileName
  unfold entityDir at hwithin hfile hdirs
  rw [hE, hI] at hwithin hfile hdirs hpath
  rw [hE] at valid
  rw [hI] at valid'
  have he := entityName_pathName valid
  have hi := entityId_pathName valid'
  have hplace : names (append opts.rootPath info.relativePath) =
      names (append opts.rootPath (buildRelativeDir entityName entityId)) ++
        [storedName opts a.rng file.originalFileName] := by
    rw [hpath, append_name _ hn (dir_ne_nil he hi) (dir_last he hi) (dir_relative he hi),
      names_slash, hn.names_eq]
  refine {
    written := hplace ▸ hfile
    url := by rw [hname, hpath, url_eq he hi opts hn]
    listed := ?_
    removed := ⟨_, remove_checked d none (dir_ne_nil he hi) hwithin, ?_⟩ }
  · rw [exists_checked d false (dir_ne_nil he hi) hwithin, Disk.exists_, hdirs]
    rfl
  · rw [hplace]
    simp [Disk.remove_all, Disk.below]

/-- Of the stored files those are found again whose names were given in lower case. -/
theorem stored_file_found_iff
    (h : store os opts disk entityName entityId file a = (d, .ok info))
    (hplaced : Placed os t opts.rootPath (entityDir opts entityName entityId) info.storedFileName
      rootPlace place) :
    FoundAgain os opts d entityName entityId file.bytes info ↔
      toLower entityName = entityName ∧ toLower entityId = entityId := by
  obtain ⟨valid, valid', hcheck, hpath⟩ := store_checked h
  obtain ⟨_, _, hname⟩ := store_leaves h
  have hn := storedName_pathName opts a.rng file.originalFileName
  have he := entityName_pathName valid
  have hi := entityId_pathName valid'
  rw [hname] at hplaced
  constructor
  · intro found
    have hurl := found.url
    rw [hname, hpath, ← url_eq he hi opts hn] at hurl
    obtain ⟨hE, hI⟩ := url_injective (pathName_of_toLower he) (pathName_of_toLower hi) opts he hi
      hurl
    exact ⟨hE.symm, hI.symm⟩
  · rintro ⟨hE, hI⟩
    have hlast : (entityDir opts entityName entityId).getLast? ≠ some '/' := by
      rw [entityDir, append_last _ (dir_ne_nil he hi) (dir_relative he hi)]
      exact dir_last he hi
    have hwithin := hplaced.within hn (append_ne_nil (dir_ne_nil he hi)) hlast hcheck
    exact lower_found h hwithin hE hI

end found

/-! ### A disk with one file -/

/-- The nodes on the way to one file. -/
def branchNode (file q : Path) : Option Node :=
  if q = file then some .file else if q.isPrefixOf file then some .dir else none

section branch

variable {file : Path}

theorem branchNode_some {q : Path} (h : (branchNode file q).isSome) : q <+: file := by
  unfold branchNode at h
  split at h
  · rename_i hq
    exact hq ▸ List.prefix_rfl
  split at h
  · rename_i hq
    exact List.isPrefixOf_iff_prefix.mp hq
  · cases h

theorem branchNode_dir {q : Path} (h : q <+: file) (hne : q ≠ file) :
    branchNode file q = some .dir := by
  rw [branchNode, if_neg hne, if_pos (List.isPrefixOf_iff_prefix.mpr h)]

theorem branchNode_parent (p : Path) (n : Name) (h : (branchNode file (p ++ [n])).isSome) :
    branchNode file p = some .dir := by
  have hp := branchNode_some h
  refine branchNode_dir ((List.prefix_append p [n]).trans hp) fun hfile => ?_
  have hlength := hp.length_le
  rw [hfile, List.length_append, List.length_singleton] at hlength
  omega

end branch

def branchTree (file : Path) (hne : file ≠ []) (hvalid : ∀ n ∈ file, ValidName n) : Tree where
  node := branchNode file
  cwd := []
  root_dir := branchNode_dir (List.nil_prefix) hne.symm
  cwd_dir := branchNode_dir (List.nil_prefix) hne.symm
  parent := branchNode_parent
  valid := fun _ h n hn => hvalid n ((branchNode_some h).subset hn)

def storedPlace : Path := names "/srv/media/users/7/file".toList

def storedFile : Name := List.replicate 32 '0' ++ ".png".toList

def storedTree : Tree := branchTree (storedPlace ++ [storedFile]) (by decide) (by decide +kernel)

def storedPlatform : Platform where
  weakly_canonical := fun p => (storedTree.resolve p).map text
  detectMime := fun _ => .ok "image/png".toList

def storedInfo : StoredFileInfo :=
  ⟨"users/7/file/".toList ++ storedFile, storedFile, 1⟩

theorem stored_file_found_lower :
    ∃ d, store storedPlatform FileSystemService.mediaOptions noFiles "users".toList "7".toList
        strayFile smoothAnswers = (d, .ok storedInfo) ∧
      FoundAgain storedPlatform FileSystemService.mediaOptions d "users".toList "7".toList
        "x".toList storedInfo := by
  have stored : (store storedPlatform FileSystemService.mediaOptions noFiles "users".toList
      "7".toList strayFile smoothAnswers).2 = .ok storedInfo := by
    decide +kernel
  have placed : Placed storedPlatform storedTree "/srv/media".toList
      (entityDir FileSystemService.mediaOptions "users".toList "7".toList) storedFile
      (names "/srv/media".toList) storedPlace := {
    agrees := fun p place h => by simp only [storedPlatform, h, Option.map_some]
    root_leads := by decide +kernel
    root_dir := by decide +kernel
    dir_leads := by decide +kernel
    file := by decide +kernel }
  exact ⟨_, Prod.ext rfl stored,
    (stored_file_found_iff (Prod.ext rfl stored) placed).mpr ⟨by decide, by decide⟩⟩

/-- Stored as `Users`: the URL is another one, the directory is not there, and the removal
leaves the file. -/
theorem mixed_case_not_found :
    ∃ d, store storedPlatform FileSystemService.mediaOptions noFiles "Users".toList "7".toList
        strayFile smoothAnswers = (d, .ok storedInfo) ∧
      buildRelativePath FileSystemService.mediaOptions "Users".toList "7".toList storedFile ≠
        append "/media".toList storedInfo.relativePath ∧
      exists_ storedPlatform FileSystemService.mediaOptions d
        (buildRelativeDir "Users".toList "7".toList) false = .ok false ∧
      (remove storedPlatform FileSystemService.mediaOptions d
        (buildRelativeDir "Users".toList "7".toList) none).1.files
          (names (append "/srv/media".toList storedInfo.relativePath)) = some "x".toList := by
  have stored : (store storedPlatform FileSystemService.mediaOptions noFiles "Users".toList
      "7".toList strayFile smoothAnswers).2 = .ok storedInfo := by
    decide +kernel
  exact ⟨_, Prod.ext rfl stored, by decide +kernel, by decide +kernel, by decide +kernel⟩

end AdequateApi.StoredFileAddress
