import AdequateApi.FileStoreSpec

/-! Where `store` puts a file. The entity's name and id become two names of a path below the
root, the file's own name is generated, and of the name that the client sent nothing but an
allowed extension is left. -/
namespace AdequateApi.FileSystemService
open StdString FileTree RegexPattern

def isNameChar (c : Char) : Bool := c.isLower || c.isDigit || c = '_'

def isIdChar (opts : Options) (c : Char) : Bool :=
  c.isDigit || opts.allowNonNumericEntityId && (c.isLower || c = '_' || c = '-')

theorem isLower_eq (c : Char) : c.isLower = (decide ('a' ≤ c) && decide (c ≤ 'z')) := rfl

theorem inSet_nameChars (c : Char) :
    Regex.inSet false [.range 'a' 'z', .range '0' '9', .single '_'] c = isNameChar c := by
  simp [Regex.inSet, ClassItem.mem, isNameChar, isLower_eq, Char.isDigit, Char.le_def,
    Bool.or_assoc]

theorem inSet_idChars {opts : Options} (h : opts.allowNonNumericEntityId = true) (c : Char) :
    Regex.inSet false [.range 'a' 'z', .range '0' '9', .single '_', .single '-'] c =
      isIdChar opts c := by
  simp [Regex.inSet, ClassItem.mem, isIdChar, h, isLower_eq, Char.isDigit, Char.le_def,
    Bool.or_assoc, Bool.or_left_comm]

theorem isValidEntityName_iff (v : Str) :
    isValidEntityName v = true ↔ v ≠ [] ∧ ∀ c ∈ v, isNameChar c = true := by
  have hparse : parse "^[a-z0-9_]+$".toList =
      some (Regex.seqs [.bol, .plus (.set false [.range 'a' 'z', .range '0' '9', .single '_']),
        .eol]) := by
    decide +kernel
  rw [isValidEntityName, hparse, Option.bind_some, fullMatch_class]
  simp only [inSet_nameChars]

theorem isValidEntityId_iff (opts : Options) (v : Str) :
    isValidEntityId opts v = true ↔ v ≠ [] ∧ ∀ c ∈ v, isIdChar opts c = true := by
  have hparse : parse "^[a-z0-9_-]+$".toList =
      some (Regex.seqs [.bol, .plus (.set false [.range 'a' 'z', .range '0' '9', .single '_',
        .single '-']), .eol]) := by
    decide +kernel
  unfold isValidEntityId
  split
  · rename_i hv
    simp [hv]
  rename_i hv
  cases hopt : opts.allowNonNumericEntityId with
  | false => simp [hv, isIdChar, hopt]
  | true =>
    simp only [Bool.not_true, Bool.false_eq_true, if_false]
    rw [hparse, Option.bind_some, fullMatch_class]
    simp only [inSet_idChars hopt]

/-! ### A successful `store` -/

theorem normalizeEntityName_valid {input v : Str} (h : normalizeEntityName input = .ok v) :
    isValidEntityName v = true := by
  unfold normalizeEntityName at h
  dsimp only at h
  split at h
  · rename_i hv
    exact Except.ok.inj h ▸ hv
  · cases h

theorem normalizeEntityId_valid {opts : Options} {input v : Str}
    (h : normalizeEntityId opts input = .ok v) : isValidEntityId opts v = true := by
  unfold normalizeEntityId at h
  dsimp only at h
  split at h
  · rename_i hv
    exact Except.ok.inj h ▸ hv
  · cases h

/-- What `store` has checked and what it returns, when it returns. -/
theorem store_checked {os : Platform} {opts : Options} {disk d : Disk} {entityName entityId : Str}
    {file : IncomingFile} {a : StoreAnswers} {info : StoredFileInfo}
    (h : store os opts disk entityName entityId file a = (d, .ok info)) :
    isValidEntityName (toLower entityName) = true ∧
      isValidEntityId opts (toLower entityId) = true ∧
      ensureWithinRoot os opts.rootPath (append (entityDir opts entityName entityId)
        (storedName opts a.rng file.originalFileName)) = .ok () ∧
      info.relativePath = append (buildRelativeDir (toLower entityName) (toLower entityId))
        (storedName opts a.rng file.originalFileName) := by
  unfold store at h
  split at h
  · cases h
  split at h
  · cases h
  · cases h
  · cases h
  rename_i normEntity normId hn hi _
  have valid := normalizeEntityName_valid hn
  have valid' := normalizeEntityId_valid hi
  obtain rfl := normalizeEntityName_ok hn
  obtain rfl := normalizeEntityId_ok hi
  dsimp only at h
  split at h
  · cases h
  split at h
  · cases h
  rename_i within
  split at h
  · cases h
  · cases h
    exact ⟨valid, valid', within, rfl⟩

theorem store_ok {os : Platform} {opts : Options} {disk d : Disk} {entityName entityId : Str}
    {file : IncomingFile} {a : StoreAnswers} {info : StoredFileInfo}
    (h : store os opts disk entityName entityId file a = (d, .ok info)) :
    isValidEntityName (toLower entityName) = true ∧
      isValidEntityId opts (toLower entityId) = true ∧
      info.relativePath = append (buildRelativeDir (toLower entityName) (toLower entityId))
        (storedName opts a.rng file.originalFileName) := by
  obtain ⟨valid, valid', _, hpath⟩ := store_checked h
  exact ⟨valid, valid', hpath⟩

/-! ### The path -/

/-- A name in a path: not empty, without a slash. -/
structure PathName (n : Str) : Prop where
  ne_nil : n ≠ []
  no_slash : '/' ∉ n

theorem PathName.relative {n : Str} (h : PathName n) : isAbsolute n = false := by
  unfold isAbsolute
  cases n with
  | nil => rfl
  | cons c s =>
    have hc : c ≠ '/' := fun e => h.no_slash (e ▸ List.mem_cons_self)
    simpa using hc

theorem PathName.names_eq {n : Str} (h : PathName n) : names n = [n] :=
  names_name h.ne_nil h.no_slash

theorem PathName.last {n : Str} (h : PathName n) (p : Str) :
    (p ++ '/' :: n).getLast? ≠ some '/' := by
  rw [List.getLast?_append_cons, List.getLast?_cons_of_ne_nil h.ne_nil]
  intro hl
  exact h.no_slash (List.mem_of_getLast? hl)

/-- Appending a name to a path that does not end in a slash. -/
theorem PathName.append_to {p n : Str} (hn : PathName n) (hp : p ≠ [])
    (hl : p.getLast? ≠ some '/') : append p n = p ++ '/' :: n := by
  simp [append, hp, hl, hn.relative]

theorem entityName_pathName {v : Str} (h : isValidEntityName v = true) : PathName v := by
  obtain ⟨hne, hchars⟩ := (isValidEntityName_iff v).mp h
  exact ⟨hne, fun hs => absurd (hchars _ hs) (by decide)⟩

theorem entityId_pathName {opts : Options} {v : Str} (h : isValidEntityId opts v = true) :
    PathName v := by
  obtain ⟨hne, hchars⟩ := (isValidEntityId_iff opts v).mp h
  refine ⟨hne, fun hs => ?_⟩
  have := hchars _ hs
  simp [isIdChar, Char.isDigit, isLower_eq] at this

theorem storedName_pathName (opts : Options) (rng : ℕ → ℕ) (original : Str) :
    PathName (storedName opts rng original) := by
  obtain ⟨c, rest, _, hname⟩ := storedName_head opts rng original
  exact ⟨by simp [hname], storedName_no_slash opts rng original⟩

theorem file_pathName : PathName "file".toList := ⟨by decide, by decide⟩

theorem buildRelativeDir_eq {e i : Str} (he : PathName e) (hi : PathName i) :
    buildRelativeDir e i = e ++ '/' :: i ++ '/' :: "file".toList := by
  have hlast : e.getLast? ≠ some '/' := fun hl => he.no_slash (List.mem_of_getLast? hl)
  rw [buildRelativeDir, hi.append_to he.ne_nil hlast, file_pathName.append_to (by simp) (hi.last e)]

/-- The path below the root, as text and as names. -/
theorem relativePath_eq {e i n : Str} (he : PathName e) (hi : PathName i) (hn : PathName n) :
    append (buildRelativeDir e i) n =
        e ++ '/' :: i ++ '/' :: "file".toList ++ '/' :: n ∧
      names (buildRelativeDir e i) = [e, i, "file".toList] ∧
      isAbsolute (buildRelativeDir e i) = false := by
  have hslash : (e ++ '/' :: i ++ '/' :: "file".toList).getLast? ≠ some '/' :=
    file_pathName.last _
  rw [buildRelativeDir_eq he hi]
  refine ⟨hn.append_to (by simp) hslash, ?_, ?_⟩
  · rw [names_slash, names_slash, he.names_eq, hi.names_eq, file_pathName.names_eq]
    rfl
  · obtain ⟨c, s, rfl⟩ := List.exists_cons_of_ne_nil he.ne_nil
    exact he.relative

/-- What a file stored for an entity is called, and where. -/
structure StoredUnderRoot (opts : Options) (entityName entityId : Str) (disk d : Disk)
    (bytes : Str) (info : StoredFileInfo) (E I N : Str) : Prop where
  entity_eq : E = toLower entityName
  entity : E ≠ [] ∧ ∀ c ∈ E, isNameChar c = true
  id_eq : I = toLower entityId
  id : I ≠ [] ∧ ∀ c ∈ I, isIdChar opts c = true
  generated : GeneratedName opts N
  absent : disk.files (names opts.rootPath ++ [E, I, "file".toList, N]) = none
  created : d.files =
    Function.update disk.files (names opts.rootPath ++ [E, I, "file".toList, N]) (some bytes)
  fileName : info.storedFileName = N
  relativePath : info.relativePath = E ++ '/' :: I ++ '/' :: "file".toList ++ '/' :: N

theorem storeEnd_tidy (os : Platform) (opts : Options) (entityName entityId : Str)
    (file : IncomingFile) {a : StoreAnswers} (cleaned : a.cleaned = true) (part : Str) :
    storeEnd os opts entityName entityId file a ≠ .leftover part := by
  unfold storeEnd
  split
  · exact writeEnd_tidy cleaned file.bytes part
  · exact StoreEnd.noConfusion

/-- `store` throws and no file is new or changed, or it creates one file, in the entity's
directory below the root, under a generated name. -/
theorem store_confined (os : Platform) (opts : Options) (disk : Disk) (entityName entityId : Str)
    (file : IncomingFile) (a : StoreAnswers) (cleaned : a.cleaned = true)
    (tmp_fresh : disk.files (names (entityDir opts entityName entityId) ++ [tmpName a]) = none)
    (fresh : disk.files (names (entityDir opts entityName entityId) ++
      [storedName opts a.rng file.originalFileName]) = none) :
    (∃ d e, store os opts disk entityName entityId file a = (d, .error e) ∧
      d.files = disk.files) ∨
    ∃ d info E I N, store os opts disk entityName entityId file a = (d, .ok info) ∧
      StoredUnderRoot opts entityName entityId disk d file.bytes info E I N := by
  have same : Function.update disk.files
      (names (entityDir opts entityName entityId) ++ [tmpName a]) none = disk.files := by
    rw [← tmp_fresh, Function.update_eq_self]
  have h := store_stored os opts disk entityName entityId file a
  generalize hr : store os opts disk entityName entityId file a = r at h
  generalize hends : storeEnd os opts entityName entityId file a = ends at h
  cases h with
  | @failed _ d e ends_ne files _ =>
    refine .inl ⟨d, e, rfl, ?_⟩
    rw [files]
    cases ends with
    | refused => rfl
    | cleaned => exact same
    | leftover part =>
      exact absurd hends (storeEnd_tidy os opts entityName entityId file cleaned part)
    | stored => exact absurd rfl ends_ne
  | @done d info files _ stored =>
    obtain ⟨valid, valid', hpath⟩ := store_ok hr
    have hn := storedName_pathName opts a.rng file.originalFileName
    obtain ⟨htext, hnames, hrel⟩ := relativePath_eq (entityName_pathName valid)
      (entityId_pathName valid') hn
    have hdir : names (entityDir opts entityName entityId) =
        names opts.rootPath ++ [toLower entityName, toLower entityId, "file".toList] := by
      rw [entityDir, names_append _ hrel, hnames]
    rw [hdir, List.append_assoc] at fresh
    refine .inr ⟨d, info, _, _, _, rfl, {
      entity_eq := rfl
      entity := (isValidEntityName_iff _).mp valid
      id_eq := rfl
      id := (isValidEntityId_iff opts _).mp valid'
      generated := storedName_generated opts a.rng file.originalFileName
      absent := fresh
      created := ?_
      fileName := stored
      relativePath := hpath.trans htext }⟩
    rw [files]
    show Function.update (Function.update disk.files _ none) _ _ = _
    rw [same, hdir, List.append_assoc]
    rfl

/-- Nothing fails, and every random byte is zero. -/
def smoothAnswers : StoreAnswers where
  create_error := none
  rng := fun _ => 0
  tmp_rng := fun _ => 0
  opened := true
  write_stops := none
  flushed := true
  rename_error := none
  cleaned := true

def noFiles : Disk := ⟨fun _ => none, fun _ => false⟩

def pngDetector : Platform := ⟨fun _ => none, fun _ => .ok "image/png".toList⟩

def mediaOptions : Options := { rootPath := "/srv/media".toList, mediaPath := "/media".toList }

/-- A client's file name that tries to leave the directory. -/
def strayFile : IncomingFile := ⟨"x".toList, "../../etc/A.PNG".toList, []⟩

theorem store_confined_stray :
    ∃ d info E I N,
      store pngDetector mediaOptions noFiles "Users".toList "7".toList strayFile smoothAnswers =
        (d, .ok info) ∧
      StoredUnderRoot mediaOptions "Users".toList "7".toList noFiles d "x".toList info E I N := by
  refine (store_confined pngDetector mediaOptions noFiles "Users".toList "7".toList strayFile
    smoothAnswers rfl rfl rfl).resolve_left ?_
  rintro ⟨d, e, h, _⟩
  have ok : (store pngDetector mediaOptions noFiles "Users".toList "7".toList strayFile
      smoothAnswers).2.isOk = true := by
    decide +kernel
  rw [h] at ok
  cases ok

end AdequateApi.FileSystemService
