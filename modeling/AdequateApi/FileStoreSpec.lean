import AdequateApi.FileSystemService

/-! What one `store` and one removal of a directory do to the files, by how they end. -/
namespace AdequateApi.FileSystemService
open StdString FileTree

/-! ### Generated names -/

def tmpName (a : StoreAnswers) : Str := ".tmp_".toList ++ randomHex a.tmp_rng 8

theorem hexDigit_mem (n : ℕ) : hexDigit n ∈ hex := by
  unfold hexDigit
  rw [List.getD_eq_getElem?_getD]
  cases h : hex[n]? with
  | none => decide
  | some c => exact List.mem_of_getElem? h

theorem randomHex_chars {rng : ℕ → ℕ} {n : ℕ} {c : Char} (h : c ∈ randomHex rng n) : c ∈ hex := by
  obtain ⟨i, _, hc⟩ := List.mem_flatMap.mp h
  simp only [List.mem_cons, List.not_mem_nil, or_false] at hc
  rcases hc with rfl | rfl
  · exact hexDigit_mem _
  · exact hexDigit_mem _

theorem randomHex_length (rng : ℕ → ℕ) (n : ℕ) : (randomHex rng n).length = 2 * n := by
  simp [randomHex, List.length_flatMap, Nat.mul_comm]

/-- 32 lower-case hex digits, and maybe a dot and an allowed extension. -/
def GeneratedName (opts : Options) (name : Str) : Prop :=
  ∃ digits : Str, digits.length = 32 ∧ (∀ c ∈ digits, c ∈ hex) ∧
    (name = digits ∨ ∃ ext ∈ opts.allowedExtensions, name = digits ++ '.' :: ext)

theorem pickAllowedExtension_mem {opts : Options} {original : Str}
    (h : pickAllowedExtension opts original ≠ []) :
    pickAllowedExtension opts original ∈ opts.allowedExtensions := by
  unfold pickAllowedExtension at h ⊢
  dsimp only at h ⊢
  split
  · rename_i hmem
    exact List.contains_iff_mem.mp hmem
  · rename_i hn
    rw [if_neg hn] at h
    contradiction

theorem storedName_cases (opts : Options) (rng : ℕ → ℕ) (original : Str) :
    storedName opts rng original = randomHex rng 16 ∨
    (pickAllowedExtension opts original ≠ [] ∧
      storedName opts rng original =
        randomHex rng 16 ++ '.' :: pickAllowedExtension opts original) := by
  unfold storedName
  by_cases hp : opts.preserveAllowedExtension = true ∧ opts.allowedExtensions ≠ []
  · rw [if_pos hp]
    by_cases hext : pickAllowedExtension opts original = []
    · exact .inl (if_pos hext)
    · exact .inr ⟨hext, if_neg hext⟩
  · rw [if_neg hp]
    exact .inl (if_pos rfl)

theorem storedName_generated (opts : Options) (rng : ℕ → ℕ) (original : Str) :
    GeneratedName opts (storedName opts rng original) := by
  refine ⟨randomHex rng 16, randomHex_length rng 16, fun c hc => randomHex_chars hc, ?_⟩
  rcases storedName_cases opts rng original with h | ⟨hext, h⟩
  · exact .inl h
  · exact .inr ⟨_, pickAllowedExtension_mem hext, h⟩

theorem pickAllowedExtension_no_slash (opts : Options) (original : Str) :
    '/' ∉ pickAllowedExtension opts original := by
  intro h
  unfold pickAllowedExtension at h
  dsimp only at h
  split at h
  · obtain ⟨c, hc, hlow⟩ := List.mem_map.mp h
    have hne : c ≠ '/' := by
      rintro rfl
      exact extension_no_slash original (List.mem_of_mem_drop hc)
    exact toLower_ne (by decide) hne hlow
  · exact List.not_mem_nil h

theorem slash_not_hex : '/' ∉ hex := by decide

theorem storedName_no_slash (opts : Options) (rng : ℕ → ℕ) (original : Str) :
    '/' ∉ storedName opts rng original := by
  have hhex : '/' ∉ randomHex rng 16 := fun h => slash_not_hex (randomHex_chars h)
  rcases storedName_cases opts rng original with h | ⟨_, h⟩
  · rw [h]
    exact hhex
  · rw [h]
    simp [hhex, pickAllowedExtension_no_slash]

theorem storedName_head (opts : Options) (rng : ℕ → ℕ) (original : Str) :
    ∃ c rest, c ∈ hex ∧ storedName opts rng original = c :: rest := by
  cases hd : randomHex rng 16 with
  | nil =>
    have := randomHex_length rng 16
    simp [hd] at this
  | cons c rest =>
    have hc : c ∈ hex := randomHex_chars (hd ▸ List.mem_cons_self)
    rcases storedName_cases opts rng original with h | ⟨_, h⟩
    · exact ⟨c, rest, hc, h.trans hd⟩
    · exact ⟨c, _, hc, by rw [h, hd]; rfl⟩

theorem names_append_storedName (opts : Options) (dir : Str) (rng : ℕ → ℕ) (original : Str) :
    names (append dir (storedName opts rng original)) =
      names dir ++ [storedName opts rng original] := by
  obtain ⟨c, rest, hc, hname⟩ := storedName_head opts rng original
  have habs : isAbsolute (storedName opts rng original) = false := by
    have hne : c ≠ '/' := by
      rintro rfl
      exact slash_not_hex hc
    simp [isAbsolute, hname, hne]
  rw [names_append dir habs,
    names_name (by simp [hname]) (storedName_no_slash opts rng original)]

theorem names_append_tmpName (dir : Str) (a : StoreAnswers) :
    names (append dir (tmpName a)) = names dir ++ [tmpName a] := by
  have hslash : '/' ∉ tmpName a := by
    intro h
    rcases List.mem_append.mp h with h | h
    · exact absurd h (by decide)
    · exact slash_not_hex (randomHex_chars h)
  have hne : tmpName a ≠ [] := List.append_ne_nil_of_left_ne_nil (by decide) _
  rw [names_append dir rfl, names_name hne hslash]

/-- A temporary file never has the name of a stored one. -/
theorem storedName_ne_tmpName (opts : Options) (rng : ℕ → ℕ) (original : Str) (a : StoreAnswers) :
    storedName opts rng original ≠ tmpName a := by
  obtain ⟨c, rest, hc, hname⟩ := storedName_head opts rng original
  rw [hname]
  rintro h
  have hdot : c = '.' := (List.cons.inj h).1
  subst hdot
  exact absurd hc (by decide)

/-! ### Storing -/

/-- Refused before anything is written; failed and tidied up; failed with a temporary file
left behind; done. -/
inductive StoreEnd
  | refused
  | cleaned
  | leftover (bytes : Str)
  | stored
  deriving DecidableEq, Repr

def StoreEnd.writes (tmp final : Path) (bytes : Str) : StoreEnd → Writes
  | .refused => []
  | .cleaned => [(tmp, none)]
  | .leftover part => [(tmp, some part)]
  | .stored => [(tmp, none), (final, some bytes)]

def StoreEnd.broken (a : StoreAnswers) (part : Str) : StoreEnd :=
  if a.cleaned then .cleaned else .leftover part

def writeEnd (bytes : Str) (a : StoreAnswers) : StoreEnd :=
  if !a.opened then .refused
  else
    match if bytes = [] then none else a.write_stops with
    | some n => .broken a (bytes.take n)
    | none => if a.flushed && a.rename_error.isNone then .stored else .broken a bytes

theorem StoreEnd.broken_ne (a : StoreAnswers) (part : Str) : StoreEnd.broken a part ≠ .stored := by
  unfold StoreEnd.broken
  split
  · exact StoreEnd.noConfusion
  · exact StoreEnd.noConfusion

theorem StoreEnd.broken_cleaned {a : StoreAnswers} (cleaned : a.cleaned = true) (part : Str) :
    StoreEnd.broken a part = .cleaned := if_pos cleaned

/-- Nothing stays behind when the removal of the temporary file succeeds. -/
theorem writeEnd_tidy {a : StoreAnswers} (cleaned : a.cleaned = true) (bytes part : Str) :
    writeEnd bytes a ≠ .leftover part := by
  unfold writeEnd
  simp only [StoreEnd.broken_cleaned cleaned]
  split
  · exact StoreEnd.noConfusion
  split
  · exact StoreEnd.noConfusion
  split <;> exact StoreEnd.noConfusion

/-- Giving up after a part was written. -/
theorem broken_files (disk : Disk) (a : StoreAnswers) (part bytes : Str) (tmp final : Path) :
    let d := if a.cleaned then (disk.write tmp part).unlink tmp else disk.write tmp part
    d.files = applied disk.files ((StoreEnd.broken a part).writes tmp final bytes) ∧
      d.dirs = disk.dirs := by
  unfold StoreEnd.broken
  split <;> simp [StoreEnd.writes, applied, Disk.write, Disk.unlink]

theorem renamed_files (disk : Disk) (tmp final : Path) (bytes : Str) :
    ((disk.write tmp bytes).rename tmp final).files =
      applied disk.files (StoreEnd.stored.writes tmp final bytes) := by
  simp [StoreEnd.writes, applied, Disk.write, Disk.rename]

theorem writeFileAtomic_end (disk : Disk) (dir name bytes : Str) (a : StoreAnswers) :
    let r := writeFileAtomic disk dir name bytes a
    r.1.files = applied disk.files ((writeEnd bytes a).writes (names (append dir (tmpName a)))
      (names (append dir name)) bytes) ∧
    r.1.dirs = disk.dirs ∧ (writeEnd bytes a = .stored ↔ ∃ n, r.2 = .ok n) := by
  have failed : ∀ {e : FileError} {part : Str},
      StoreEnd.broken a part = .stored ↔ ∃ n : ℕ, Except.error e = .ok n := by
    intro e part
    exact ⟨fun h => absurd h (StoreEnd.broken_ne a part), fun ⟨n, h⟩ => nomatch h⟩
  intro r
  have hr : writeFileAtomic disk dir name bytes a = r := rfl
  clear_value r
  unfold writeFileAtomic at hr
  unfold writeEnd tmpName
  cases hopen : a.opened with
  | false =>
    rw [hopen] at hr
    subst hr
    exact ⟨rfl, rfl, ⟨(nomatch ·), fun ⟨_, h⟩ => nomatch h⟩⟩
  | true =>
    rw [hopen] at hr
    cases hstop : if bytes = [] then none else a.write_stops with
    | some n =>
      obtain ⟨hf, hd⟩ := broken_files disk a (bytes.take n) bytes
        (names (append dir (".tmp_".toList ++ randomHex a.tmp_rng 8))) (names (append dir name))
      rw [hstop] at hr
      subst hr
      exact ⟨hf, hd, failed⟩
    | none =>
      obtain ⟨hf, hd⟩ := broken_files disk a bytes bytes
        (names (append dir (".tmp_".toList ++ randomHex a.tmp_rng 8))) (names (append dir name))
      rw [hstop] at hr
      cases hflush : a.flushed with
      | false =>
        rw [hflush] at hr
        subst hr
        exact ⟨hf, hd, failed⟩
      | true =>
        rw [hflush] at hr
        cases hren : a.rename_error with
        | some message =>
          rw [hren] at hr
          subst hr
          exact ⟨hf, hd, failed⟩
        | none =>
          rw [hren] at hr
          subst hr
          exact ⟨renamed_files disk _ _ bytes, rfl, ⟨fun _ => ⟨_, rfl⟩, fun _ => rfl⟩⟩

def entityDir (opts : Options) (entityName entityId : Str) : Str :=
  append opts.rootPath (buildRelativeDir (toLower entityName) (toLower entityId))

/-- The checks of `store` before it writes. -/
def accepts (os : Platform) (opts : Options) (entityName entityId : Str) (file : IncomingFile)
    (a : StoreAnswers) : Bool :=
  file.bytes ≠ [] && (normalizeEntityName entityName).isOk &&
    (normalizeEntityId opts entityId).isOk && (validateFile os opts file).isOk &&
    a.create_error.isNone &&
    (ensureWithinRoot os opts.rootPath (append (entityDir opts entityName entityId)
      (storedName opts a.rng file.originalFileName))).isOk

def storeEnd (os : Platform) (opts : Options) (entityName entityId : Str) (file : IncomingFile)
    (a : StoreAnswers) : StoreEnd :=
  if accepts os opts entityName entityId file a then writeEnd file.bytes a else .refused

/-- What one `store` into the directory `p` did. -/
inductive Stored (disk : Disk) (p : Path) (tmp name : Name) (bytes : Str) :
    StoreEnd → Disk × Except FileError StoredFileInfo → Prop
  | failed {ends : StoreEnd} {d : Disk} {e : FileError} (ends_ne : ends ≠ .stored)
      (files : d.files = applied disk.files (ends.writes (p ++ [tmp]) (p ++ [name]) bytes))
      (dirs : ∀ q, disk.dirs q = true → d.dirs q = true) :
      Stored disk p tmp name bytes ends (d, .error e)
  | done {d : Disk} {info : StoredFileInfo}
      (files : d.files =
        applied disk.files (StoreEnd.stored.writes (p ++ [tmp]) (p ++ [name]) bytes))
      (dirs : d.dirs = (disk.create_directories p).dirs) (stored : info.storedFileName = name) :
      Stored disk p tmp name bytes .stored (d, .ok info)

theorem Stored.refused {disk d : Disk} {p : Path} {tmp name : Name} {bytes : Str} {e : FileError}
    (files : d.files = disk.files) (dirs : ∀ q, disk.dirs q = true → d.dirs q = true) :
    Stored disk p tmp name bytes .refused (d, .error e) :=
  .failed (by simp) files dirs

theorem Stored.name {disk d : Disk} {p : Path} {tmp name : Name} {bytes : Str} {ends : StoreEnd}
    {info : StoredFileInfo} (h : Stored disk p tmp name bytes ends (d, .ok info)) :
    info.storedFileName = name := by
  cases h with
  | done _ _ stored => exact stored

theorem Stored.spec {disk : Disk} {p : Path} {tmp name : Name} {bytes : Str} {ends : StoreEnd}
    {r : Disk × Except FileError StoredFileInfo} (h : Stored disk p tmp name bytes ends r) :
    r.1.files = applied disk.files (ends.writes (p ++ [tmp]) (p ++ [name]) bytes) ∧
      ((ends = .stored ∧ ∃ info, r.2 = .ok info ∧ info.storedFileName = name) ∨
        (ends ≠ .stored ∧ ∃ e, r.2 = .error e)) := by
  cases h with
  | failed ends_ne files _ => exact ⟨files, .inr ⟨ends_ne, _, rfl⟩⟩
  | done files _ stored => exact ⟨files, .inl ⟨rfl, _, rfl, stored⟩⟩

theorem normalizeEntityName_ok {input v : Str} (h : normalizeEntityName input = .ok v) :
    v = toLower input := by
  unfold normalizeEntityName at h
  dsimp only at h
  split at h
  · exact (Except.ok.inj h).symm
  · cases h

theorem normalizeEntityId_ok {opts : Options} {input v : Str}
    (h : normalizeEntityId opts input = .ok v) : v = toLower input := by
  unfold normalizeEntityId at h
  dsimp only at h
  split at h
  · exact (Except.ok.inj h).symm
  · cases h

/-- `store` ends as its checks and the answers say. -/
theorem store_stored (os : Platform) (opts : Options) (disk : Disk) (entityName entityId : Str)
    (file : IncomingFile) (a : StoreAnswers) :
    Stored disk (names (entityDir opts entityName entityId)) (tmpName a)
      (storedName opts a.rng file.originalFileName) file.bytes
      (storeEnd os opts entityName entityId file a)
      (store os opts disk entityName entityId file a) := by
  unfold store storeEnd accepts
  by_cases hbytes : file.bytes = []
  · rw [if_pos hbytes, if_neg (by simp [hbytes])]
    exact .refused rfl fun _ h => h
  rw [if_neg hbytes]
  cases hn : normalizeEntityName entityName with
  | error e =>
    rw [if_neg (by simp [Except.isOk, Except.toBool])]
    exact .refused rfl fun _ h => h
  | ok normEntity =>
  cases hi : normalizeEntityId opts entityId with
  | error e =>
    rw [if_neg (by simp [Except.isOk, Except.toBool])]
    exact .refused rfl fun _ h => h
  | ok normId =>
  cases validateFile os opts file with
  | error e =>
    rw [if_neg (by simp [Except.isOk, Except.toBool])]
    exact .refused rfl fun _ h => h
  | ok u =>
  obtain rfl := normalizeEntityName_ok hn
  obtain rfl := normalizeEntityId_ok hi
  dsimp only
  cases a.create_error with
  | some message =>
    rw [if_neg (by simp)]
    exact .refused rfl fun _ h => h
  | none =>
  have htmp := names_append_tmpName (entityDir opts entityName entityId) a
  have hname := names_append_storedName opts (entityDir opts entityName entityId) a.rng
    file.originalFileName
  generalize hdir : entityDir opts entityName entityId = dir at htmp hname ⊢
  unfold entityDir at hdir
  rw [hdir]
  generalize storedName opts a.rng file.originalFileName = name at hname ⊢
  cases ensureWithinRoot os opts.rootPath (append dir name) with
  | error e =>
    rw [if_neg (by simp [Except.isOk, Except.toBool])]
    exact .refused rfl fun q h => by simp [Disk.create_directories, h]
  | ok u' =>
  rw [if_pos (by simp [hbytes, Except.isOk, Except.toBool])]
  obtain ⟨hf, hd, hends⟩ := writeFileAtomic_end (disk.create_directories (names dir)) dir name
    file.bytes a
  rw [htmp, hname] at hf
  dsimp only
  cases hw : writeFileAtomic (disk.create_directories (names dir)) dir name file.bytes a with
  | mk d res =>
    rw [hw] at hf hd hends
    cases res with
    | error e =>
      refine .failed (fun h => ?_) hf fun q h => ?_
      · obtain ⟨n, hn⟩ := hends.mp h
        cases hn
      · rw [show d.dirs = _ from hd]
        simp [Disk.create_directories, h]
    | ok n =>
      have hdone := hends.mpr ⟨n, rfl⟩
      rw [hdone] at hf ⊢
      exact .done hf hd rfl

/-! ### `exists` and `remove` behind the root check -/

section checked

variable {os : Platform} {opts : Options} {relativePath : Str}

theorem exists_checked (disk : Disk) (stat_fails : Bool) (hne : relativePath ≠ [])
    (h : ensureWithinRoot os opts.rootPath (append opts.rootPath relativePath) = .ok ()) :
    exists_ os opts disk relativePath stat_fails =
      .ok (!stat_fails && disk.exists_ (names (append opts.rootPath relativePath))) := by
  unfold exists_
  rw [if_neg hne]
  dsimp only
  rw [h]

theorem exists_refused (disk : Disk) (stat_fails : Bool) (hne : relativePath ≠ []) {e : FileError}
    (h : ensureWithinRoot os opts.rootPath (append opts.rootPath relativePath) = .error e) :
    exists_ os opts disk relativePath stat_fails = .error e := by
  unfold exists_
  rw [if_neg hne]
  dsimp only
  rw [h]

/-- The directory is emptied, or `remove_all` fails and spares some files. -/
theorem remove_checked (disk : Disk) (failure : Option RemovalFailure) (hne : relativePath ≠ [])
    (h : ensureWithinRoot os opts.rootPath (append opts.rootPath relativePath) = .ok ()) :
    remove os opts disk relativePath failure =
      let full := append opts.rootPath relativePath
      failure.elim (disk.remove_all (names full) fun _ => false, .ok ()) fun f =>
        (disk.remove_all (names full) f.kept, .error (.io ("Failed to remove file: ".toList ++
          full ++ " (".toList ++ f.message ++ ")".toList))) := by
  unfold remove
  rw [if_neg hne]
  dsimp only
  rw [h]
  cases failure <;> rfl

end checked

end AdequateApi.FileSystemService
