import AdequateApi.FileTree
import AdequateApi.HttpMessages
import AdequateApi.RegexPattern

/-! `FileSystemService`. What the operating system, libmagic and the random generator answer
during one call is an input of that call. -/
namespace AdequateApi.FileSystemService
open StdString FileTree RegexPattern

structure StoredFileInfo where
  relativePath : Str
  storedFileName : Str
  bytesWritten : ℕ
  deriving DecidableEq, Repr

structure IncomingFile where
  bytes : Str
  originalFileName : Str
  contentType : Str
  deriving DecidableEq, Repr

structure Options where
  rootPath : Str
  mediaPath : Str
  maxBytes : ℕ := 10 * 1024 * 1024
  allowedExtensions : List Str :=
    ["png".toList, "jpg".toList, "jpeg".toList, "webp".toList, "gif".toList, "pdf".toList,
      "txt".toList]
  allowedMime : List Str :=
    ["image/png".toList, "image/jpeg".toList, "image/webp".toList, "application/pdf".toList,
      "text/plain".toList]
  strictMime : Bool := true
  preserveAllowedExtension : Bool := true
  allowNonNumericEntityId : Bool := false
  deriving DecidableEq, Repr

inductive FileError
  | validation (what : Str)
  | security (what : Str)
  | io (what : Str)
  deriving DecidableEq, Repr

def FileError.what : FileError → Str
  | .validation what | .security what | .io what => what

/-- `weakly_canonical`, none when it reports an error, and the MIME detector. -/
structure Platform where
  weakly_canonical : Str → Option Str
  detectMime : Str → Except Str Str

/-- How `remove_all` fails: the message, and what it leaves behind. -/
structure RemovalFailure where
  message : Str
  kept : Path → Bool

/-- Answers to one `store`. A write may break off after some bytes. -/
structure StoreAnswers where
  create_error : Option Str
  rng : ℕ → ℕ
  tmp_rng : ℕ → ℕ
  opened : Bool
  write_stops : Option ℕ
  flushed : Bool
  rename_error : Option Str
  cleaned : Bool

def makeErr (what path : Str) : Str := what ++ "+ ".toList ++ path

def isValidEntityName (input : Str) : Bool :=
  ((parse "^[a-z0-9_]+$".toList).bind fun r => r.fullMatch input).isSome

def isValidEntityId (opts : Options) (input : Str) : Bool :=
  if input = [] then false
  else if !opts.allowNonNumericEntityId then input.all Char.isDigit
  else ((parse "^[a-z0-9_-]+$".toList).bind fun r => r.fullMatch input).isSome

def normalizeEntityName (input : Str) : Except FileError Str :=
  let v := toLower input
  if isValidEntityName v then .ok v
  else .error (.security "Invalid entity name (allowed: [a-z0-9_]+)".toList)

def normalizeEntityId (opts : Options) (input : Str) : Except FileError Str :=
  let v := toLower input
  if isValidEntityId opts v then .ok v else .error (.security "Invalid entity id".toList)

def buildRelativeDir (entityName entityId : Str) : Str :=
  append (append entityName entityId) "file".toList

def buildRelativePath (opts : Options) (entityName entityId fileName : Str) : Str :=
  append opts.mediaPath (buildRelativeDir entityName entityId) ++ '/' :: fileName

def buildAbsolutePath (opts : Options) (host entityName entityId fileName : Str) : Str :=
  host ++ buildRelativePath opts entityName entityId fileName

def pickAllowedExtension (opts : Options) (originalFileName : Str) : Str :=
  let ext := toLower ((extension originalFileName).drop 1)
  if opts.allowedExtensions.contains ext then ext else []

def hex : Str := "0123456789abcdef".toList

def hexDigit (n : ℕ) : Char := hex.getD n '0'

def randomHex (rng : ℕ → ℕ) (bytesLen : ℕ) : Str :=
  (List.range bytesLen).flatMap fun i =>
    let b := rng i % 256
    [hexDigit (b / 16), hexDigit (b % 16)]

/-- The canonical root must be a leading path of the canonical full path. -/
def ensureWithinRoot (os : Platform) (root fullPath : Str) : Except FileError Unit :=
  let r := (os.weakly_canonical root).getD (lexically_normal root)
  let f := (os.weakly_canonical fullPath).getD (lexically_normal fullPath)
  if (components r).isPrefixOf (components f) then .ok ()
  else .error (.security ("Path escapes rootDir: ".toList ++ fullPath))

def validateFile (os : Platform) (opts : Options) (file : IncomingFile) : Except FileError Unit :=
  if file.bytes = [] then .error (.validation "File is empty".toList)
  else if 0 < opts.maxBytes ∧ opts.maxBytes < file.bytes.length then
    .error (.validation ("File too large: ".toList ++ to_string file.bytes.length ++
      " > ".toList ++ to_string opts.maxBytes))
  else if opts.allowedMime = [] then .ok ()
  else
    match os.detectMime file.bytes with
    | .error e =>
        if opts.strictMime then .error (.validation ("MIME detection failed: ".toList ++ e))
        else .ok ()
    | .ok mime =>
        if mime = [] then
          if opts.strictMime then .error (.validation "Unable to detect MIME type".toList)
          else .ok ()
        else if opts.allowedMime.contains mime then .ok ()
        else .error (.validation ("Unsupported MIME type: ".toList ++ mime))

/-- `writeFileAtomic` for the final path `dir / name`: write a temporary file beside it and
rename. A failure removes the temporary file, unless that fails too. -/
def writeFileAtomic (disk : Disk) (dir name bytes : Str) (a : StoreAnswers) :
    Disk × Except FileError ℕ :=
  let tmpPath := append dir (".tmp_".toList ++ randomHex a.tmp_rng 8)
  let tmp := names tmpPath
  let final := names (append dir name)
  let giveUp := fun (d : Disk) (what : Str) =>
    (if a.cleaned then d.unlink tmp else d, .error (FileError.io what))
  if !a.opened then
    (disk, .error (.io (makeErr "Cannot open temp file for write".toList tmpPath)))
  else
    match if bytes = [] then none else a.write_stops with
    | some n => giveUp (disk.write tmp (bytes.take n)) (makeErr "Write failed".toList tmpPath)
    | none =>
        let written := disk.write tmp bytes
        if !a.flushed then giveUp written (makeErr "Flush failed".toList tmpPath)
        else
          match a.rename_error with
          | some message =>
              giveUp written ("Rename failed: ".toList ++ tmpPath ++ " -> ".toList ++
                append dir name ++ " (".toList ++ message ++ ")".toList)
          | none => (written.rename tmp final, .ok bytes.length)

/-- The name of a stored file. -/
def storedName (opts : Options) (rng : ℕ → ℕ) (originalFileName : Str) : Str :=
  let ext := if opts.preserveAllowedExtension ∧ opts.allowedExtensions ≠ [] then
    pickAllowedExtension opts originalFileName else []
  if ext = [] then randomHex rng 16 else randomHex rng 16 ++ '.' :: ext

def store (os : Platform) (opts : Options) (disk : Disk) (entityName entityId : Str)
    (file : IncomingFile) (a : StoreAnswers) : Disk × Except FileError StoredFileInfo :=
  if file.bytes = [] then (disk, .error (.io "FileSystemService: file is empty".toList))
  else
    match normalizeEntityName entityName, normalizeEntityId opts entityId,
        validateFile os opts file with
    | .error e, _, _ | .ok _, .error e, _ | .ok _, .ok _, .error e => (disk, .error e)
    | .ok normEntity, .ok normId, .ok () =>
        let relativePath := buildRelativeDir normEntity normId
        let fullPath := append opts.rootPath relativePath
        match a.create_error with
        | some message =>
            (disk, .error (.io ("Failed to create directories: ".toList ++ fullPath ++
              " (".toList ++ message ++ ")".toList)))
        | none =>
            let disk := disk.create_directories (names fullPath)
            let name := storedName opts a.rng file.originalFileName
            match ensureWithinRoot os opts.rootPath (append fullPath name) with
            | .error e => (disk, .error e)
            | .ok () =>
                match writeFileAtomic disk fullPath name file.bytes a with
                | (disk, .error e) => (disk, .error e)
                | (disk, .ok n) => (disk, .ok ⟨append relativePath name, name, n⟩)

def remove (os : Platform) (opts : Options) (disk : Disk) (relativePath : Str)
    (failure : Option RemovalFailure) : Disk × Except FileError Unit :=
  if relativePath = [] then (disk, .ok ())
  else
    let fullPath := append opts.rootPath relativePath
    match ensureWithinRoot os opts.rootPath fullPath with
    | .error e => (disk, .error e)
    | .ok () =>
        match failure with
        | some f =>
            (disk.remove_all (names fullPath) f.kept,
              .error (.io ("Failed to remove file: ".toList ++ fullPath ++ " (".toList ++
                f.message ++ ")".toList)))
        | none => (disk.remove_all (names fullPath) fun _ => false, .ok ())

/-- `stat_fails`: the status of the path cannot be read, which counts as absent. -/
def exists_ (os : Platform) (opts : Options) (disk : Disk) (relativePath : Str)
    (stat_fails : Bool) : Except FileError Bool :=
  if relativePath = [] then .ok false
  else
    let fullPath := append opts.rootPath relativePath
    match ensureWithinRoot os opts.rootPath fullPath with
    | .error e => .error e
    | .ok () => .ok (!stat_fails && disk.exists_ (names fullPath))

end AdequateApi.FileSystemService
