import AdequateApi.FileSystemService
import AdequateApi.UsersRepository

/-! `UsersService::update` and `UsersService::remove`, and the part of `UsersController` that
leads to them. -/
namespace AdequateApi.UsersService
open StdString FileTree FileSystemService UsersRepository HttpMessages DbConnection RegexPattern

/-- The two stores of a user. -/
structure State where
  disk : Disk
  users : Table

/-- What `appctx::wire` makes the service from. -/
structure Services where
  lib : Library
  os : Platform
  rootPath : Str
  media_path : Str
  file_upload_limit_size : ℕ

def Services.opts (srv : Services) : Options where
  rootPath := srv.rootPath
  mediaPath := srv.media_path
  maxBytes := srv.file_upload_limit_size

structure UserUpdateSerializer where
  id : ℤ
  username : Option Str
  picture : Option Str
  email : Option Str
  password : Option Str
  deriving DecidableEq, Repr

def UserUpdateSerializer.toEntity (data : UserUpdateSerializer) : UserEntity where
  id := data.id
  username := data.username
  email := data.email
  picture := data.picture
  password := data.password

/-- Answers to one `update`. -/
structure UpdateAnswers where
  hash : Except Str Str
  stat_fails : Bool
  removal : Option RemovalFailure
  store : StoreAnswers
  query : QueryAnswer

/-- Answers to one `remove`. -/
structure RemoveAnswers where
  stat_fails : Bool
  removal : Option RemovalFailure
  query : QueryAnswer

/-! ### The service -/

section service
variable (srv : Services)

def pictureDir (id : ℤ) : Str := buildRelativeDir "users".toList (to_string id)

/-- `if (fs_.exists(relativePath)) fs_.remove(relativePath)`. -/
def clearDirectory (disk : Disk) (relativePath : Str) (stat_fails : Bool)
    (removal : Option RemovalFailure) : Disk × Except FileError Unit :=
  match exists_ srv.os srv.opts disk relativePath stat_fails with
  | .error e => (disk, .error e)
  | .ok false => (disk, .ok ())
  | .ok true => FileSystemService.remove srv.os srv.opts disk relativePath removal

/-- The lambda given to `async_offload`. -/
def storePicture (disk : Disk) (id : ℤ) (picture : IncomingFile) (a : StoreAnswers) :
    Disk × Except FileError StoredFileInfo :=
  store srv.os srv.opts disk "users".toList (to_string id) picture a

def hashPassword (user : UserEntity) (hash : Except Str Str) : Except Exn UserEntity :=
  match user.password, hash with
  | none, _ => .ok user
  | some _, .error what => .error (.std what)
  | some _, .ok hash => .ok { user with password := some hash }

def replacePicture (disk : Disk) (user : UserEntity) (picture : IncomingFile)
    (a : UpdateAnswers) : Disk × Except FileError UserEntity :=
  if user.picture.isSome ∧ picture.bytes ≠ [] then
    match clearDirectory srv disk (pictureDir user.id) a.stat_fails a.removal with
    | (disk, .error e) => (disk, .error e)
    | (disk, .ok ()) =>
        match storePicture srv disk user.id picture a.store with
        | (disk, .error e) => (disk, .error e)
        | (disk, .ok info) => (disk, .ok { user with picture := some info.storedFileName })
  else (disk, .ok user)

/-- The `catch (const DbError&)` of `update`. -/
def translate : Exn → Exn
  | .db .UniqueViolation _ => .validation "Email already exists".toList
  | .db .NotNullViolation _ => .validation "Missing required fields".toList
  | e => e

def update (s : State) (data : UserUpdateSerializer) (picture : IncomingFile)
    (a : UpdateAnswers) : State × Except Exn Unit :=
  match hashPassword data.toEntity a.hash with
  | .error e => (s, .error e)
  | .ok user =>
      match replacePicture srv s.disk user picture a with
      | (disk, .error e) => (⟨disk, s.users⟩, .error (.std e.what))
      | (disk, .ok user) =>
          let w := UsersRepository.update s.users user a.query
          (⟨disk, w.1⟩, w.2.mapError translate)

/-- `id` is a `uint64_t`; the repository takes it as `int64_t`. -/
def remove (s : State) (id : BitVec 64) (a : RemoveAnswers) : State × Except Exn Unit :=
  match clearDirectory srv s.disk (pictureDir id.toNat) a.stat_fails a.removal with
  | (disk, .error e) => (⟨disk, s.users⟩, .error (.std e.what))
  | (disk, .ok ()) =>
      let w := UsersRepository.remove s.users id.toInt a.query
      (⟨disk, w.1⟩, w.2)

end service
end AdequateApi.UsersService
