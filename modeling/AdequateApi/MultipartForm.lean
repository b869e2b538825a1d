import AdequateApi.StdString

/-! `POCOMultipartAdapter` and `Request::parseMultipart`. Poco frames the body into parts and
parses media types; what it finds is an input here. -/
namespace AdequateApi.MultipartForm
open StdString

/-- One part as Poco frames it. -/
structure RawPart where
  headers : List (Str × Str)
  data : Str
  deriving DecidableEq, Repr

structure MediaType where
  type : Str
  parameters : Dict Str
  deriving DecidableEq, Repr

/-- `Poco::Net::MediaType` and `Poco::Net::MultipartReader`. The reader yields parts until
the closing boundary or until it throws. -/
structure Poco where
  mediaType : Str → Except Str MediaType
  reader : (boundary body : Str) → List RawPart × Option Str

structure Part where
  name : Str
  filename : Str
  contentType : Str
  data : Str
  headers : Dict Str
  deriving DecidableEq, Repr

structure MultipartPart where
  name : Str
  filename : Str
  contentType : Str
  data : Str
  deriving DecidableEq, Repr

structure Form where
  files : Dict MultipartPart
  fields : Dict Str
  deriving DecidableEq, Repr

/-! ### `POCOMultipartAdapter` -/

/-- Header names are compared without regard to case. -/
def headerGet (h : List (Str × Str)) (key : Str) : Str :=
  ((h.find? fun e => toLower e.1 = toLower key).map Prod.snd).getD []

def trimCopy (s : Str) : Str :=
  ((s.dropWhile isspace).reverse.dropWhile isspace).reverse

def unquote (s : Str) : Str :=
  let t := trimCopy s
  match t with
  | a :: b :: rest =>
      let last := (b :: rest).getLast (by simp)
      if (a = '"' ∧ last = '"') ∨ (a = '\'' ∧ last = '\'') then (b :: rest).dropLast else t
  | _ => t

/-- One `;`-separated token after the first. -/
def headerParam (out : Dict Str) (token : Str) : Dict Str :=
  match cut '=' token with
  | none => out
  | some (left, right) =>
      let key := trimCopy left
      if key = [] then out else out.set key (unquote right)

def parseHeaderParams (headerValue : Str) : Dict Str :=
  let tokens := ((headerValue.splitOn ';').map trimCopy).filter (· ≠ [])
  tokens.tail.foldl headerParam []

/-- The exceptions of one call of `parse`, before they are wrapped. -/
inductive ParseError
  | poco (displayText : Str)
  | std (what : Str)
  deriving DecidableEq, Repr

def parsePart (raw : RawPart) : Except ParseError Part :=
  let cd := headerGet raw.headers "Content-Disposition".toList
  if cd = [] then .error (.std "Multipart part missing Content-Disposition".toList)
  else if trimCopy (cd.takeWhile (· ≠ ';')) ≠ "form-data".toList then
    .error (.std ("Unsupported Content-Disposition: ".toList ++ cd))
  else
    let params := parseHeaderParams cd
    match params.find "name".toList with
    | none | some [] =>
        .error (.std "Multipart part missing disposition parameter: name".toList)
    | some name =>
        .ok { name := name
              filename := (params.find "filename".toList).getD []
              contentType := headerGet raw.headers "Content-Type".toList
              data := raw.data
              headers := raw.headers.foldl (fun m e => m.set e.1 e.2) [] }

def parseParts (poco : Poco) (contentType body : Str) : Except ParseError (List Part) := do
  let mt ← (poco.mediaType contentType).mapError .poco
  if mt.type ≠ "multipart".toList then
    .error (.std ("Content-Type is not multipart/*: ".toList ++ contentType))
  else
    let boundary := (mt.parameters.find "boundary".toList).getD []
    if boundary = [] then
      .error (.std ("Multipart boundary is missing in Content-Type: ".toList ++ contentType))
    else
      let (raws, failure) := poco.reader boundary body
      let parts ← raws.mapM parsePart
      match failure with
      | some displayText => .error (.poco displayText)
      | none => .ok parts

/-- Every exception becomes a `MultipartError` with this text. -/
def parse (poco : Poco) (contentType body : Str) : Except Str (List Part) :=
  (parseParts poco contentType body).mapError fun
    | .poco displayText => "Poco multipart parse failed: ".toList ++ displayText
    | .std what => "Multipart parse failed: ".toList ++ what

/-! ### `Request::parseMultipart` -/

/-- A part with a file name is a file, any other a field; later parts of one name replace
earlier ones. -/
def Form.add (form : Form) (p : Part) : Form :=
  if p.filename ≠ [] then
    { form with files := form.files.set p.name ⟨p.name, p.filename, p.contentType, p.data⟩ }
  else { form with fields := form.fields.set p.name p.data }

def parseMultipart (poco : Poco) (adapter contentType body : Str) : Except Str Form :=
  if adapter ≠ "POCO".toList then .error ("Unsupported adapter: ".toList ++ adapter)
  else (parse poco contentType body).map fun parts => parts.foldl Form.add ⟨[], []⟩

/-- Only parts with a file name become files. -/
theorem Form.files_filename {form : Form} {p : Part}
    (h : ∀ k f, form.files.find k = some f → f.filename ≠ []) {k : Str} {f : MultipartPart}
    (hf : (form.add p).files.find k = some f) : f.filename ≠ [] := by
  unfold Form.add at hf
  split at hf
  · rename_i hp
    by_cases hk : k = p.name
    · subst hk
      rw [Dict.find_set_self] at hf
      cases hf
      exact hp
    · rw [Dict.find_set_ne _ _ hk] at hf
      exact h k f hf
  · exact h k f hf

theorem parseMultipart_filename {poco : Poco} {adapter contentType body : Str} {form : Form}
    (h : parseMultipart poco adapter contentType body = .ok form) {k : Str} {f : MultipartPart}
    (hf : form.files.find k = some f) : f.filename ≠ [] := by
  unfold parseMultipart at h
  split at h
  · cases h
  cases hp : parse poco contentType body with
  | error e => simp [hp, Except.map] at h
  | ok parts =>
    simp only [hp, Except.map, Except.ok.injEq] at h
    subst h
    have hall : ∀ (ps : List Part) (form : Form),
        (∀ k f, form.files.find k = some f → f.filename ≠ []) →
        ∀ k f, (ps.foldl Form.add form).files.find k = some f → f.filename ≠ [] := by
      intro ps
      induction ps with
      | nil => exact fun _ h => h
      | cons p ps ih => exact fun form h => ih (form.add p) fun k f hf => Form.files_filename h hf
    exact hall parts ⟨[], []⟩ (by simp) k f hf

end AdequateApi.MultipartForm
