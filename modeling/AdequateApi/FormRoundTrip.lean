import AdequateApi.BodyValidation
import AdequateApi.DispositionParams
import AdequateApi.MutationEffects

/-! From the parts of a form to the row: what a client puts into the form of a PATCH is what the
user then has, unless another request is served at the same time. -/
namespace AdequateApi.FormRoundTrip
open StdString FileTree FileSystemService MultipartForm HttpMessages UsersRepository
  AdequateApi.UsersService AdequateApi.UsersController DispositionParams AccountStore
  AccountServices AccountCreation RouterModel ApplicationRoutes ServerErrors ServerStep
  MutationEffects

/-! ### Writing and reading a part -/

/-- What a client puts into a form; without a file name it is a text. -/
structure FormEntry where
  name : Str
  filename : Str
  contentType : Str
  data : Str
  deriving DecidableEq, Repr

namespace FormEntry
variable (x : FormEntry)

/-- The names can be told from the rest of the header. -/
structure Plain : Prop where
  named : x.name ≠ []
  name : ';' ∉ x.name
  filename : ';' ∉ x.filename

def disposition : Str :=
  if x.filename = [] then "form-data; name=\"".toList ++ (x.name ++ ['"'])
  else DispositionParams.disposition x.name x.filename

/-- The part of the body, as Poco frames it. -/
def raw : RawPart where
  headers := ("Content-Disposition".toList, x.disposition) ::
    if x.contentType = [] then [] else [("Content-Type".toList, x.contentType)]
  data := x.data

/-- The part that the adapter gives for it. -/
def part : Part where
  name := x.name
  filename := x.filename
  contentType := x.contentType
  data := x.data
  headers := x.raw.headers.foldl (fun m e => m.set e.1 e.2) []

end FormEntry

theorem tokens_name {name : Str} (hname : ';' ∉ name) :
    ("form-data; name=\"".toList ++ (name ++ ['"'])).splitOn ';' =
      ["form-data".toList, " name=\"".toList ++ (name ++ ['"'])] := by
  have hjoin : "form-data; name=\"".toList ++ (name ++ ['"']) =
      [';'].intercalate ["form-data".toList, " name=\"".toList ++ (name ++ ['"'])] := by
    have htwo (a b : Str) : [';'].intercalate [a, b] = a ++ ';' :: b := by
      simp
    rw [htwo]
    rfl
  rw [hjoin]
  refine List.splitOn_intercalate ';' (fun token htoken => ?_) (List.cons_ne_nil _ _)
  simp only [List.mem_cons, List.not_mem_nil, or_false] at htoken
  rcases htoken with rfl | rfl
  · decide
  · simp only [List.mem_append, not_or]
    exact ⟨by decide, hname, by decide⟩

theorem parse_name {name : Str} (hname : ';' ∉ name) :
    parseHeaderParams ("form-data; name=\"".toList ++ (name ++ ['"'])) =
      Dict.set [] "name".toList name := by
  have hfirst : trimCopy (" name=\"".toList ++ (name ++ ['"'])) =
      "name".toList ++ '=' :: '"' :: (name ++ ['"']) :=
    @trimCopy_token 'n' "ame".toList rfl name
  have htokens : (["form-data".toList, " name=\"".toList ++ (name ++ ['"'])].map trimCopy).filter
      (· ≠ []) = ["form-data".toList, "name".toList ++ '=' :: '"' :: (name ++ ['"'])] := by
    rw [List.map_cons, List.map_cons, hfirst]
    rfl
  have hparam : headerParam [] ("name".toList ++ '=' :: '"' :: (name ++ ['"'])) =
      Dict.set [] "name".toList name := headerParam_token rfl (by decide) [] name
  unfold parseHeaderParams
  rw [tokens_name hname, htokens]
  exact hparam

namespace FormEntry

/-- The name and the file name, as they are read from the header. -/
theorem Plain.params {x : FormEntry} (h : x.Plain) :
    (parseHeaderParams x.disposition).find "name".toList = some x.name ∧
      ((parseHeaderParams x.disposition).find "filename".toList).getD [] = x.filename := by
  have hne : "name".toList ≠ "filename".toList := by decide
  unfold disposition
  by_cases hfile : x.filename = []
  · rw [if_pos hfile, parse_name h.name, Dict.find_set_self, Dict.find_set_ne _ _ hne.symm, hfile]
    exact ⟨rfl, rfl⟩
  · rw [if_neg hfile, parse_disposition h.name h.filename, Dict.find_set_ne _ _ hne,
      Dict.find_set_self, Dict.find_set_self]
    exact ⟨rfl, rfl⟩

theorem headerGet_disposition (x : FormEntry) :
    headerGet x.raw.headers "Content-Disposition".toList = x.disposition := rfl

theorem headerGet_type (x : FormEntry) :
    headerGet x.raw.headers "Content-Type".toList = x.contentType := by
  unfold raw
  dsimp only
  by_cases htype : x.contentType = []
  · rw [if_pos htype, htype]
    rfl
  · rw [if_neg htype]
    rfl

/-- The header begins with the kind of the part. -/
theorem disposition_kind (x : FormEntry) :
    x.disposition ≠ [] ∧ x.disposition.takeWhile (· ≠ ';') = "form-data".toList := by
  unfold disposition
  split
  · exact ⟨List.append_ne_nil_of_left_ne_nil (by decide) _, rfl⟩
  · exact ⟨List.append_ne_nil_of_left_ne_nil (by decide) _, rfl⟩

/-- What is written is read. -/
theorem Plain.parsePart {x : FormEntry} (h : x.Plain) :
    MultipartForm.parsePart x.raw = .ok x.part := by
  obtain ⟨hne, hkind⟩ := x.disposition_kind
  obtain ⟨hname, hfilename⟩ := h.params
  have htrim : trimCopy "form-data".toList = "form-data".toList := by decide
  unfold MultipartForm.parsePart
  rw [headerGet_disposition, headerGet_type]
  dsimp only
  rw [if_neg hne, hkind, htrim, if_neg (by simp), hname, hfilename]
  split
  · rename_i hnone
    cases hnone
  · rename_i hempty
    exact absurd (Option.some.inj hempty) h.named
  · rename_i hsome
    cases hsome
    rfl

end FormEntry

/-! ### The form -/

/-- Of the entries that are set under one key the last is found. -/
theorem find_foldl_set {α β : Type} (p : α → Prop) [DecidablePred p] (key : α → Str)
    (value : α → β) (entries : List α) (k : Str) :
    (entries.foldl (fun m x => if p x then Dict.set m (key x) (value x) else m) []).find k =
      ((entries.filter fun x => p x ∧ key x = k).getLast?).map value := by
  induction entries using List.reverseRecOn with
  | nil => rfl
  | append_singleton entries x ih =>
    rw [List.foldl_append, List.foldl_cons, List.foldl_nil, List.filter_append]
    by_cases hp : p x
    · rw [if_pos hp]
      by_cases hk : key x = k
      · have htake : [x].filter (fun x => decide (p x ∧ key x = k)) = [x] := by
          simp [hp, hk]
        rw [htake, List.getLast?_concat, ← hk]
        exact Dict.find_set_self _ _ _
      · have hskip : [x].filter (fun x => decide (p x ∧ key x = k)) = [] := by
          simp [hk]
        rw [hskip, List.append_nil]
        exact (Dict.find_set_ne _ _ (Ne.symm hk)).trans ih
    · have hskip : [x].filter (fun x => decide (p x ∧ key x = k)) = [] := by
        simp [hp]
      rw [if_neg hp, hskip, List.append_nil]
      exact ih

def FormEntry.file (x : FormEntry) : MultipartPart := ⟨x.name, x.filename, x.contentType, x.data⟩

def formOf (entries : List FormEntry) : Form := (entries.map FormEntry.part).foldl Form.add ⟨[], []⟩

theorem mapM_parsePart {entries : List FormEntry} (h : ∀ x ∈ entries, x.Plain) :
    (entries.map FormEntry.raw).mapM parsePart = .ok (entries.map FormEntry.part) := by
  induction entries with
  | nil => rfl
  | cons x rest ih =>
    obtain ⟨hx, hrest⟩ := List.forall_mem_cons.mp h
    rw [List.map_cons, List.mapM_cons, hx.parsePart, ih hrest]
    rfl

/-! ### The request -/

/-- The request carries a form with these entries; Poco finds the media type and frames the
parts. -/
structure SendsForm (app : Application) (request : Request) (entries : List FormEntry) : Prop where
  plain : ∀ x ∈ entries, x.Plain
  adapter : app.multipart_adapter = "POCO".toList
  not_json : contains request.content_type "application/json".toList = false
  multipart : contains request.content_type "multipart/form-data".toList = true
  framed : ∃ mt boundary, app.lib.poco.mediaType request.content_type = .ok mt ∧
    mt.type = "multipart".toList ∧ mt.parameters.find "boundary".toList = some boundary ∧
    boundary ≠ [] ∧ app.lib.poco.reader boundary request.body = (entries.map FormEntry.raw, none)

section request
variable {app : Application} {request : Request} {entries : List FormEntry}

theorem parseParts_framed {poco : Poco} {contentType body boundary : Str} {mt : MediaType}
    {raws : List RawPart} {parts : List Part} (hmt : poco.mediaType contentType = .ok mt)
    (htype : mt.type = "multipart".toList)
    (hboundary : mt.parameters.find "boundary".toList = some boundary) (hne : boundary ≠ [])
    (hreader : poco.reader boundary body = (raws, none))
    (hparts : raws.mapM parsePart = .ok parts) :
    parseParts poco contentType body = .ok parts := by
  refine AccountSerializers.bind_ok.mpr ⟨mt, by rw [hmt]; rfl, ?_⟩
  rw [if_neg (not_not.mpr htype), hboundary, Option.getD_some, if_neg hne, hreader]
  exact AccountSerializers.bind_ok.mpr ⟨parts, hparts, rfl⟩

theorem SendsForm.parsed (h : SendsForm app request entries) :
    MultipartForm.parseMultipart app.lib.poco app.multipart_adapter request.content_type
      request.body = .ok (formOf entries) := by
  obtain ⟨mt, boundary, hmt, htype, hboundary, hne, hreader⟩ := h.framed
  unfold MultipartForm.parseMultipart parse
  rw [if_neg (not_not.mpr h.adapter),
    parseParts_framed hmt htype hboundary hne hreader (mapM_parsePart h.plain)]
  rfl

theorem SendsForm.checked (h : SendsForm app request entries) :
    checked app.lib app.env request = { request with multipart := some (formOf entries) } := by
  have hjson : ¬ contains request.content_type "application/json".toList = true := by
    rw [h.not_json]
    exact Bool.false_ne_true
  have hparsed : MultipartForm.parseMultipart app.lib.poco app.env.multipart_adapter
      request.content_type request.body = .ok (formOf entries) := h.parsed
  unfold RouterModel.checked parseBody
  rw [if_neg hjson, if_pos h.multipart]
  unfold Request.parseMultipart
  rw [hparsed]

end request

end AdequateApi.FormRoundTrip
