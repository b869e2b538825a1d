import AdequateApi.MultipartForm

/-! `parseHeaderParams` on the `Content-Disposition` of a form part: for which names and file names
the parameters are what stands between the quotes. -/
namespace AdequateApi.DispositionParams
open StdString MultipartForm

/-- `form-data; name="N"; filename="F"`. -/
def disposition (name filename : Str) : Str :=
  "form-data; name=\"".toList ++ (name ++ ("\"; filename=\"".toList ++ (filename ++ "\"".toList)))

/-- The parameters are the name and the file name, and nothing else. -/
def Survives (name filename : Str) : Prop :=
  (parseHeaderParams (disposition name filename)).find "name".toList = some name ∧
    (parseHeaderParams (disposition name filename)).find "filename".toList = some filename ∧
    ∀ key, key ≠ "name".toList → key ≠ "filename".toList →
      (parseHeaderParams (disposition name filename)).find key = none

/-! ### Without a semicolon -/

theorem trimCopy_eq_self {s : Str} {c d : Char} (hc : isspace c = false) (hd : isspace d = false) :
    trimCopy (c :: (s ++ [d])) = c :: (s ++ [d]) := by
  have hfront : (c :: (s ++ [d])).dropWhile isspace = c :: (s ++ [d]) :=
    List.dropWhile_cons_of_neg (by simp [hc])
  have hback : (c :: (s ++ [d])).reverse = d :: (c :: s).reverse := by simp
  have hkept : (d :: (c :: s).reverse).dropWhile isspace = d :: (c :: s).reverse :=
    List.dropWhile_cons_of_neg (by simp [hd])
  rw [trimCopy, hfront, hback, hkept, ← hback, List.reverse_reverse]

/-- The quotes keep blanks and quotes inside them. -/
theorem unquote_quoted (v : Str) : unquote ('"' :: (v ++ ['"'])) = v := by
  have htrim : trimCopy ('"' :: (v ++ ['"'])) = '"' :: (v ++ ['"']) := trimCopy_eq_self rfl rfl
  unfold unquote
  rw [htrim]
  cases v with
  | nil => rfl
  | cons b v =>
    have hlast : (b :: (v ++ ['"'])).getLast (by simp) = '"' := by
      simp [List.getLast_cons]
    have hinner : (b :: (v ++ ['"'])).dropLast = b :: v := by
      rw [← List.cons_append, List.dropLast_concat]
    dsimp only [List.cons_append]
    rw [if_pos (.inl ⟨rfl, hlast⟩), hinner]

theorem cut_eq {c : Char} {key v : Str} (h : c ∉ key) : cut c (key ++ c :: v) = some (key, v) := by
  have hkey : ∀ d ∈ key, decide (d ≠ c) = true := fun d hd => by
    simpa using fun e : d = c => h (e ▸ hd)
  unfold cut
  rw [List.dropWhile_append_of_pos hkey, List.takeWhile_append_of_pos hkey]
  simp

/-- The tokens of the header, when no value has a semicolon. -/
theorem tokens_disposition {name filename : Str} (hname : ';' ∉ name) (hfilename : ';' ∉ filename) :
    (disposition name filename).splitOn ';' =
      ["form-data".toList, " name=\"".toList ++ (name ++ ['"']),
        " filename=\"".toList ++ (filename ++ ['"'])] := by
  have hjoin : disposition name filename = [';'].intercalate ["form-data".toList,
      " name=\"".toList ++ (name ++ ['"']), " filename=\"".toList ++ (filename ++ ['"'])] := by
    have hthree (a b c : Str) : [';'].intercalate [a, b, c] = a ++ ';' :: (b ++ ';' :: c) := by
      simp
    have hassoc (w n q r : Str) : (w ++ (n ++ q)) ++ r = w ++ (n ++ (q ++ r)) := by simp
    rw [hthree]
    exact (congrArg (fun t => "form-data;".toList ++ t)
      (hassoc " name=\"".toList name ['"'] _)).symm
  rw [hjoin]
  refine List.splitOn_intercalate ';' (fun token htoken => ?_) (List.cons_ne_nil _ _)
  simp only [List.mem_cons, List.not_mem_nil, or_false] at htoken
  rcases htoken with rfl | rfl | rfl
  · decide
  · simp only [List.mem_append, not_or]
    exact ⟨by decide, hname, by decide⟩
  · simp only [List.mem_append, not_or]
    exact ⟨by decide, hfilename, by decide⟩

section token

variable {c : Char} {key : Str}

theorem trimCopy_token (hc : isspace c = false) (v : Str) :
    trimCopy (' ' :: c :: (key ++ '=' :: '"' :: (v ++ ['"']))) =
      (c :: key) ++ '=' :: '"' :: (v ++ ['"']) := by
  have hself : trimCopy (c :: ((key ++ '=' :: '"' :: v) ++ ['"'])) =
      c :: ((key ++ '=' :: '"' :: v) ++ ['"']) := trimCopy_eq_self hc rfl
  have hfront : trimCopy (' ' :: c :: ((key ++ '=' :: '"' :: v) ++ ['"'])) =
      trimCopy (c :: ((key ++ '=' :: '"' :: v) ++ ['"'])) := by
    unfold trimCopy
    rw [List.dropWhile_cons_of_pos (by rfl)]
  rw [hself] at hfront
  simpa using hfront

/-- A token is one key with the text between its quotes. -/
theorem headerParam_token (hkey : trimCopy (c :: key) = c :: key) (heq : '=' ∉ c :: key)
    (out : Dict Str) (v : Str) :
    headerParam out ((c :: key) ++ '=' :: '"' :: (v ++ ['"'])) = out.set (c :: key) v := by
  rw [headerParam, cut_eq heq]
  dsimp only
  rw [hkey, if_neg (List.cons_ne_nil _ _), unquote_quoted]

end token

theorem parse_disposition {name filename : Str} (hname : ';' ∉ name) (hfilename : ';' ∉ filename) :
    parseHeaderParams (disposition name filename) =
      (Dict.set [] "name".toList name).set "filename".toList filename := by
  have hfirst : trimCopy (" name=\"".toList ++ (name ++ ['"'])) =
      "name".toList ++ '=' :: '"' :: (name ++ ['"']) :=
    @trimCopy_token 'n' "ame".toList rfl name
  have hsecond : trimCopy (" filename=\"".toList ++ (filename ++ ['"'])) =
      "filename".toList ++ '=' :: '"' :: (filename ++ ['"']) :=
    @trimCopy_token 'f' "ilename".toList rfl filename
  have htokens : (["form-data".toList, " name=\"".toList ++ (name ++ ['"']),
      " filename=\"".toList ++ (filename ++ ['"'])].map trimCopy).filter (· ≠ []) =
        ["form-data".toList, "name".toList ++ '=' :: '"' :: (name ++ ['"']),
          "filename".toList ++ '=' :: '"' :: (filename ++ ['"'])] := by
    rw [List.map_cons, List.map_cons, List.map_cons, hfirst, hsecond]
    rfl
  unfold parseHeaderParams
  rw [tokens_disposition hname hfilename, htokens]
  dsimp only [List.tail_cons, List.foldl_cons, List.foldl_nil]
  have hone (out : Dict Str) : headerParam out ("name".toList ++ '=' :: '"' :: (name ++ ['"'])) =
      out.set "name".toList name := headerParam_token rfl (by decide) out name
  have htwo (out : Dict Str) :
      headerParam out ("filename".toList ++ '=' :: '"' :: (filename ++ ['"'])) =
        out.set "filename".toList filename := headerParam_token rfl (by decide) out filename
  rw [hone, htwo]

/-! ### With one -/

theorem trimCopy_subset (s : Str) : trimCopy s ⊆ s := by
  intro c hc
  have hback := (List.dropWhile_suffix isspace).subset (List.mem_reverse.mp hc)
  exact (List.dropWhile_suffix isspace).subset (List.mem_reverse.mp hback)

theorem unquote_subset (s : Str) : unquote s ⊆ s := by
  refine List.Subset.trans ?_ (trimCopy_subset s)
  unfold unquote
  dsimp only
  split
  · rename_i a b rest htrim
    split
    · rw [htrim]
      exact fun c hc => List.mem_cons_of_mem a (List.dropLast_subset _ hc)
    · exact List.Subset.refl _
  · exact List.Subset.refl _

theorem cut_subset {c : Char} {s left right : Str} (h : cut c s = some (left, right)) :
    right ⊆ s := by
  unfold cut at h
  split at h
  · cases h
  · rename_i d rest hdrop
    cases h
    intro e he
    have hmem : e ∈ s.dropWhile (· ≠ c) := hdrop ▸ List.mem_cons_of_mem d he
    exact (List.dropWhile_suffix _).subset hmem

theorem headerParam_values {out : Dict Str} {token : Str} (htoken : ';' ∉ token)
    (h : ∀ e ∈ out, ';' ∉ e.2) : ∀ e ∈ headerParam out token, ';' ∉ e.2 := by
  unfold headerParam
  split
  · exact h
  · rename_i left right hcut
    dsimp only
    split
    · exact h
    · intro e he
      rcases List.mem_cons.mp he with rfl | he
      · exact fun hmem => htoken (cut_subset hcut (unquote_subset right hmem))
      · exact h e (List.mem_of_mem_filter he)

/-- The header is split at every semicolon, so that no value has one. -/
theorem parseHeaderParams_values (headerValue : Str) :
    ∀ e ∈ parseHeaderParams headerValue, ';' ∉ e.2 := by
  have hfold : ∀ (tokens : List Str) (out : Dict Str), (∀ token ∈ tokens, ';' ∉ token) →
      (∀ e ∈ out, ';' ∉ e.2) → ∀ e ∈ tokens.foldl headerParam out, ';' ∉ e.2 := by
    intro tokens
    induction tokens with
    | nil => exact fun out _ h => h
    | cons token tokens ih =>
      intro out htokens h
      exact ih _ (fun t ht => htokens t (List.mem_cons_of_mem token ht))
        (headerParam_values (htokens token List.mem_cons_self) h)
  refine hfold _ [] (fun token htoken => ?_) (by simp)
  obtain ⟨raw, hraw, rfl⟩ := List.mem_map.mp (List.mem_of_mem_filter (List.mem_of_mem_tail htoken))
  exact fun hmem => not_mem_of_mem_splitOn hraw (trimCopy_subset raw hmem)

theorem find_mem {β : Type} {m : Dict β} {k : Str} {v : β} (h : m.find k = some v) :
    (k, v) ∈ m := by
  obtain ⟨e, he, rfl⟩ := Option.map_eq_some_iff.mp h
  have hkey : e.1 = k := by simpa using List.find?_some he
  exact hkey ▸ List.mem_of_find?_eq_some he

/-- A name and a file name arrive as they stand between the quotes if and only if neither has a
semicolon. -/
theorem disposition_survives_iff (name filename : Str) :
    Survives name filename ↔ ';' ∉ name ∧ ';' ∉ filename := by
  constructor
  · rintro ⟨hname, hfilename, -⟩
    exact ⟨parseHeaderParams_values _ _ (find_mem hname),
      parseHeaderParams_values _ _ (find_mem hfilename)⟩
  · rintro ⟨hname, hfilename⟩
    have hne : "name".toList ≠ "filename".toList := by decide
    unfold Survives
    rw [parse_disposition hname hfilename]
    refine ⟨?_, Dict.find_set_self _ _ _, fun key hkey hkey' => ?_⟩
    · rw [Dict.find_set_ne _ _ hne, Dict.find_set_self]
    · rw [Dict.find_set_ne _ _ hkey', Dict.find_set_ne _ _ hkey, Dict.find_nil]

/-- A file name whose end becomes a parameter of its own. -/
theorem disposition_semicolon :
    (parseHeaderParams (disposition "doc".toList "a;type=exe.pdf".toList)).find "filename".toList =
        some "\"a".toList ∧
      (parseHeaderParams (disposition "doc".toList "a;type=exe.pdf".toList)).find "type".toList =
        some "exe.pdf\"".toList ∧
      ¬ Survives "doc".toList "a;type=exe.pdf".toList := by
  have hfilename : (parseHeaderParams (disposition "doc".toList "a;type=exe.pdf".toList)).find
      "filename".toList = some "\"a".toList := by decide +kernel
  refine ⟨hfilename, by decide +kernel, fun h => ?_⟩
  rw [h.2.1] at hfilename
  simp at hfilename

end AdequateApi.DispositionParams
