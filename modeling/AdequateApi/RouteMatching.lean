import AdequateApi.RouteCompilation

/-! The compiled pattern of a route is segment matching: what it matches, and what its groups
capture. -/
namespace AdequateApi.RouterModel
open StdString HttpMessages RegexPattern Regex

/-- The path consists of one piece for each non-empty segment of the template. -/
def Fits (tmpl path : Str) (pieces : List Str) : Prop :=
  List.Forall₂ Instantiates (segments tmpl) pieces ∧ path = joined pieces

instance (seg piece : Str) : Decidable (Instantiates seg piece) :=
  inferInstanceAs (Decidable (if isParam seg then piece ≠ [] ∧ '/' ∉ piece else piece = seg))

/-- The pieces that stand for parameters, in order. -/
def paramPieces : List Str → List Str → List Str
  | seg :: segs, piece :: pieces =>
      if isParam seg then piece :: paramPieces segs pieces else paramPieces segs pieces
  | _, _ => []

theorem segments_no_slash {tmpl seg : Str} (h : seg ∈ segments tmpl) : '/' ∉ seg :=
  not_mem_of_mem_splitOn (List.mem_of_mem_filter h)

theorem segments_ne_nil {tmpl seg : Str} (h : seg ∈ segments tmpl) : seg ≠ [] := by
  simpa using (List.mem_filter.mp h).2

/-! ### The pieces of a path -/

/-- What holds of the segments and of everything a parameter takes holds of the pieces. -/
theorem pieces_forall {p : Str → Prop} {segs pieces : List Str}
    (h : List.Forall₂ Instantiates segs pieces) (hsegs : ∀ seg ∈ segs, p seg)
    (hparam : ∀ piece : Str, piece ≠ [] → '/' ∉ piece → p piece) : ∀ piece ∈ pieces, p piece := by
  induction h with
  | nil => simp
  | @cons seg piece segs pieces hi _ ih =>
    have hpiece : p piece := by
      unfold Instantiates at hi
      split at hi
      · exact hparam piece hi.1 hi.2
      · rw [hi]
        exact hsegs seg List.mem_cons_self
    exact List.forall_mem_cons.mpr ⟨hpiece, ih fun s hs => hsegs s (List.mem_cons_of_mem _ hs)⟩

theorem Fits.pieces_no_slash {tmpl path : Str} {pieces : List Str} (h : Fits tmpl path pieces) :
    ∀ piece ∈ pieces, piece ≠ [] ∧ '/' ∉ piece :=
  pieces_forall h.1 (fun _ hs => ⟨segments_ne_nil hs, segments_no_slash hs⟩)
    fun _ hne hslash => ⟨hne, hslash⟩

/-- A path determines its pieces. -/
theorem joined_injective {ps qs : List Str} (hp : ∀ p ∈ ps, '/' ∉ p) (hq : ∀ q ∈ qs, '/' ∉ q)
    (h : joined ps = joined qs) : ps = qs := by
  induction ps generalizing qs with
  | nil =>
    cases qs with
    | nil => rfl
    | cons q qs => simp [joined] at h
  | cons p ps ih =>
    cases qs with
    | nil => simp [joined] at h
    | cons q qs =>
      -- the first piece ends at the next slash
      have first : ∀ {w : Str} (ws : List Str), '/' ∉ w →
          (w ++ joined ws).takeWhile (· ≠ '/') = w := by
        intro w ws hw
        rw [List.takeWhile_append_of_pos]
        · cases ws <;> simp [joined]
        · intro c hc
          have hne : c ≠ '/' := fun e => hw (e ▸ hc)
          simpa using hne
      rw [joined_cons, joined_cons] at h
      have htail := (List.cons.inj h).2
      have hpq : p = q := by
        rw [← first ps (hp p List.mem_cons_self), htail, first qs (hq q List.mem_cons_self)]
      subst hpq
      rw [ih (fun r hr => hp r (List.mem_cons_of_mem _ hr))
        (fun r hr => hq r (List.mem_cons_of_mem _ hr)) (List.append_cancel_left htail)]

theorem Fits.unique {tmpl tmpl' path : Str} {ps qs : List Str} (hp : Fits tmpl path ps)
    (hq : Fits tmpl' path qs) : ps = qs :=
  joined_injective (fun p hm => (hp.pieces_no_slash p hm).2)
    (fun q hm => (hq.pieces_no_slash q hm).2) (hp.2.symm.trans hq.2)

/-! ### Matching -/

theorem moves_routeItems_of {segs pieces : List Str} (h : List.Forall₂ Instantiates segs pieces)
    (n : ℕ) (b s : Str) :
    Moves (seqs (routeItems n segs)) ⟨b, joined pieces ++ s⟩ ⟨b ++ joined pieces, s⟩ := by
  induction h generalizing n b with
  | nil =>
    simp only [routeItems, joined, List.flatMap_nil, List.nil_append, List.append_nil]
    exact .empty
  | @cons seg piece segs pieces hi _ ih =>
    have hend : b ++ joined (piece :: pieces) = b ++ ['/'] ++ piece ++ joined pieces := by simp
    have hstart : joined (piece :: pieces) ++ s = '/' :: (piece ++ (joined pieces ++ s)) := by simp
    rw [hend, hstart]
    unfold Instantiates at hi
    split at hi
    · rename_i hp
      rw [routeItems, if_pos hp]
      have hset : ∀ c ∈ piece, inSet true [.single '/'] c = true := by
        intro c hc
        exact (inSet_slash c).mpr fun e => hi.2 (e ▸ hc)
      exact .seq .char (.seq (.group (.seq (moves_plus_set_of hi.1 hset) .empty)) (ih _ _))
    · rename_i hp
      subst hi
      rw [routeItems, if_neg hp]
      exact .seq .char (moves_seqs_append.mpr ⟨_, moves_word_of piece _ _, ih _ _⟩)

theorem match_of_fits {tmpl path : Str} {pieces : List Str} (h : Fits tmpl path pieces) :
    (regex_match path (compileRoute tmpl).regex).isSome = true := by
  rw [regex_match, parse_route, Option.bind_some, fullMatch_isSome]
  refine ⟨path, .seq .bol (moves_seqs_append.mpr ⟨⟨path, []⟩, ?_, .seq .eol .empty⟩)⟩
  have hitems := moves_routeItems_of h.1 1 [] []
  rw [List.append_nil, List.nil_append, ← h.2] at hitems
  exact hitems

/-! ### Captures -/

/-- Groups numbered from `n` on with these texts, the latest first. -/
def groupsFrom (n : ℕ) (pieces : List Str) : Captures :=
  ((pieces.zipIdx n).map fun e => (e.2, e.1)).reverse

theorem groupsFrom_cons (n : ℕ) (piece : Str) (pieces : List Str) :
    groupsFrom n (piece :: pieces) = groupsFrom (n + 1) pieces ++ [(n, piece)] := by
  simp [groupsFrom]

theorem groupFree_word (w : Str) : (seqs (w.map Regex.char)).groupFree = true := by
  induction w with
  | nil => rfl
  | cons c w ih =>
    simp only [List.map_cons, seqs, groupFree, Bool.true_and]
    exact ih

/-- Every way through the items of the segments captures the pieces of the parameters. -/
theorem mem_run_routeItems {segs : List Str} {n : ℕ} {x y : Pos × Captures}
    (h : y ∈ (seqs (routeItems n segs)).run x) :
    ∃ pieces, List.Forall₂ Instantiates segs pieces ∧ x.1.rest = joined pieces ++ y.1.rest ∧
      y.2 = groupsFrom n (paramPieces segs pieces) ++ x.2 := by
  induction segs generalizing n x with
  | nil =>
    obtain rfl := List.mem_singleton.mp h
    exact ⟨[], .nil, rfl, rfl⟩
  | cons seg segs ih =>
    have slash : ∀ {m : Pos × Captures}, m ∈ (Regex.char '/').run x →
        x.1.rest = '/' :: m.1.rest ∧ m.2 = x.2 := by
      intro m hm
      have hmoves : Moves (.char '/') x.1 m.1 := exists_mem_run.mp ⟨m.2, hm⟩
      have hcap : m.2 = x.2 := run_captures rfl hm
      refine ⟨?_, hcap⟩
      generalize x.1 = p at hmoves ⊢
      generalize m.1 = q at hmoves ⊢
      cases hmoves
      rfl
    by_cases hp : isParam seg = true
    · rw [routeItems, if_pos hp] at h
      obtain ⟨m, hm, h⟩ := mem_run_seqs_cons.mp h
      obtain ⟨g, hg, h⟩ := mem_run_seqs_cons.mp h
      obtain ⟨pieces, hall, hrest, hcap⟩ := ih h
      obtain ⟨hslash, hsame⟩ := slash hm
      obtain ⟨z, hz, rfl⟩ := List.mem_map.mp hg
      have hbody : Moves (seqs [.plus (.set true [.single '/'])]) m.1 z.1 :=
        exists_mem_run.mp ⟨z.2, hz⟩
      have hnone : z.2 = m.2 := run_captures rfl hz
      obtain ⟨v, hv, hbefore⟩ := hbody.text
      obtain ⟨k, hplus, hnil⟩ := moves_seqs_cons.mp hbody
      obtain ⟨w, hne, hw, hword⟩ := moves_plus_set hplus
      have hk : k = z.1 := by
        generalize z.1 = q at hnil ⊢
        cases hnil
        rfl
      subst hk
      obtain rfl : v = w := List.append_cancel_right (hv.symm.trans hword)
      refine ⟨v :: pieces, .cons ?_ hall, ?_, ?_⟩
      · rw [Instantiates, if_pos hp]
        exact ⟨hne, fun hs => (inSet_slash _).mp (hw _ hs) rfl⟩
      · rw [hslash, hv, joined_cons, List.cons_append, List.append_assoc, hrest]
      · rw [hcap, paramPieces, if_pos hp, groupsFrom_cons, hbefore, hnone, hsame]
        simp
    · rw [routeItems, if_neg hp] at h
      obtain ⟨m, hm, h⟩ := mem_run_seqs_cons.mp h
      obtain ⟨z, hz, h⟩ := mem_run_seqs_append.mp h
      obtain ⟨pieces, hall, hrest, hcap⟩ := ih h
      obtain ⟨hslash, hsame⟩ := slash hm
      have hword : m.1.rest = seg ++ z.1.rest := moves_word (exists_mem_run.mp ⟨z.2, hz⟩)
      have hnone : z.2 = m.2 := run_captures (groupFree_word seg) hz
      refine ⟨seg :: pieces, .cons ?_ hall, ?_, ?_⟩
      · rw [Instantiates, if_neg hp]
      · rw [hslash, hword, joined_cons, List.cons_append, List.append_assoc, hrest]
      · rw [hcap, paramPieces, if_neg hp, hnone, hsame]

theorem captures_of_match {tmpl path : Str} {captures : Captures}
    (h : regex_match path (compileRoute tmpl).regex = some captures) :
    ∃ pieces, Fits tmpl path pieces ∧
      captures = groupsFrom 1 (paramPieces (segments tmpl) pieces) := by
  rw [regex_match, parse_route, Option.bind_some] at h
  obtain ⟨b, hm⟩ := mem_run_of_fullMatch h
  obtain ⟨x, hbol, hm⟩ := mem_run_seqs_cons.mp hm
  obtain ⟨y, hitems, heol⟩ := mem_run_seqs_append.mp hm
  obtain ⟨z, heol, hnil⟩ := mem_run_seqs_cons.mp heol
  obtain rfl := List.mem_singleton.mp hnil
  obtain rfl : x = (⟨[], path⟩, []) := by simpa [run] using hbol
  have hy : y.1.rest = [] ∧ (⟨b, []⟩, captures) = y := by simpa [run] using heol
  obtain ⟨pieces, hall, hrest, hcap⟩ := mem_run_routeItems hitems
  rw [hy.1, List.append_nil] at hrest
  refine ⟨pieces, ⟨hall, hrest⟩, ?_⟩
  rw [← List.append_nil (groupsFrom _ _), ← hcap, ← hy.2]

/-! ### Looking up a group and a parameter -/

theorem le_of_mem_groupsFrom {n : ℕ} {pieces : List Str} {c : ℕ × Str}
    (h : c ∈ groupsFrom n pieces) : n ≤ c.1 := by
  obtain ⟨e, he, rfl⟩ := List.mem_map.mp (List.mem_reverse.mp h)
  exact (List.mem_zipIdx he).1

theorem find_groupsFrom (n : ℕ) (pieces : List Str) (i : ℕ) :
    ((groupsFrom n pieces).find? fun c => c.1 = n + i).map Prod.snd = pieces[i]? := by
  induction pieces generalizing n i with
  | nil => rfl
  | cons piece pieces ih =>
    rw [groupsFrom_cons, List.find?_append]
    cases i with
    | zero =>
      have hnone : (groupsFrom (n + 1) pieces).find? (fun c => c.1 = n + 0) = none := by
        rw [List.find?_eq_none]
        intro c hc
        have := le_of_mem_groupsFrom hc
        simp only [decide_eq_true_eq]
        omega
      rw [hnone]
      simp
    | succ i =>
      have hlast : [(n, piece)].find? (fun c => c.1 = n + (i + 1)) = none := by
        simp
      have hshift : n + (i + 1) = n + 1 + i := by omega
      rw [hlast, Option.or_none, hshift, ih, List.getElem?_cons_succ]

/-- What a series of assignments to different keys leaves. -/
theorem find_foldl_set {γ : Type} (g : γ → Str) (l : List (Str × γ)) (hl : (l.map Prod.fst).Nodup)
    (d : Dict Str) (k : Str) :
    (l.foldl (fun d e => d.set e.1 (g e.2)) d).find k =
      ((l.find? fun e => e.1 = k).map fun e => g e.2).or (d.find k) := by
  induction l generalizing d with
  | nil => rfl
  | cons e l ih =>
    rw [List.map_cons, List.nodup_cons] at hl
    rw [List.foldl_cons, ih hl.2]
    by_cases hk : e.1 = k
    · have hnone : l.find? (fun e => e.1 = k) = none := by
        rw [List.find?_eq_none]
        intro a ha
        have hne : a.1 ≠ k := fun h => hl.1 (hk.trans h.symm ▸ List.mem_map_of_mem ha)
        simpa using hne
      rw [hnone, List.find?_cons_of_pos (by simpa using hk), ← hk, Dict.find_set_self]
      rfl
    · rw [List.find?_cons_of_neg (by simpa using hk), Dict.find_set_ne _ _ (Ne.symm hk)]

theorem find_fst_iff {γ : Type} {l : List (Str × γ)} (hl : (l.map Prod.fst).Nodup) {k : Str}
    {e : Str × γ} : l.find? (fun e => e.1 = k) = some e ↔ e ∈ l ∧ e.1 = k := by
  induction l with
  | nil => simp
  | cons a l ih =>
    rw [List.map_cons, List.nodup_cons] at hl
    by_cases ha : a.1 = k
    · have hrest : e ∈ l → e.1 ≠ k := fun he h => hl.1 (ha.trans h.symm ▸ List.mem_map_of_mem he)
      rw [List.find?_cons_of_pos (by simpa using ha), Option.some.injEq, List.mem_cons]
      constructor
      · rintro rfl
        exact ⟨.inl rfl, ha⟩
      · rintro ⟨rfl | he, hk⟩
        · rfl
        · exact absurd hk (hrest he)
    · have hne : e.1 = k → e ≠ a := fun h he => ha (he ▸ h)
      rw [List.find?_cons_of_neg (by simpa using ha), ih hl.2, List.mem_cons]
      constructor
      · rintro ⟨he, hk⟩
        exact ⟨.inr he, hk⟩
      · rintro ⟨he | he, hk⟩
        · exact absurd he (hne hk)
        · exact ⟨he, hk⟩

theorem length_paramPieces {segs pieces : List Str} (h : List.Forall₂ Instantiates segs pieces) :
    (paramPieces segs pieces).length = (segs.filter isParam).length := by
  induction h with
  | nil => rfl
  | @cons seg piece segs pieces _ _ ih =>
    by_cases hp : isParam seg = true
    · rw [paramPieces, if_pos hp, List.filter_cons_of_pos hp, List.length_cons, List.length_cons,
        ih]
    · rw [paramPieces, if_neg hp, List.filter_cons_of_neg hp, ih]

theorem find_pathParams {names pieces : List Str} (hn : names.Nodup)
    (hlen : pieces.length = names.length) (name value : Str) :
    (pathParams names (groupsFrom 1 pieces)).find name = some value ↔
      (name, value) ∈ names.zip pieces := by
  have hkeys : (names.zipIdx.map Prod.fst).Nodup := by
    rw [List.zipIdx_map_fst]
    exact hn
  have hfind : (pathParams names (groupsFrom 1 pieces)).find name =
      ((names.zipIdx.find? fun e => e.1 = name).map fun e => pieces[e.2]?.getD []).or none := by
    have hgroup : ∀ i, ((List.find? (fun c : ℕ × Str => c.1 = i + 1) (groupsFrom 1 pieces)).map
        Prod.snd) = pieces[i]? := by
      intro i
      rw [← find_groupsFrom 1 pieces i, Nat.add_comm]
    have hset := find_foldl_set (fun i => pieces[i]?.getD []) names.zipIdx hkeys [] name
    simp only [← hgroup] at hset ⊢
    exact hset
  rw [hfind, Option.or_none]
  simp only [Option.map_eq_some_iff, find_fst_iff hkeys, List.mem_iff_getElem?,
    List.getElem?_zip_eq_some]
  constructor
  · rintro ⟨⟨key, i⟩, ⟨⟨j, hj⟩, rfl⟩, rfl⟩
    have hi : names[i]? = some key :=
      List.mem_zipIdx_iff_getElem?.mp (List.mem_of_getElem? hj)
    obtain ⟨hlt, _⟩ := List.getElem?_eq_some_iff.mp hi
    exact ⟨i, hi, by rw [List.getElem?_eq_getElem (hlen ▸ hlt), Option.getD_some]⟩
  · rintro ⟨i, hi, hv⟩
    have hmem : (name, i) ∈ names.zipIdx := List.mem_zipIdx_iff_getElem?.mpr hi
    exact ⟨(name, i), ⟨List.mem_iff_getElem?.mp hmem, rfl⟩, by rw [hv, Option.getD_some]⟩

/-- The pattern of a template matches the paths that consist of pieces for its segments; the
groups capture the pieces of the parameters, so that distinct names get exactly theirs. -/
theorem route_matches_iff (tmpl path : Str) :
    ((regex_match path (compileRoute tmpl).regex).isSome = true ↔
      ∃ pieces, Fits tmpl path pieces) ∧
    ∀ pieces captures, Fits tmpl path pieces →
      regex_match path (compileRoute tmpl).regex = some captures →
        (∀ i, (captures.find? fun c => c.1 = i + 1).map Prod.snd =
          (paramPieces (segments tmpl) pieces)[i]?) ∧
        ((compileRoute tmpl).paramNames.Nodup → ∀ name value,
          (pathParams (compileRoute tmpl).paramNames captures).find name = some value ↔
            (name, value) ∈
              (compileRoute tmpl).paramNames.zip (paramPieces (segments tmpl) pieces)) := by
  refine ⟨⟨fun h => ?_, fun ⟨_, h⟩ => match_of_fits h⟩, fun pieces captures hfits hmatch => ?_⟩
  · obtain ⟨captures, hc⟩ := Option.isSome_iff_exists.mp h
    obtain ⟨pieces, hfits, _⟩ := captures_of_match hc
    exact ⟨pieces, hfits⟩
  · obtain ⟨ps, hps, rfl⟩ := captures_of_match hmatch
    obtain rfl := hps.unique hfits
    refine ⟨fun i => ?_, fun hn => find_pathParams hn ?_⟩
    · rw [← find_groupsFrom 1 _ i, Nat.add_comm]
    · rw [length_paramPieces hfits.1]
      simp [compileRoute]

theorem route_matches_iff_users :
    Fits "/users/{id}".toList "/users/7".toList ["users".toList, "7".toList] ∧
      ∀ captures, regex_match "/users/7".toList (compileRoute "/users/{id}".toList).regex =
          some captures →
        (pathParams ["id".toList] captures).find "id".toList = some "7".toList := by
  have hfits : Fits "/users/{id}".toList "/users/7".toList ["users".toList, "7".toList] :=
    ⟨.cons (by decide) (.cons (by decide) .nil), by decide⟩
  refine ⟨hfits, fun captures hc => ?_⟩
  have h := ((route_matches_iff _ _).2 _ captures hfits hc).2 (by decide)
  exact (h "id".toList "7".toList).mpr (by decide)

end AdequateApi.RouterModel
