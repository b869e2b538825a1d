import AdequateApi.RouterModel

/-! What the compiled pattern of a route matches. -/
namespace AdequateApi.RouterModel
open StdString HttpMessages RegexPattern Regex

/-- The piece of a path that stands for a segment of the template. -/
def Instantiates (seg piece : Str) : Prop :=
  if isParam seg then piece ≠ [] ∧ '/' ∉ piece else piece = seg

/-- A path made of these pieces. -/
def joined (pieces : List Str) : Str := pieces.flatMap ('/' :: ·)

@[simp] theorem joined_cons (piece : Str) (pieces : List Str) :
    joined (piece :: pieces) = '/' :: (piece ++ joined pieces) := rfl

/-! ### Parsing the pattern -/

/-- The group `([^/]+)`. -/
def paramGroup (n : ℕ) : Regex := .group n (.seqs [.plus (.set true [.single '/'])])

/-- The expressions of the segments; `n` numbers the groups. -/
def routeItems : ℕ → List Str → List Regex
  | _, [] => []
  | n, seg :: segs =>
      if isParam seg then .char '/' :: paramGroup n :: routeItems (n + 1) segs
      else .char '/' :: (seg.map .char ++ routeItems n segs)

theorem scan_char {c : Char} {s : Str} (h : c ∉ specials) :
    scan .normal (c :: s) = (scan .normal s).map (.atom (.char c) :: ·) := by
  have hne : ∀ d ∈ specials, c ≠ d := by
    rintro d hd rfl
    exact h hd
  have hset : c ∉ ['.', '*', '?', '{', '}', '|', ']'] := by
    intro hm
    apply h
    revert hm
    simp only [List.mem_cons, List.not_mem_nil, or_false, specials]
    rintro (rfl | rfl | rfl | rfl | rfl | rfl | rfl) <;> decide
  rw [scan, if_neg (hne '\\' (by decide)), if_neg (hne '[' (by decide)),
    if_neg (hne '^' (by decide)), if_neg (hne '$' (by decide)), if_neg (hne '(' (by decide)),
    if_neg (hne ')' (by decide)), if_neg (hne '+' (by decide)), if_neg hset]

theorem scan_escaped {c : Char} {s : Str} (h : c ∈ specials) :
    scan .normal ('\\' :: c :: s) = (scan .normal s).map (.atom (.char c) :: ·) := by
  have hall : specials.all (fun d => decide (d ≠ 's') && !d.isAlphanum) = true := by decide
  have hs : c ≠ 's' ∧ c.isAlphanum = false := by
    simpa using List.all_eq_true.mp hall c h
  rw [scan, if_pos rfl, scan, if_neg hs.1, hs.2]
  rfl

/-- An escaped segment stands for itself, whatever characters it has. -/
theorem scan_escape_segment (seg s : Str) :
    scan .normal (escape_segment seg ++ s) =
      (scan .normal s).map (seg.map (fun c => .atom (.char c)) ++ ·) := by
  induction seg with
  | nil => simp [escape_segment]
  | cons c seg ih =>
    have happ : escape_segment (c :: seg) ++ s =
        (if c ∈ specials then ['\\', c] else [c]) ++ (escape_segment seg ++ s) := by
      simp [escape_segment]
    rw [happ]
    by_cases hc : c ∈ specials
    · rw [if_pos hc, List.cons_append, List.cons_append, List.nil_append, scan_escaped hc, ih]
      cases scan .normal s <;> rfl
    · rw [if_neg hc, List.cons_append, List.nil_append, scan_char hc, ih]
      cases scan .normal s <;> rfl

theorem scan_paramPattern (s : Str) :
    scan .normal (['(', '[', '^', '/', ']', '+', ')'] ++ s) = (scan .normal s).map
      ([.opens, .atom (.set true [.single '/']), .plus, .closes] ++ ·) := by
  simp only [List.cons_append, List.nil_append, scan, Char.reduceEq, if_false, if_true,
    List.getLast?_nil]
  cases scan .normal s <;> simp

theorem build_word (st : List (ℕ × List Regex)) (cur : List Regex) (n : ℕ) (w : Str)
    (ts : List Token) :
    build st cur n (w.map (fun c => .atom (.char c)) ++ ts) =
      build st ((w.map Regex.char).reverse ++ cur) n ts := by
  induction w generalizing cur with
  | nil => rfl
  | cons c w ih =>
    rw [List.map_cons, List.cons_append, build, ih]
    simp

/-- Scanning and building the pattern of the segments. -/
theorem build_segments (segs : List Str) (n : ℕ) (cur : List Regex) (s : Str) (ts : List Token)
    (hs : scan .normal s = some ts) :
    (scan .normal (segs.flatMap segmentPattern ++ s)).bind (build [] cur n) =
      build [] ((routeItems n segs).reverse ++ cur) (n + (segs.filter isParam).length) ts := by
  induction segs generalizing n cur with
  | nil => simp [hs, routeItems]
  | cons seg segs ih =>
    have hslash : '/' ∉ specials := by decide
    by_cases hp : isParam seg = true
    · have hpat : (seg :: segs).flatMap segmentPattern ++ s =
          '/' :: (['(', '[', '^', '/', ']', '+', ')'] ++ (segs.flatMap segmentPattern ++ s)) := by
        simp [segmentPattern, hp]
      rw [hpat, scan_char hslash, scan_paramPattern]
      have := ih (n + 1) (paramGroup n :: .char '/' :: cur)
      rw [routeItems, if_pos hp, List.filter_cons_of_pos hp]
      simp only [Option.map_map, Option.bind_map, Function.comp_def, List.cons_append,
        List.nil_append, build, List.reverse_cons, List.reverse_nil, List.append_assoc,
        List.length_cons] at this ⊢
      rw [← Nat.add_assoc, Nat.add_right_comm]
      exact this
    · have hpat : (seg :: segs).flatMap segmentPattern ++ s =
          '/' :: (escape_segment seg ++ (segs.flatMap segmentPattern ++ s)) := by
        simp [segmentPattern, hp]
      rw [hpat, scan_char hslash, scan_escape_segment]
      have := ih n ((seg.map Regex.char).reverse ++ .char '/' :: cur)
      rw [routeItems, if_neg hp, List.filter_cons_of_neg hp]
      simp only [Option.map_map, Option.bind_map, Function.comp_def, build, build_word,
        List.reverse_cons, List.reverse_append, List.append_assoc, List.cons_append,
        List.nil_append] at this ⊢
      exact this

/-- The pattern of every template is well formed. -/
theorem parse_route (tmpl : Str) :
    parse (compileRoute tmpl).regex =
      some (seqs (.bol :: (routeItems 1 (segments tmpl) ++ [.eol]))) := by
  have hend : scan .normal ['$'] = some [.atom .eol] := rfl
  have h := build_segments (segments tmpl) 1 [.bol] ['$'] _ hend
  have hbol : scan .normal (compileRoute tmpl).regex =
      (scan .normal ((segments tmpl).flatMap segmentPattern ++ ['$'])).map (.atom .bol :: ·) := by
    simp only [compileRoute, scan]
    rfl
  rw [parse, hbol, Option.bind_map]
  have hbuild : (build [] [] 1 ∘ fun ts => Token.atom .bol :: ts) = build [] [.bol] 1 := by
    funext ts
    rfl
  rw [hbuild, h]
  simp [build]

/-! ### Matching the pattern -/

theorem inSet_slash (c : Char) : inSet true [.single '/'] c = true ↔ c ≠ '/' := by
  simp [inSet, ClassItem.mem]

/-- The items of the segments consume one piece each. -/
theorem moves_routeItems {segs : List Str} {n : ℕ} {p q : Pos}
    (h : Moves (seqs (routeItems n segs)) p q) :
    ∃ pieces, List.Forall₂ Instantiates segs pieces ∧ p.rest = joined pieces ++ q.rest := by
  induction segs generalizing n p with
  | nil =>
    cases h
    exact ⟨[], .nil, rfl⟩
  | cons seg segs ih =>
    by_cases hp : isParam seg = true
    · rw [routeItems, if_pos hp] at h
      obtain ⟨m, hslash, h⟩ := moves_seqs_cons.mp h
      obtain ⟨m', hgroup, h⟩ := moves_seqs_cons.mp h
      obtain ⟨pieces, hall, hrest⟩ := ih h
      cases hslash
      cases hgroup with
      | group body =>
        obtain ⟨m'', hplus, hnil⟩ := moves_seqs_cons.mp body
        cases hnil
        obtain ⟨w, hne, hw, hword⟩ := moves_plus_set hplus
        refine ⟨w :: pieces, .cons ?_ hall, ?_⟩
        · rw [Instantiates, if_pos hp]
          exact ⟨hne, fun hm => (inSet_slash _).mp (hw _ hm) rfl⟩
        · simp only [joined_cons, List.cons_append, List.append_assoc]
          rw [← hrest, ← hword]
    · rw [routeItems, if_neg hp] at h
      obtain ⟨m, hslash, h⟩ := moves_seqs_cons.mp h
      obtain ⟨m', hword, h⟩ := moves_seqs_append.mp h
      obtain ⟨pieces, hall, hrest⟩ := ih h
      cases hslash
      refine ⟨seg :: pieces, .cons ?_ hall, ?_⟩
      · rw [Instantiates, if_neg hp]
      · simp only [joined_cons, List.cons_append, List.append_assoc]
        rw [← hrest, ← moves_word hword]

/-- A path that the pattern matches instantiates the segments in order. -/
theorem pieces_of_match {tmpl path : Str} {captures : Captures}
    (h : regex_match path (compileRoute tmpl).regex = some captures) :
    ∃ pieces, List.Forall₂ Instantiates (segments tmpl) pieces ∧ path = joined pieces := by
  rw [regex_match, parse_route, Option.bind_some] at h
  obtain ⟨b, hm⟩ := fullMatch_isSome.mp (Option.isSome_iff_exists.mpr ⟨captures, h⟩)
  obtain ⟨m, hbol, hm⟩ := moves_seqs_cons.mp hm
  obtain ⟨m', hitems, heol⟩ := moves_seqs_append.mp hm
  obtain ⟨m'', heol, hnil⟩ := moves_seqs_cons.mp heol
  cases hbol
  cases hnil
  cases heol
  obtain ⟨pieces, hall, hrest⟩ := moves_routeItems hitems
  exact ⟨pieces, hall, by simpa using hrest⟩

end AdequateApi.RouterModel
