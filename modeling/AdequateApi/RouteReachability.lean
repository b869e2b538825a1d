import AdequateApi.RouteMatching
import AdequateApi.RouterDecision
import AdequateApi.RouterMiddleware
import Mathlib.Data.List.Forall2

/-! Which registered routes can be reached. The table is searched in the order in which its
templates were first registered, and the method is looked at only after that. -/
namespace AdequateApi.RouterModel
open StdString HttpMessages RegexPattern Regex

/-- The path is the text of the template with a text in place of each parameter. -/
def TextOf (tmpl path : Str) : Prop :=
  ∃ pieces, List.Forall₂ Instantiates (tmpl.splitOn '/') pieces ∧ path = ['/'].intercalate pieces

def Registration.template : Registration → Option Str
  | .add _ path _ _ => some path
  | _ => none

/-- The templates in the order of the calls of `add`. -/
def templates (ops : List Registration) : List Str := ops.filterMap Registration.template

def Registered (ops : List Registration) (method : Verb) (tmpl : Str) : Prop :=
  ∃ fn types, .add method tmpl fn types ∈ ops

/-- The first of these templates whose segments fit the path. -/
def FirstFit (tmpls : List Str) (path tmpl : Str) : Prop :=
  ∃ before after, tmpls = before ++ tmpl :: after ∧ (∃ pieces, Fits tmpl path pieces) ∧
    ∀ t ∈ before, ¬ ∃ pieces, Fits t path pieces

/-- `dispatch` selects a handler registered for the method under a template that the path is
a text of. -/
def Selects (ops : List Registration) (request : Request) : Prop :=
  ∃ entry params fn, (Router.build ops).decision request.method (normalizeTarget request) =
      .handled entry params fn ∧
    (∃ types, .add request.method entry.original fn types ∈ ops) ∧
    TextOf entry.original (normalizeTarget request)

/-! ### Texts of a template -/

theorem count_joined {pieces : List Str} (h : ∀ piece ∈ pieces, '/' ∉ piece) :
    (joined pieces).count '/' = pieces.length := by
  induction pieces with
  | nil => rfl
  | cons piece pieces ih =>
    have hpiece : piece.count '/' = 0 := List.count_eq_zero.mpr (h piece List.mem_cons_self)
    have hrest := ih fun p hp => h p (List.mem_cons_of_mem _ hp)
    simp only [joined_cons, List.count_cons_self, List.count_append, hpiece, hrest,
      List.length_cons]
    omega

theorem instantiates_nil {piece : Str} : Instantiates [] piece ↔ piece = [] := by
  simp [Instantiates, isParam]

theorem pieces_ne_nil {rest : Str} {pieces : List Str}
    (h : List.Forall₂ Instantiates (rest.splitOn '/') pieces) : pieces ≠ [] := by
  rintro rfl
  exact List.splitOn_ne_nil _ _ (List.forall₂_nil_right_iff.mp h)

/-- A text of a template that begins with a slash has a piece for each part after it. -/
theorem textOf_rooted {rest path : Str} (h : TextOf ('/' :: rest) path) :
    ∃ pieces, List.Forall₂ Instantiates (rest.splitOn '/') pieces ∧ path = joined pieces := by
  obtain ⟨all, hall, rfl⟩ := h
  rw [splitOn_slash_cons] at hall
  cases hall with
  | @cons _ piece _ pieces hfirst hrest =>
    obtain rfl := instantiates_nil.mp hfirst
    have hne := pieces_ne_nil hrest
    refine ⟨pieces, hrest, ?_⟩
    rw [joined_eq_intercalate hne, List.intercalate_cons_of_ne_nil hne]
    rfl

/-- The search drops the empty parts of a template, a text keeps them: a path that is both
has as many slashes as the template only when there are none. -/
theorem canonical_of_textOf {tmpl path : Str} {pieces : List Str} (hroot : tmpl.head? = some '/')
    (ht : TextOf tmpl path) (hf : Fits tmpl path pieces) : Canonical tmpl := by
  obtain ⟨rest, rfl⟩ : ∃ rest, tmpl = '/' :: rest := List.head?_eq_some_iff.mp hroot
  obtain ⟨ps, hps, hpath⟩ := textOf_rooted ht
  have hslash := pieces_forall hps (fun _ hs => not_mem_of_mem_splitOn hs)
    fun _ _ hslash => hslash
  have hcount : (rest.splitOn '/').length = (segments ('/' :: rest)).length := by
    rw [hps.length_eq, hf.1.length_eq, ← count_joined hslash, ← hpath, hf.2,
      count_joined fun p hp => (hf.pieces_no_slash p hp).2]
  have hall : (rest.splitOn '/').filter (· ≠ []) = rest.splitOn '/' := by
    apply List.filter_sublist.eq_of_length
    rw [hcount, segments, splitOn_slash_cons, List.filter_cons_of_neg (by simp)]
  refine ⟨rest, rfl, fun hm => ?_⟩
  simpa using List.filter_eq_self.mp hall [] hm

theorem Canonical.textOf {tmpl path : Str} {pieces : List Str} (hc : Canonical tmpl)
    (hf : Fits tmpl path pieces) : TextOf tmpl path := by
  obtain ⟨rest, rfl, hne⟩ := hc
  obtain ⟨hall, rfl⟩ := hf
  rw [segments_rooted hne] at hall
  have hpieces := pieces_ne_nil hall
  refine ⟨[] :: pieces, ?_, ?_⟩
  · rw [splitOn_slash_cons]
    exact .cons (instantiates_nil.mpr rfl) hall
  · rw [joined_eq_intercalate hpieces, List.intercalate_cons_of_ne_nil hpieces]
    rfl

/-! ### The table as a map -/

/-- The handler of the first entry with this template. -/
def handlerOf (table : List RouteEntry) (tmpl : Str) (method : Verb) : Option RouteFn :=
  (table.find? fun e => e.original = tmpl).bind fun e => e.methods method

theorem handlerOf_addTo (table : List RouteEntry) (m method : Verb) (path tmpl : Str) (fn : RouteFn)
    (types : List Str) :
    handlerOf (Router.addTo m path fn types table) tmpl method =
      if path = tmpl ∧ method = m then some fn else handlerOf table tmpl method := by
  have hset : ∀ entry : RouteEntry, (Router.RouteEntry.set entry m fn types).methods method =
      if method = m then some fn else entry.methods method := by
    intro entry
    simp [Router.RouteEntry.set, Function.update_apply]
  induction table with
  | nil =>
    unfold Router.addTo handlerOf
    by_cases hp : path = tmpl
    · rw [List.find?_cons_of_pos (by simpa [Router.RouteEntry.set, compileRoute] using hp)]
      simp only [Option.bind_some, hset, hp, true_and, List.find?_nil, Option.bind_none]
      rfl
    · rw [List.find?_cons_of_neg (by simpa [Router.RouteEntry.set, compileRoute] using hp)]
      simp [hp]
  | cons entry table ih =>
    unfold Router.addTo
    by_cases he : entry.original = path
    · rw [if_pos he]
      unfold handlerOf
      by_cases hp : path = tmpl
      · rw [List.find?_cons_of_pos (by simp [Router.RouteEntry.set, he, hp]),
          List.find?_cons_of_pos (by simp [he, hp])]
        simp [hset, hp]
      · rw [List.find?_cons_of_neg (by simp [Router.RouteEntry.set, he, hp]),
          List.find?_cons_of_neg (by simp [he, hp])]
        simp [hp]
    · rw [if_neg he]
      unfold handlerOf at ih ⊢
      by_cases ht : entry.original = tmpl
      · rw [List.find?_cons_of_pos (by simpa using ht), List.find?_cons_of_pos (by simpa using ht)]
        have hne : path ≠ tmpl := fun h => he (ht.trans h.symm)
        simp [hne]
      · rw [List.find?_cons_of_neg (by simpa using ht), List.find?_cons_of_neg (by simpa using ht),
          ih]

/-- The handlers in the table are the registered ones. -/
theorem handlerOf_build (ops : List Registration) (tmpl : Str) (method : Verb) :
    (∀ fn, handlerOf (Router.build ops).table tmpl method = some fn →
      ∃ types, .add method tmpl fn types ∈ ops) ∧
    (Registered ops method tmpl → (handlerOf (Router.build ops).table tmpl method).isSome) := by
  induction ops using List.reverseRecOn with
  | nil =>
    constructor
    · intro fn h
      cases h
    · rintro ⟨fn, types, h⟩
      cases h
  | append_singleton ops op ih =>
    have hbuild : Router.build (ops ++ [op]) = op.apply (Router.build ops) := by
      simp [Router.build]
    have hold : ∀ {fn types}, .add method tmpl fn types ∈ ops →
        .add method tmpl fn types ∈ ops ++ [op] := List.mem_append_left _
    rw [hbuild]
    cases op with
    | add m path fn types =>
      have htable : ((Registration.add m path fn types).apply (Router.build ops)).table =
          Router.addTo m path fn types (Router.build ops).table := rfl
      rw [htable, handlerOf_addTo]
      by_cases hnew : path = tmpl ∧ method = m
      · obtain ⟨rfl, rfl⟩ := hnew
        rw [if_pos ⟨rfl, rfl⟩]
        refine ⟨fun f hf => ?_, fun _ => rfl⟩
        cases hf
        exact ⟨types, by simp⟩
      · rw [if_neg hnew]
        refine ⟨fun f hf => ?_, ?_⟩
        · obtain ⟨ts, hts⟩ := ih.1 f hf
          exact ⟨ts, hold hts⟩
        · rintro ⟨f, ts, hm⟩
          apply ih.2
          rcases List.mem_append.mp hm with hm | hm
          · exact ⟨f, ts, hm⟩
          · cases List.mem_singleton.mp hm
            exact absurd ⟨rfl, rfl⟩ hnew
    | use m =>
      refine ⟨fun f hf => ?_, ?_⟩
      · obtain ⟨ts, hts⟩ := ih.1 f hf
        exact ⟨ts, hold hts⟩
      · rintro ⟨f, ts, hm⟩
        exact ih.2 ⟨f, ts, by simpa using hm⟩
    | useAt pathPrefix m =>
      refine ⟨fun f hf => ?_, ?_⟩
      · obtain ⟨ts, hts⟩ := ih.1 f hf
        exact ⟨ts, hold hts⟩
      · rintro ⟨f, ts, hm⟩
        exact ih.2 ⟨f, ts, by simpa using hm⟩

/-! ### The search -/

theorem find_addTo (q : Str → Bool) (table : List RouteEntry) (method : Verb) (path : Str)
    (fn : RouteFn) (types : List Str) :
    ((Router.addTo method path fn types table).map RouteEntry.original).find? q =
      (table.map RouteEntry.original ++ [path]).find? q := by
  induction table with
  | nil => rfl
  | cons entry table ih =>
    unfold Router.addTo
    split
    · rename_i he
      have hset : (Router.RouteEntry.set entry method fn types).original = entry.original := rfl
      simp only [List.map_cons, List.cons_append, List.find?_cons, hset]
      cases hq : q entry.original with
      | true => rfl
      | false =>
        rw [he] at hq
        simp [List.find?_append, hq]
    · simp only [List.map_cons, List.cons_append, List.find?_cons, ih]

/-- Searching the table is searching the calls of `add`. -/
theorem find_build (q : Str → Bool) (ops : List Registration) :
    ((Router.build ops).table.map RouteEntry.original).find? q = (templates ops).find? q := by
  induction ops using List.reverseRecOn with
  | nil => rfl
  | append_singleton ops op ih =>
    have hbuild : Router.build (ops ++ [op]) = op.apply (Router.build ops) := by
      simp [Router.build]
    rw [hbuild]
    cases op with
    | add method path fn types =>
      have htable : ((Registration.add method path fn types).apply (Router.build ops)).table =
          Router.addTo method path fn types (Router.build ops).table := rfl
      rw [htable, find_addTo, List.find?_append, ih, ← List.find?_append]
      simp [templates, Registration.template]
    | use m =>
      have hsame : templates (ops ++ [.use m]) = templates ops := by
        simp [templates, Registration.template]
      rw [hsame, ← ih]
      rfl
    | useAt pathPrefix m =>
      have hsame : templates (ops ++ [.useAt pathPrefix m]) = templates ops := by
        simp [templates, Registration.template]
      rw [hsame, ← ih]
      rfl

theorem matchRoute_original {r : Router} (hc : Compiled r) (path : Str) :
    (r.matchRoute path).map (fun found => found.1.original) =
      (r.table.map RouteEntry.original).find? fun tmpl =>
        (regex_match path (compileRoute tmpl).regex).isSome := by
  unfold Router.matchRoute
  obtain ⟨table, _, _⟩ := r
  unfold Compiled at hc
  dsimp only at hc ⊢
  induction table with
  | nil => rfl
  | cons entry table ih =>
    have hentry := hc entry List.mem_cons_self
    have hrest := ih fun e he => hc e (List.mem_cons_of_mem _ he)
    rw [List.findSome?_cons, List.map_cons, List.find?_cons, ← hrest, hentry]
    cases regex_match path (compileRoute entry.original).regex with
    | none => rfl
    | some captures => rfl

/-- The entry found is the first one with its template. -/
theorem find_matchRoute {r : Router} (hc : Compiled r) {path : Str} {entry : RouteEntry}
    {params : Dict Str} (h : r.matchRoute path = some (entry, params)) :
    r.table.find? (fun e => e.original = entry.original) = some entry := by
  unfold Router.matchRoute at h
  obtain ⟨table, _, _⟩ := r
  unfold Compiled at hc
  dsimp only at hc h ⊢
  induction table with
  | nil => cases h
  | cons e table ih =>
    rw [List.findSome?_cons] at h
    cases hm : regex_match path e.regex with
    | some captures =>
      rw [hm] at h
      obtain ⟨rfl, _⟩ := Prod.mk.inj (Option.some.inj h)
      exact List.find?_cons_of_pos (by simp)
    | none =>
      rw [hm] at h
      obtain ⟨e', he', hfound⟩ := List.exists_of_findSome?_eq_some h
      obtain ⟨captures, hcap, heq⟩ := Option.map_eq_some_iff.mp hfound
      obtain ⟨rfl, _⟩ := Prod.mk.inj heq
      have hne : e.original ≠ e'.original := by
        intro hsame
        rw [hc e List.mem_cons_self, hsame, ← hc e' (List.mem_cons_of_mem _ he'), hcap] at hm
        cases hm
      rw [List.find?_cons_of_neg (by simpa using hne)]
      exact ih (fun x hx => hc x (List.mem_cons_of_mem _ hx)) h

theorem firstFit_iff (tmpls : List Str) (path tmpl : Str) :
    FirstFit tmpls path tmpl ↔
      tmpls.find? (fun t => (regex_match path (compileRoute t).regex).isSome) = some tmpl := by
  have hfits : ∀ t, (∃ pieces, Fits t path pieces) ↔
      (regex_match path (compileRoute t).regex).isSome = true := by
    refine fun t => ⟨fun ⟨_, h⟩ => match_of_fits h, fun h => ?_⟩
    obtain ⟨captures, hc⟩ := Option.isSome_iff_exists.mp h
    obtain ⟨pieces, hp, _⟩ := captures_of_match hc
    exact ⟨pieces, hp⟩
  rw [List.find?_eq_some_iff_append]
  unfold FirstFit
  constructor
  · rintro ⟨before, after, rfl, hfit, hnone⟩
    refine ⟨(hfits tmpl).mp hfit, before, after, rfl, fun t ht => ?_⟩
    have := mt (hfits t).mpr (hnone t ht)
    simpa using this
  · rintro ⟨hfit, before, after, rfl, hnone⟩
    refine ⟨before, after, rfl, (hfits tmpl).mpr hfit, fun t ht h => ?_⟩
    have := hnone t ht
    rw [(hfits t).mp h] at this
    cases this

theorem firstFit_build (ops : List Registration) (path tmpl : Str) :
    FirstFit (templates ops) path tmpl ↔
      ∃ entry params, (Router.build ops).matchRoute path = some (entry, params) ∧
        entry.original = tmpl := by
  rw [firstFit_iff, ← find_build, ← matchRoute_original (compiled_build ops),
    Option.map_eq_some_iff]
  constructor
  · rintro ⟨⟨entry, params⟩, h, rfl⟩
    exact ⟨entry, params, h, rfl⟩
  · rintro ⟨entry, params, h, rfl⟩
    exact ⟨(entry, params), h, rfl⟩

/-! ### Reaching a registered route -/

/-- A request, also one on a text of a registered template, reaches a handler of its method
exactly when the first registered template that fits has no empty segment and is registered for
the method itself. -/
theorem registered_reachable_iff (ops : List Registration)
    (hroot : ∀ tmpl ∈ templates ops, tmpl.head? = some '/') (request : Request) :
    Selects ops request ↔
      ∃ first, FirstFit (templates ops) (normalizeTarget request) first ∧ Canonical first ∧
        Registered ops request.method first := by
  constructor
  · rintro ⟨entry, params, fn, hd, ⟨types, hadd⟩, htext⟩
    have hm := (decision_handled_iff.mp hd).1
    have hfirst := (firstFit_build ops _ _).mpr ⟨entry, params, hm, rfl⟩
    obtain ⟨before, after, hops, ⟨pieces, hfits⟩, hnone⟩ := hfirst
    have hrooted := hroot entry.original (by rw [hops]; simp)
    exact ⟨entry.original, ⟨before, after, hops, ⟨pieces, hfits⟩, hnone⟩,
      canonical_of_textOf hrooted htext hfits, fn, types, hadd⟩
  · rintro ⟨first, hfirst, hcanonical, hreg⟩
    obtain ⟨entry, params, hm, rfl⟩ := (firstFit_build ops _ _).mp hfirst
    obtain ⟨before, after, hops, ⟨pieces, hfits⟩, hnone⟩ := hfirst
    have hhandler := (handlerOf_build ops entry.original request.method).2 hreg
    obtain ⟨fn, hfn⟩ := Option.isSome_iff_exists.mp hhandler
    have hadd := (handlerOf_build ops entry.original request.method).1 fn hfn
    rw [handlerOf, find_matchRoute (compiled_build ops) hm, Option.bind_some] at hfn
    exact ⟨entry, params, fn, decision_handled_iff.mpr ⟨hm, hfn⟩, hadd, hcanonical.textOf hfits⟩

theorem registered_reachable_iff_users : Selects usersRouter usersRequest := by
  have hpath : normalizeTarget usersRequest = "/users/7".toList := by decide
  have hreg : Registered usersRouter .get "/users/{id}".toList :=
    ⟨_, _, .tail _ (.tail _ (.head _))⟩
  have hc : Canonical "/users/{id}".toList := ⟨"users/{id}".toList, rfl, by decide⟩
  have hfits : Fits "/users/{id}".toList "/users/7".toList ["users".toList, "7".toList] :=
    ⟨.cons (by decide) (.cons (by decide) .nil), by decide⟩
  apply (registered_reachable_iff usersRouter (by decide) usersRequest).mpr
  refine ⟨_, ⟨[], [], rfl, ⟨_, hpath ▸ hfits⟩, ?_⟩, hc, hreg⟩
  simp

/-- A router for the root alone. -/
def rootRouter : List Registration := [.add .get ['/'] (fun r => (r, .error .other)) []]

def rootRequest : Request := ⟨.get, ['/'], 11, true, [], [], none, [], none⟩

/-- The pattern of `/` is `^$`, which the path `/` does not match. -/
theorem root_unreachable :
    (∀ tmpl ∈ templates rootRouter, tmpl.head? = some '/') ∧ Registered rootRouter .get ['/'] ∧
    TextOf ['/'] (normalizeTarget rootRequest) ∧ ¬ Selects rootRouter rootRequest ∧
    (Router.build rootRouter).decision .get (normalizeTarget rootRequest) = .notFound := by
  have hreg : Registered rootRouter .get ['/'] := ⟨_, _, .head _⟩
  have hpath : normalizeTarget rootRequest = ['/'] := by decide
  have hnone : (Router.build rootRouter).matchRoute ['/'] = none := by
    have : ((Router.build rootRouter).matchRoute ['/']).isNone = true := by decide
    simpa using this
  have hdecision : (Router.build rootRouter).decision .get ['/'] = .notFound := by
    rw [Router.decision, hnone]
  rw [hpath]
  refine ⟨by decide, hreg, ⟨[[], []], ?_, rfl⟩, ?_, hdecision⟩
  · exact .cons (by decide) (.cons (by decide) .nil)
  · rintro ⟨entry, params, fn, hd, _⟩
    rw [hpath] at hd
    rw [show rootRequest.method = Verb.get from rfl, hdecision] at hd
    cases hd

end AdequateApi.RouterModel
