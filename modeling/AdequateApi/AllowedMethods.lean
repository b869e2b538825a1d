import AdequateApi.AnswerKinds

/-! What the `Allow` header of an answer says: which methods the router will not answer with 405
at this path, in every later request. -/
namespace AdequateApi.AllowedMethods
open StdString HttpMessages RouterModel AccountStore AccountServices AccountCreation
  ApplicationRoutes ServerErrors ApplicationDispatch AccountAccess ServerStep AnswerKinds

/-! ### Reading the header -/

/-- The methods that the header can name. -/
def verbs : List (Verb × Str) :=
  [(.get, "GET".toList), (.head, "HEAD".toList), (.post, "POST".toList), (.put, "PUT".toList),
    (.patch, "PATCH".toList), (.delete_, "DELETE".toList), (.options, "OPTIONS".toList)]

/-- The names in a header, blanks aside. -/
def named (text : Str) : List Str := (text.filter (· ≠ ' ')).splitOn ','

theorem filter_intercalate (p : Char → Bool) (sep : Str) (names : List Str) :
    (sep.intercalate names).filter p = (sep.filter p).intercalate (names.map (List.filter p)) := by
  induction names with
  | nil => rfl
  | cons name rest ih =>
    cases rest with
    | nil => simp
    | cons next rest =>
      rw [List.intercalate_cons_cons, List.filter_append, List.filter_append, ih]
      exact List.intercalate_cons_cons.symm

theorem named_intercalate {names : List Str} (hne : names ≠ [])
    (hplain : ∀ name ∈ names, ' ' ∉ name ∧ ',' ∉ name) :
    named (", ".toList.intercalate names) = names := by
  have hsame : names.map (List.filter (· ≠ ' ')) = names := by
    refine (List.map_congr_left fun name hname => ?_).trans (List.map_id names)
    refine List.filter_eq_self.mpr fun c hc => ?_
    have hblank : c ≠ ' ' := fun h => (hplain name hname).1 (h ▸ hc)
    simpa using hblank
  unfold named
  rw [filter_intercalate, hsame]
  exact List.splitOn_intercalate ',' (fun name hname => (hplain name hname).2) hne

/-- The names that a header of the router has are those of the methods with a handler. -/
theorem named_iff {mm : Verb → Option RouteFn} {v : Verb} {name : Str} (hv : (v, name) ∈ verbs) :
    name ∈ named (buildAllowHeader mm) ↔ (mm v).isSome := by
  have hplain : ∀ x ∈ verbs, (' ' ∉ x.2 ∧ ',' ∉ x.2) ∧ x.2 ≠ [] := by decide
  have hverb : ∀ x ∈ verbs, ∀ y ∈ verbs, x.2 = y.2 → x.1 = y.1 := by decide
  have htext : buildAllowHeader mm =
      ", ".toList.intercalate ((verbs.filter fun x => (mm x.1).isSome).map Prod.snd) := rfl
  have hmem : name ∈ (verbs.filter fun x => (mm x.1).isSome).map Prod.snd ↔ (mm v).isSome := by
    simp only [List.mem_map, List.mem_filter]
    constructor
    · rintro ⟨x, ⟨hx, hsome⟩, hname⟩
      have hsame : x.1 = v := hverb x hx _ hv hname
      rwa [← hsame]
    · exact fun hsome => ⟨_, ⟨hv, hsome⟩, rfl⟩
  rw [← hmem, htext]
  by_cases hne : (verbs.filter fun x => (mm x.1).isSome).map Prod.snd = []
  · rw [hne]
    -- an empty header is read as one empty name
    have hempty : named (", ".toList.intercalate []) = [[]] := by decide
    rw [hempty, List.mem_singleton]
    exact ⟨fun h => absurd h (hplain _ hv).2, fun h => absurd h List.not_mem_nil⟩
  · rw [named_intercalate hne fun n hn => ?_]
    obtain ⟨x, hx, rfl⟩ := List.mem_map.mp hn
    exact (hplain x (List.mem_of_mem_filter hx)).1

/-- The header has the method. Of a method other than these seven it never speaks. -/
def Lists (text : Str) (v : Verb) : Prop := ∃ name, (v, name) ∈ verbs ∧ name ∈ named text

theorem lists_iff {mm : Verb → Option RouteFn} {v : Verb} :
    Lists (buildAllowHeader mm) v ↔ (∃ name, (v, name) ∈ verbs) ∧ (mm v).isSome := by
  constructor
  · rintro ⟨name, hv, hname⟩
    exact ⟨⟨name, hv⟩, (named_iff hv).mp hname⟩
  · rintro ⟨⟨name, hv⟩, hsome⟩
    exact ⟨name, hv, (named_iff hv).mpr hsome⟩

/-! ### The entry at a path -/

/-- Entries for the same paths that have handlers for the same methods. -/
structure Alike (entry entry' : RouteEntry) : Prop where
  regex : entry.regex = entry'.regex
  paramNames : entry.paramNames = entry'.paramNames
  methods : ∀ v, (entry.methods v).isSome = (entry'.methods v).isSome

theorem Alike.set {entry entry' : RouteEntry} (h : Alike entry entry') (method : Verb)
    (fn fn' : RouteFn) (types : List Str) :
    Alike (Router.RouteEntry.set entry method fn types)
      (Router.RouteEntry.set entry' method fn' types) := by
  refine ⟨h.regex, h.paramNames, fun v => ?_⟩
  by_cases hv : v = method
  · rw [hv, methods_set, methods_set]
    rfl
  · rw [methods_set_ne _ _ _ hv, methods_set_ne _ _ _ hv]
    exact h.methods v

/-- Tables of alike entries have alike entries at a path. -/
theorem matchRoute_alike {r r' : Router} (h : List.Forall₂ Alike r.table r'.table) {path : Str}
    {entry : RouteEntry} {params : Dict Str} (hm : r.matchRoute path = some (entry, params)) :
    ∃ entry', r'.matchRoute path = some (entry', params) ∧ Alike entry entry' := by
  unfold Router.matchRoute at hm ⊢
  generalize r.table = table at h hm
  generalize r'.table = table' at h ⊢
  induction h with
  | nil => cases hm
  | @cons e e' rest rest' halike hrest ih =>
    rw [List.findSome?_cons] at hm ⊢
    rw [← halike.regex]
    cases hc : regex_match path e.regex with
    | none =>
      rw [hc] at hm
      exact ih hm
    | some captures =>
      rw [hc] at hm
      cases hm
      exact ⟨e', by rw [halike.paramNames]; rfl, halike⟩

theorem router_alike (h h' : Handlers) : List.Forall₂ Alike (router h).table (router h').table := by
  have hnew : ∀ tmpl, Alike (compileRoute tmpl) (compileRoute tmpl) :=
    fun _ => ⟨rfl, rfl, fun _ => rfl⟩
  rw [router_table, router_table]
  exact .cons ((hnew _).set _ _ _ _) (.cons ((hnew _).set _ _ _ _) (.cons ((hnew _).set _ _ _ _)
    (.cons (((hnew _).set _ _ _ _).set _ _ _ _) (.cons (((hnew _).set _ _ _ _).set _ _ _ _)
      (.cons ((hnew _).set _ _ _ _) .nil)))))

/-! ### The header of an answer -/

section answers
variable {app : Application} {st : Store app} {e : Surroundings} {request r : Request}
  {response : Response} {lib : Library} {mm : Verb → Option RouteFn}

theorem render_allow {status : ℕ} {body : Json} {keepAlive : Bool} {indent : ℤ}
    (h : JsonRenderer.render lib r status body keepAlive (allowHeader mm) indent = .ok response) :
    response.headers.find "Allow".toList = some (buildAllowHeader mm) := by
  have hallow : (allowHeader mm).find "Allow".toList = some (buildAllowHeader mm) :=
    Dict.find_set_self _ _ _
  have hset : ∀ (m : Dict Str) (k v : Str), "Allow".toList ≠ k →
      (m.set k v).find "Allow".toList = m.find "Allow".toList :=
    fun m k v hk => Dict.find_set_ne m v hk
  unfold JsonRenderer.render at h
  split at h
  · cases h
  · dsimp only at h
    split at h
    · cases h
      rw [find_filter_ne (by decide), hset _ _ _ (by decide), hset _ _ _ (by decide),
        hset _ _ _ (by decide)]
      exact hallow
    · unfold Response.prepare_payload at h
      split at h
      · cases h
      · cases h
        dsimp only
        rw [hset _ _ _ (by decide), hset _ _ _ (by decide), hset _ _ _ (by decide)]
        exact hallow

/-- An error or a list of methods is an answer already. -/
theorem rendered_response {x : Except Exn Response}
    (h : (x.map Outcome.response).bind (render lib r) = .ok response) : x = .ok response := by
  cases x with
  | error e => cases h
  | ok rendered =>
    cases h
    rfl

/-- A method that nothing serves is answered 405. -/
theorem step_unserved {entry : RouteEntry} {params : Dict Str}
    (hm : (router (st.world e).handlers).matchRoute (normalizeTarget request) =
      some (entry, params)) (hu : Unserved entry.methods request.method)
    (h : (st.step e request).2 = .ok response) : response.status = 405 := by
  have hq := quiet_application (h := (st.world e).handlers) (s := st.accounts) (m := e.moment) rfl
    (normalizeTarget request)
  obtain ⟨hnone, hoptions, hhead⟩ := hu
  have hdecision : (router (st.world e).handlers).decision request.method
      (normalizeTarget request) = .notAllowed entry params := by
    unfold Router.decision
    rw [hm]
    dsimp only
    rw [hnone]
    dsimp only
    split
    · rename_i fn hmethod hget
      rw [hhead hmethod] at hget
      cases hget
    · rename_i hmethod
      exact absurd hmethod hoptions
    · rfl
  change (dispatch app.lib app.env (router (st.world e).handlers) request).result = _ at h
  rw [dispatch_decision, hdecision] at h
  change (finish app.lib _ _ (make405 app.lib _ entry.methods)).result = _ at h
  rw [hq.finish] at h
  have hclosing : Kind request response ∧ Framed response ∧ response.status = 405 :=
    makeError_closing (by decide) h
  exact hclosing.2.2

/-- The answers of handlers and of the middleware name no methods. -/
theorem replied_status {s : Accounts app.db} {m : Moment} {path tmpl : Str} {method : Verb}
    {fn : RouteFn} {event : Option Event}
    (h : Replied app s m path r tmpl method fn response event) :
    response.status ∉ [405, 413, 415] := by
  cases h with
  | refused text hrendered =>
    rw [(rendered_unauthorized hrendered).1]
    decide
  | handled id o ho hhandled hrendered passed =>
    have hmem := statusesOf_subset tmpl method (rendered_handled hhandled hrendered).1
    simp only [List.mem_cons, List.not_mem_nil, or_false] at hmem ⊢
    omega

theorem serves_not_options {h : Handlers} {tmpl : Str} {v : Verb} {fn : RouteFn}
    {types : List Str} (hserves : Serves h tmpl v fn types) : v ≠ .options := by
  cases hserves <;> decide

/-- An answer that lists methods: 405, 413 and 415, and 200 to OPTIONS. -/
def Listing (request : Request) (response : Response) : Prop :=
  response.status ∈ [405, 413, 415] ∨ request.method = .options ∧ response.status = 200

theorem listing_entry (h : (st.step e request).2 = .ok response)
    (hlisting : Listing request response) :
    ∃ entry params, (router (st.world e).handlers).matchRoute (normalizeTarget request) =
        some (entry, params) ∧
      response.headers.find "Allow".toList = some (buildAllowHeader entry.methods) ∧
      (response.status = 405 → Unserved entry.methods request.method) := by
  obtain ⟨event, _, hreply⟩ := step_reply h
  cases hreply with
  | refused r status message headers why hrendered =>
    have hclosing : Kind request response ∧ Framed response ∧ response.status = status :=
      makeError_closing (List.mem_of_mem_dropLast why.among) hrendered
    have hamong := why.among
    rw [← hclosing.2.2] at hamong
    have hlists : status ∈ [405, 413, 415] := by
      rw [← hclosing.2.2]
      rcases hlisting with hs | ⟨_, h200⟩
      · exact hs
      · rw [h200] at hamong
        exact absurd hamong (by decide)
    obtain ⟨entry, params, hm, rfl, hunserved⟩ := why.allow hlists
    exact ⟨entry, params, hm, render_allow (rendered_response hrendered),
      fun h405 => hunserved (hclosing.2.2.symm.trans h405)⟩
  | failed r message event hrendered =>
    have hclosing : Kind request response ∧ Framed response ∧ response.status = 500 :=
      makeError_closing (by decide) hrendered
    rcases hlisting with hs | ⟨_, h200⟩
    · rw [hclosing.2.2] at hs
      exact absurd hs (by decide)
    · rw [hclosing.2.2] at h200
      cases h200
  | @options r entry params matched method hrendered =>
    refine ⟨entry, params, matched, render_allow (rendered_response hrendered), fun h405 => ?_⟩
    obtain ⟨_, _, h200⟩ := makeOptions_keeping method hrendered
    rw [h200] at h405
    cases h405
  | handled matched serves replied =>
    rcases hlisting with hs | ⟨hmethod, _⟩
    · exact absurd hs (replied_status replied)
    · exact absurd hmethod (serves_not_options serves)
  | @head entry params fn types event method serves full replied emptied =>
    have hsame : response.status = full.status := by rw [emptied]
    rcases hlisting with hs | ⟨hmethod, _⟩
    · rw [hsame] at hs
      exact absurd hs (replied_status replied)
    · rw [hmethod] at method
      cases method

/-- Alike entries leave the same methods unserved. -/
theorem Alike.unserved {entry entry' : RouteEntry} (h : Alike entry entry') (v : Verb) :
    Unserved entry'.methods v ↔ (entry.methods v).isSome = false ∧ v ≠ .options ∧
      (v = .head → (entry.methods .get).isSome = false) := by
  unfold Unserved
  rw [h.methods v, h.methods .get]
  simp only [Option.isSome_eq_false_iff, Option.isNone_iff_eq_none]

/-- The application serves only methods that the header can name. -/
theorem served_verb {h : Handlers} {path : Str} {entry : RouteEntry} {params : Dict Str} {v : Verb}
    (hm : (router h).matchRoute path = some (entry, params)) (hsome : (entry.methods v).isSome) :
    ∃ name, (v, name) ∈ verbs := by
  obtain ⟨fn, hfn⟩ := Option.isSome_iff_exists.mp hsome
  have hserves := serves_of_selects (selects_of_match hm) hfn
  generalize entry.original = tmpl at hserves
  generalize (entry.allowedContentTypes v).getD [] = types at hserves
  cases hserves <;> simp [verbs]

/-- What an answer with a list of methods says holds of every later answer at the same path: 405
goes to the methods that the list does not have, other than OPTIONS, and HEAD where it has GET. -/
theorem allow_predicts_405 (st : Store app) (e : Surroundings) (request : Request)
    {response : Response} (h : (st.step e request).2 = .ok response)
    (hlisting : Listing request response) :
    ∃ text, response.headers.find "Allow".toList = some text ∧
      ∀ (st' : Store app) (e' : Surroundings) (request' : Request) (response' : Response),
        (st'.step e' request').2 = .ok response' →
        normalizeTarget request' = normalizeTarget request →
        (response'.status = 405 ↔ ¬ Lists text request'.method ∧ request'.method ≠ .options ∧
          (request'.method = .head → ¬ Lists text .get)) := by
  obtain ⟨entry, params, hm, hallow, _⟩ := listing_entry h hlisting
  refine ⟨_, hallow, fun st' e' request' response' h' hpath => ?_⟩
  have hlists : ∀ v, ¬ Lists (buildAllowHeader entry.methods) v ↔
      (entry.methods v).isSome = false := fun v => by
    rw [lists_iff, and_iff_right_of_imp (served_verb hm), Bool.not_eq_true]
  rw [hlists, hlists]
  obtain ⟨entry', hm', halike⟩ :=
    matchRoute_alike (router_alike (st.world e).handlers (st'.world e').handlers) hm
  rw [← hpath] at hm'
  rw [← halike.unserved]
  constructor
  · intro h405
    obtain ⟨found, params', hfound, _, hunserved⟩ :=
      listing_entry h' (.inl (by rw [h405]; decide))
    rw [hm'] at hfound
    cases hfound
    exact hunserved h405
  · exact fun hu => step_unserved hm' hu h'

end answers

/-- No route takes a PUT. -/
def putUsers : Request := { annRequest "/users" with method := .put }

def putAnswer : Response where
  status := 405
  version := 11
  keep_alive := false
  headers := [("Content-Length".toList, "43".toList),
    ("Content-Type".toList, "application/json".toList), ("Server".toList, "beast-coawait".toList),
    ("Allow".toList, "GET, POST".toList)]
  body := "\x7b\"error\":\"Method Not Allowed\",\"status\":405\x7d".toList

theorem putUsers_answer : (annStore.step smooth putUsers).2 = .ok putAnswer := by decide +kernel

theorem allow_predicts_405_put :
    ∃ text, putAnswer.headers.find "Allow".toList = some text ∧
      ∀ (st' : Store gateApp) (e' : Surroundings) (request' : Request) (response' : Response),
        (st'.step e' request').2 = .ok response' →
        normalizeTarget request' = normalizeTarget putUsers →
        (response'.status = 405 ↔ ¬ Lists text request'.method ∧ request'.method ≠ .options ∧
          (request'.method = .head → ¬ Lists text .get)) :=
  allow_predicts_405 annStore smooth putUsers putUsers_answer (.inl (by decide))

end AdequateApi.AllowedMethods
