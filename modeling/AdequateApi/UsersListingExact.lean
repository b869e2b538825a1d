import AdequateApi.UsersListing

/-! When `UsersRepository::getList` lists exactly what its filter asks for. Between the filter
and the server an empty list loses its condition, a text ends at its first NUL byte, and a name
in the array literal is read again by the server's array syntax. -/
namespace AdequateApi.UsersListing
open StdString DbConnection HttpMessages SqlBuilder SelectStatement PostgresSelect UserFilters
  UsersRepository DatetimeConverter

variable {pg : Postgres} {f : UserListFilter}

/-- The names that the server finds in the literal of a list. -/
def received (pg : Postgres) (names : List Str) : List Str :=
  ((pg.array_input (c_str (arrayToPg names))).getD []).reduceOption

/-- The server takes every text it is sent. -/
structure Accepted (pg : Postgres) (f : UserListFilter) : Prop where
  names : ∀ names ∈ f.username__in, names ≠ [] → pg.encoded (c_str (arrayToPg names)) = true ∧
    (pg.array_input (c_str (arrayToPg names))).isSome
  username : ∀ name ∈ f.username, pg.encoded (c_str name) = true
  email : ∀ email ∈ f.email, pg.encoded (c_str email) = true

/-- The filter as the server understands it. -/
structure Understood (pg : Postgres) (f : UserListFilter) (u : StoredUser) : Prop where
  id : ∀ id ∈ f.id, u.id = id
  ids : ∀ ids ∈ f.id__in, ids ≠ [] → u.id ∈ ids
  names : ∀ names ∈ f.username__in, names ≠ [] → u.row.username ∈ received pg names
  username : ∀ name ∈ f.username, u.row.username = c_str name
  email : ∀ email ∈ f.email, u.row.email.any (fun e => pg.citext_equal e (c_str email)) = true

/-! ### Clause by clause -/

theorem forall_clauses (p : Clause → Prop) :
    (∀ c ∈ clauses f, p c) ↔
      (∀ id ∈ f.id, p ⟨"id".toList, none, idText id⟩) ∧
      (∀ ids ∈ f.id__in, ids ≠ [] →
        p ⟨"id".toList, some .bigint, arrayToPg (ids.map idText)⟩) ∧
      (∀ names ∈ f.username__in, names ≠ [] →
        p ⟨"username".toList, some .text, arrayToPg names⟩) ∧
      (∀ name ∈ f.username, p ⟨"username".toList, none, name⟩) ∧
      ∀ email ∈ f.email, p ⟨"email".toList, none, email⟩ := by
  have hwhere : ∀ (column : Str) (o : Option Str), (∀ c ∈ whereClauses column o, p c) ↔
      ∀ v ∈ o, p ⟨column, none, v⟩ := by
    intro column o
    cases o <;> simp [whereClauses]
  have hany : ∀ (column : Str) (t : SqlType) (o : Option (List Str)),
      (∀ c ∈ anyClauses column t o, p c) ↔
        ∀ vs ∈ o, vs ≠ [] → p ⟨column, some t, arrayToPg vs⟩ := by
    intro column t o
    rcases o with _ | _ | ⟨v, vs⟩ <;> simp [anyClauses]
  simp only [clauses, List.forall_mem_append, hwhere, hany, and_assoc]
  have hid : (∀ v ∈ f.id.map idText, p ⟨"id".toList, none, v⟩) ↔
      ∀ id ∈ f.id, p ⟨"id".toList, none, idText id⟩ := by
    cases f.id <;> simp
  have hids : (∀ vs ∈ f.id__in.map (List.map idText), vs ≠ [] →
      p ⟨"id".toList, some .bigint, arrayToPg vs⟩) ↔ ∀ ids ∈ f.id__in, ids ≠ [] →
        p ⟨"id".toList, some .bigint, arrayToPg (ids.map idText)⟩ := by
    cases f.id__in <;> simp
  rw [hid, hids]

theorem bound_where {column : Str} {t : SqlType} (hs : schema column = some t) (v : Str) :
    (Clause.sent ⟨column, none, v⟩).bound pg schema =
      if pg.encoded (c_str v) then (pg.read t (c_str v)).map fun x => (t, [x]) else none := by
  cases he : pg.encoded (c_str v) with
  | false =>
    simp [Clause.bound, Clause.sent, Clause.condition, bound, hs, Postgres.candidates,
      Postgres.argument, he]
  | true =>
    cases hr : pg.read t (c_str v) <;>
      simp [Clause.bound, Clause.sent, Clause.condition, bound, hs, Postgres.candidates,
        Postgres.argument, he, hr]

theorem bound_any {column : Str} {t : SqlType} (hs : schema column = some t) (v : Str) :
    (Clause.sent ⟨column, some t, v⟩).bound pg schema =
      if pg.encoded (c_str v) then
        (pg.array_input (c_str v)).bind fun es => (es.reduceOption.mapM (pg.read t)).map fun vs =>
          (t, vs)
      else none := by
  cases he : pg.encoded (c_str v) with
  | false =>
    simp [Clause.bound, Clause.sent, Clause.condition, bound, hs, Postgres.candidates,
      Postgres.argument, he]
  | true =>
    cases hr : pg.array_input (c_str v) <;>
      simp [Clause.bound, Clause.sent, Clause.condition, bound, hs, Postgres.candidates,
        Postgres.argument, he, hr]

theorem holds_of_bound {c : Clause} {cells : Str → Option Value} {t : SqlType} {vs : List Value}
    (h : c.bound pg schema = some (t, vs)) :
    c.holds pg schema cells = (cells c.column).any fun x => vs.any fun v => pg.equal t x v := by
  unfold Clause.holds holds
  unfold Clause.bound at h
  rw [h]
  rfl

theorem mapM_read {α : Type} {t : SqlType} {text : α → Str} {value : α → Value} {l : List α}
    (h : ∀ a ∈ l, pg.read t (text a) = some (value a)) :
    (l.map text).mapM (pg.read t) = some (l.map value) := by
  induction l with
  | nil => rfl
  | cons a l ih =>
    have hrest := ih fun x hx => h x (List.mem_cons_of_mem _ hx)
    rw [List.map_cons, List.mapM_cons, h a List.mem_cons_self, hrest]
    rfl

theorem read_idText (hpg : pg.Documented) (id : Int64) :
    pg.read .bigint (idText id) = some (.bigint id.toInt) := by
  have hlow := id.le_toInt
  have hhigh := id.toInt_lt
  have hread := hpg.bigint id.toInt (by omega) (by omega)
  simp [Postgres.read, idText, hread]

theorem id_clause (hpg : pg.Documented) (id : Int64) :
    (Clause.sent ⟨"id".toList, none, idText id⟩).bound pg schema =
      some (.bigint, [.bigint id.toInt]) := by
  have hstr : c_str (idText id) = idText id := c_str_to_string _
  have henc : pg.encoded (idText id) = true := hpg.ascii _ (to_string_ascii _)
  rw [bound_where (t := .bigint) rfl, hstr, henc, read_idText hpg]
  rfl

theorem ids_clause (hpg : pg.Documented) {ids : List Int64} (hne : ids ≠ []) :
    (Clause.sent ⟨"id".toList, some .bigint, arrayToPg (ids.map idText)⟩).bound pg schema =
      some (.bigint, ids.map fun id => .bigint id.toInt) := by
  have hascii : ∀ c ∈ arrayToPg (ids.map idText), c.toNat < 128 ∧ c ≠ '\x00' := by
    intro c hc
    rcases List.mem_cons.mp hc with rfl | hc
    · decide
    rcases List.mem_append.mp hc with hc | hc
    · rcases mem_intercalate hc with rfl | ⟨l, hl, hc⟩
      · decide
      · obtain ⟨id, _, rfl⟩ := List.mem_map.mp hl
        exact to_string_ascii _ c hc
    · rw [List.mem_singleton.mp hc]
      decide
  have hstr : c_str (arrayToPg (ids.map idText)) = arrayToPg (ids.map idText) :=
    c_str_eq_self fun h => (hascii _ h).2 rfl
  have harray : pg.array_input (arrayToPg (ids.map idText)) = some ((ids.map idText).map some) := by
    refine hpg.array _ (by simpa using hne) fun e he => ?_
    obtain ⟨id, _, rfl⟩ := List.mem_map.mp he
    exact ⟨to_string_ne_nil _, fun c hc => to_string_chars hc⟩
  have hread : (ids.map idText).mapM (pg.read .bigint) =
      some (ids.map fun id => .bigint id.toInt) := mapM_read fun id _ => read_idText hpg id
  have hreduce : ((ids.map idText).map some).reduceOption = ids.map idText := by
    show ((ids.map idText).map some).filterMap id = ids.map idText
    simp
  rw [bound_any (t := .bigint) rfl, hstr, if_pos (hpg.ascii _ hascii), harray, Option.bind_some,
    hreduce, hread]
  rfl

theorem names_clause (names : List Str) :
    (Clause.sent ⟨"username".toList, some .text, arrayToPg names⟩).bound pg schema =
      if pg.encoded (c_str (arrayToPg names)) = true ∧
          (pg.array_input (c_str (arrayToPg names))).isSome then
        some (.text, (received pg names).map .text)
      else none := by
  have hread : ∀ es : List Str, es.mapM (pg.read .text) = some (es.map .text) := by
    intro es
    have hmap : (es.map id).mapM (pg.read .text) = some (es.map .text) :=
      mapM_read fun s _ => rfl
    rwa [List.map_id] at hmap
  rw [bound_any (t := .text) rfl]
  cases he : pg.encoded (c_str (arrayToPg names)) with
  | false => simp
  | true =>
    cases ha : pg.array_input (c_str (arrayToPg names)) with
    | none => simp
    | some es => simp [received, ha, hread]

theorem text_clause {column : Str} {t : SqlType} (hs : schema column = some t)
    (ht : t = .text ∨ t = .citext) (v : Str) :
    (Clause.sent ⟨column, none, v⟩).bound pg schema =
      if pg.encoded (c_str v) then some (t, [.text (c_str v)]) else none := by
  rw [bound_where hs]
  rcases ht with rfl | rfl
  · rfl
  · rfl

/-- The statement is carried out exactly when its texts are taken. -/
theorem bound_iff (hpg : pg.Documented) :
    (∀ c ∈ clauses f, (c.sent.bound pg schema).isSome) ↔ Accepted pg f := by
  rw [forall_clauses]
  constructor
  · rintro ⟨_, _, hnames, hname, hemail⟩
    refine ⟨fun names hn hne => ?_, fun name hn => ?_, fun email he => ?_⟩
    · have hb := hnames names hn hne
      rwa [names_clause, Option.isSome_ite] at hb
    · have hb := hname name hn
      rwa [text_clause (t := .text) rfl (.inl rfl), Option.isSome_ite] at hb
    · have hb := hemail email he
      rwa [text_clause (t := .citext) rfl (.inr rfl), Option.isSome_ite] at hb
  · intro h
    refine ⟨fun id _ => ?_, fun ids _ hne => ?_, fun names hn hne => ?_, fun name hn => ?_,
      fun email he => ?_⟩
    · rw [id_clause hpg]
      rfl
    · rw [ids_clause hpg hne]
      rfl
    · rw [names_clause, if_pos (h.names names hn hne)]
      rfl
    · rw [text_clause (t := .text) rfl (.inl rfl), if_pos (h.username name hn)]
      rfl
    · rw [text_clause (t := .citext) rfl (.inr rfl), if_pos (h.email email he)]
      rfl

/-- A row's value of the column is among the candidates. -/
theorem holds_cell {c : Clause} {u : StoredUser} {t : SqlType} {x : Value} {vs : List Value}
    (h : c.bound pg schema = some (t, vs)) (hx : cell u c.column = some x) :
    c.holds pg schema (cell u) = true ↔ ∃ v ∈ vs, pg.equal t x v = true := by
  rw [holds_of_bound h, hx, Option.any_some, List.any_eq_true]

theorem arrives_iff (hpg : pg.Documented) (ha : Accepted pg f) (u : StoredUser) :
    Arrives pg f u ↔ Understood pg f u := by
  have hid : ∀ id : Int64, (Clause.sent ⟨"id".toList, none, idText id⟩).holds pg schema (cell u) =
      true ↔ u.id = id := by
    intro id
    rw [holds_cell (id_clause hpg id) (show cell u _ = some (.bigint u.id.toInt) from rfl)]
    simp [Postgres.equal, Int64.toInt_inj]
  have hids : ∀ ids : List Int64, ids ≠ [] →
      ((Clause.sent ⟨"id".toList, some .bigint, arrayToPg (ids.map idText)⟩).holds pg schema
        (cell u) = true ↔ u.id ∈ ids) := by
    intro ids hne
    rw [holds_cell (ids_clause hpg hne) (show cell u _ = some (.bigint u.id.toInt) from rfl)]
    simp [Postgres.equal, Int64.toInt_inj]
  have hnames : ∀ names ∈ f.username__in, names ≠ [] →
      ((Clause.sent ⟨"username".toList, some .text, arrayToPg names⟩).holds pg schema (cell u) =
        true ↔ u.row.username ∈ received pg names) := by
    intro names hn hne
    have hb : (Clause.sent ⟨"username".toList, some .text, arrayToPg names⟩).bound pg schema = _ :=
      names_clause names
    rw [if_pos (ha.names names hn hne)] at hb
    rw [holds_cell hb (show cell u _ = some (.text u.row.username) from rfl)]
    simp [Postgres.equal]
  have hname : ∀ name ∈ f.username,
      ((Clause.sent ⟨"username".toList, none, name⟩).holds pg schema (cell u) = true ↔
        u.row.username = c_str name) := by
    intro name hn
    have hb : (Clause.sent ⟨"username".toList, none, name⟩).bound pg schema = _ :=
      text_clause (t := .text) rfl (.inl rfl) name
    rw [if_pos (ha.username name hn)] at hb
    rw [holds_cell hb (show cell u _ = some (.text u.row.username) from rfl)]
    simp [Postgres.equal]
  have hemail : ∀ email ∈ f.email,
      ((Clause.sent ⟨"email".toList, none, email⟩).holds pg schema (cell u) = true ↔
        u.row.email.any (fun e => pg.citext_equal e (c_str email)) = true) := by
    intro email he
    have hb : (Clause.sent ⟨"email".toList, none, email⟩).bound pg schema = _ :=
      text_clause (t := .citext) rfl (.inr rfl) email
    rw [if_pos (ha.email email he)] at hb
    rw [holds_of_bound hb, show cell u _ = u.row.email.map .text from rfl]
    cases u.row.email <;> simp [Postgres.equal]
  unfold Arrives
  rw [forall_clauses]
  constructor
  · rintro ⟨h₁, h₂, h₃, h₄, h₅⟩
    exact ⟨fun id hi => (hid id).mp (h₁ id hi), fun ids hi hne => (hids ids hne).mp (h₂ ids hi hne),
      fun names hn hne => (hnames names hn hne).mp (h₃ names hn hne),
      fun name hn => (hname name hn).mp (h₄ name hn),
      fun email he => (hemail email he).mp (h₅ email he)⟩
  · rintro ⟨h₁, h₂, h₃, h₄, h₅⟩
    exact ⟨fun id hi => (hid id).mpr (h₁ id hi),
      fun ids hi hne => (hids ids hne).mpr (h₂ ids hi hne),
      fun names hn hne => (hnames names hn hne).mpr (h₃ names hn hne),
      fun name hn => (hname name hn).mpr (h₄ name hn),
      fun email he => (hemail email he).mpr (h₅ email he)⟩

/-! ### What may get lost on the way -/

/-- Names that the username filters allow, as they were given. -/
def GivenName (f : UserListFilter) (x : Str) : Prop :=
  (∀ name ∈ f.username, x = name) ∧ ∀ names ∈ f.username__in, x ∈ names

/-- Names that they allow as they arrive. -/
def ArrivedName (pg : Postgres) (f : UserListFilter) (x : Str) : Prop :=
  (∀ name ∈ f.username, x = c_str name) ∧
    ∀ names ∈ f.username__in, names ≠ [] → x ∈ received pg names

/-- No list that is present is empty, no text has a NUL byte, and the server finds in the
literal of the names those names, as far as the other username filter leaves a choice. -/
structure Faithful (pg : Postgres) (f : UserListFilter) : Prop where
  ids : f.id__in ≠ some []
  names : f.username__in ≠ some []
  username : ∀ name ∈ f.username, '\x00' ∉ name
  email : ∀ email ∈ f.email, '\x00' ∉ email
  literal : ∀ names ∈ f.username__in, ∀ x, Storable pg x → (∀ name ∈ f.username, x = name) →
    (x ∈ received pg names ↔ x ∈ names)

/-- Filters that contradict each other on the way as well as before: an id outside the list of
ids, or no name that arrives and no row to list in the first place. -/
def Hopeless (pg : Postgres) (f : UserListFilter) : Prop :=
  (∃ id ∈ f.id, ∃ ids ∈ f.id__in, ids ≠ [] ∧ id ∉ ids) ∨
    ((∀ x, Storable pg x → ¬ ArrivedName pg f x) ∧
      (f.id__in = some [] ∨ (∃ email ∈ f.email, '\x00' ∈ email) ∨
        ∀ x, Storable pg x → ¬ GivenName f x))

/-- A row that a table can hold. -/
def Possible (pg : Postgres) (u : StoredUser) : Prop :=
  Storable pg u.row.username ∧ ∀ e ∈ u.row.email, Storable pg e

/-- No value equals a text with a NUL byte. -/
theorem any_citext_nul (hpg : pg.Documented) {email : Str} (h : '\x00' ∈ email) (o : Option Str) :
    o.any (fun e => pg.citext_equal e email) = false := by
  cases o with
  | none => rfl
  | some e => exact hpg.citext_nul e email h

theorem Faithful.understood_iff (h : Faithful pg f) {u : StoredUser} (hu : Possible pg u) :
    Understood pg f u ↔ Satisfies pg f u := by
  have hname : ∀ name ∈ f.username, c_str name = name := fun name hn =>
    c_str_eq_self (h.username name hn)
  have hemail : ∀ email ∈ f.email, c_str email = email := fun email he =>
    c_str_eq_self (h.email email he)
  have hids : ∀ ids ∈ f.id__in, ids ≠ [] := by
    rintro ids hi rfl
    exact h.ids hi
  have hnames : ∀ names ∈ f.username__in, names ≠ [] := by
    rintro names hn rfl
    exact h.names hn
  constructor
  · intro hun
    have hgiven : ∀ name ∈ f.username, u.row.username = name := fun name hn =>
      (hun.username name hn).trans (hname name hn)
    refine ⟨hun.id, fun ids hi => hun.ids ids hi (hids ids hi), hgiven, fun names hn => ?_,
      fun email he => ?_⟩
    · exact (h.literal names hn _ hu.1 hgiven).mp (hun.names names hn (hnames names hn))
    · have hany := hun.email email he
      rwa [hemail email he] at hany
  · rintro ⟨hid, hin, hgiven, hlist, hmail⟩
    refine ⟨hid, fun ids hi _ => hin ids hi, fun names hn _ => ?_, fun name hn => ?_,
      fun email he => ?_⟩
    · exact (h.literal names hn _ hu.1 hgiven).mpr (hlist names hn)
    · exact (hgiven name hn).trans (hname name hn).symm
    · rw [hemail email he]
      exact hmail email he

theorem Hopeless.understood_iff (hpg : pg.Documented) (h : Hopeless pg f) {u : StoredUser}
    (hu : Possible pg u) : Understood pg f u ↔ Satisfies pg f u := by
  refine iff_of_false (fun hun => ?_) fun hsat => ?_
  · rcases h with ⟨id, hid, ids, hids, hne, hno⟩ | ⟨hno, _⟩
    · exact hno (hun.id id hid ▸ hun.ids ids hids hne)
    · exact hno _ hu.1 ⟨hun.username, hun.names⟩
  · obtain ⟨hid, hin, hgiven, hlist, hmail⟩ := hsat
    rcases h with ⟨id, hi, ids, hids, _, hno⟩ | ⟨_, hempty | ⟨email, he, hnul⟩ | hno⟩
    · exact hno (hid id hi ▸ hin ids hids)
    · cases hin [] hempty
    · have hany := hmail email he
      rw [any_citext_nul hpg hnul] at hany
      cases hany
    · exact hno _ hu.1 ⟨hgiven, hlist⟩

theorem not_mem_c_str (s : Str) : '\x00' ∉ c_str s := by
  intro h
  have hne := List.mem_takeWhile_imp h
  simp at hne

/-- An id that meets both id filters, as they arrive. -/
theorem exists_id (h : ¬ ∃ id ∈ f.id, ∃ ids ∈ f.id__in, ids ≠ [] ∧ id ∉ ids) :
    ∃ id₀, (∀ id ∈ f.id, id₀ = id) ∧ ∀ ids ∈ f.id__in, ids ≠ [] → id₀ ∈ ids := by
  push Not at h
  cases hid : f.id with
  | some id =>
    refine ⟨id, by simp, fun ids hids hne => h id hid ids hids hne⟩
  | none =>
    rcases hin : f.id__in with _ | _ | ⟨i, is⟩
    · exact ⟨0, by simp, by simp⟩
    · exact ⟨0, by simp, by simp⟩
    · exact ⟨i, by simp, by simp⟩

/-- A row with the given id and name, and the email of the filter as it arrives. -/
def probeRow (f : UserListFilter) (id : Int64) (name : Str) : StoredUser :=
  ⟨id, ⟨name, none, f.email.map c_str, none, 0, 0⟩⟩

theorem probeRow_possible (ha : Accepted pg f) (id : Int64) {name : Str}
    (h : Storable pg name) : Possible pg (probeRow f id name) := by
  refine ⟨h, fun e he => ?_⟩
  obtain ⟨email, hemail, rfl⟩ := Option.map_eq_some_iff.mp he
  exact ⟨not_mem_c_str email, ha.email email hemail⟩

theorem probeRow_email (hpg : pg.Documented) (id : Int64) (name : Str) :
    ∀ email ∈ f.email, (probeRow f id name).row.email.any
      (fun e => pg.citext_equal e (c_str email)) = true := by
  intro email he
  have hrow : (probeRow f id name).row.email = some (c_str email) := by
    rw [probeRow, Option.mem_def.mp he]
    rfl
  rw [hrow]
  exact hpg.citext_refl _ (not_mem_c_str email)

/-- A filter that arrives with the same meaning for every possible row is faithful, or there is
no row at all that it lists. -/
theorem faithful_or_hopeless (hpg : pg.Documented) (ha : Accepted pg f)
    (h : ∀ u, Possible pg u → (Understood pg f u ↔ Satisfies pg f u)) :
    Faithful pg f ∨ Hopeless pg f := by
  by_cases hsome : ∃ u, Possible pg u ∧ Satisfies pg f u
  · left
    obtain ⟨u, hu, hsat⟩ := hsome
    have hun := (h u hu).mpr hsat
    obtain ⟨hid, hin, hgiven, hlist, hmail⟩ := hsat
    have hname : ∀ name ∈ f.username, '\x00' ∉ name := fun name hn => hgiven name hn ▸ hu.1.1
    refine ⟨fun he => ?_, fun he => ?_, hname, fun email he hnul => ?_, fun names hn x hx hxs => ?_⟩
    · cases hin [] he
    · cases hlist [] he
    · have hany := hmail email he
      rw [any_citext_nul hpg hnul] at hany
      cases hany
    · -- the same row under the name in question
      have hrow := h { u with row := { u.row with username := x } } ⟨hx, hu.2⟩
      constructor
      · intro hmem
        have hsat := hrow.mp
          ⟨hun.id, hun.ids, fun names' hn' _ => ?_, fun name hn' => ?_, hun.email⟩
        · exact hsat.2.2.2.1 names hn
        · cases Option.mem_unique hn hn'
          exact hmem
        · rw [c_str_eq_self (hname name hn')]
          exact hxs name hn'
      · intro hmem
        have hun' := hrow.mpr ⟨hid, hin, hxs, fun names' hn' => ?_, hmail⟩
        · exact hun'.names names hn (List.ne_nil_of_mem hmem)
        · cases Option.mem_unique hn hn'
          exact hmem
  · right
    have hnone : ∀ u, Possible pg u → ¬ Satisfies pg f u := fun u hu hs => hsome ⟨u, hu, hs⟩
    by_cases hids : ∃ id ∈ f.id, ∃ ids ∈ f.id__in, ids ≠ [] ∧ id ∉ ids
    · exact .inl hids
    obtain ⟨id₀, hid₀, hin₀⟩ := exists_id hids
    refine .inr ⟨fun x hx hax => ?_, ?_⟩
    · have hu := probeRow_possible ha id₀ hx
      exact hnone _ hu ((h _ hu).mp ⟨hid₀, hin₀, hax.2, hax.1, probeRow_email hpg id₀ x⟩)
    · by_contra hno
      push Not at hno
      obtain ⟨hne, hmail, x, hx, hgx⟩ := hno
      refine hnone _ (probeRow_possible ha id₀ hx) ⟨hid₀, fun ids hi => ?_, hgx.1, hgx.2,
        fun email he => ?_⟩
      · refine hin₀ ids hi ?_
        rintro rfl
        exact hne hi
      · have hany := probeRow_email hpg id₀ x email he
        rwa [c_str_eq_self (hmail email he)] at hany

/-! ### The listing -/

theorem page_singleton (p : StoredUser → Prop) [DecidablePred p] {g : UserListFilter}
    (hlimit : g.limit = none) (hoffset : g.offset = none) (u : StoredUser) :
    (page p g [u]).length = if p u then 1 else 0 := by
  unfold page window
  rw [hlimit, hoffset]
  by_cases hp : p u <;> simp [hp]

/-- Some times can be read. -/
theorem exists_readable (hpg : pg.Documented) :
    ∃ t time, parse_pg_timestamp (pg.timestamptz_output t) = .ok time := by
  obtain ⟨t, zone, hout, hzone⟩ := hpg.dated
  cases zone with
  | nil => simp at hzone
  | cons c zone =>
    refine ⟨t, _, hout ▸ parse_pg_timestamp_zone ?_ zone⟩
    rintro rfl
    simp at hzone

def emptyTable (pg : Postgres) : UsersTable pg := ⟨[], List.nodup_nil, by simp⟩

def singleRow {u : StoredUser} (hu : Possible pg u) : UsersTable pg :=
  ⟨[u], List.nodup_singleton _, fun _ hw => List.mem_singleton.mp hw ▸ hu⟩

theorem mem_page {p : StoredUser → Prop} [DecidablePred p] {g : UserListFilter}
    {users : List StoredUser} {u : StoredUser} (h : u ∈ page p g users) : u ∈ users := by
  have hsub : ∀ l : List StoredUser, u ∈ window g.limit g.offset l → u ∈ l := by
    intro l hl
    unfold window at hl
    split at hl
    · exact List.mem_of_mem_drop hl
    · exact List.mem_of_mem_drop (List.mem_of_mem_take hl)
  exact (List.mem_filter.mp (List.mem_mergeSort.mp (hsub _ h))).1

/-- Only the rows of the table matter. -/
theorem page_congr {p q : StoredUser → Prop} [DecidablePred p] [DecidablePred q]
    {users : List StoredUser} (g : UserListFilter) (h : ∀ u ∈ users, p u ↔ q u) :
    page p g users = page q g users := by
  unfold page
  rw [List.filter_congr fun u hu => decide_eq_decide.mpr (h u hu)]

theorem getList_accepted (hpg : pg.Documented) (ha : Accepted pg f) (table : UsersTable pg)
    (hlimit : ∀ n ∈ f.limit, n ≤ 1000) (hoffset : ∀ n ∈ f.offset, n < 2147483648) :
    getList (runQuery pg table) f =
      entities ((page (Arrives pg f) f table.users).map (rowOf pg)) := by
  rw [getList_eq hpg table hlimit hoffset, if_pos ((bound_iff hpg).mpr ha)]

theorem ListsExactly.accepted (hpg : pg.Documented) (h : ListsExactly pg f) : Accepted pg f := by
  obtain ⟨found, hfound, _⟩ := (h (emptyTable pg) none none (by simp) (by simp)).mpr (by
    simp [listing, page, window, emptyTable])
  rw [getList_eq hpg (emptyTable pg) (by simp) (by simp)] at hfound
  split at hfound
  · rename_i hbound
    exact (bound_iff hpg).mp hbound
  · cases hfound

/-- On a table of one row, without a window. -/
theorem arrives_iff_satisfies (hpg : pg.Documented) (ha : Accepted pg f) (hlimit : f.limit = none)
    (hoffset : f.offset = none) {v : StoredUser} (hv : Possible pg v) {found : List ListedUser}
    (hfound : getList (runQuery pg (singleRow hv)) f = .ok found)
    (hrows : List.Forall₂ (ComesBack pg) (listing pg f (singleRow hv).users) found) :
    Arrives pg f v ↔ Satisfies pg f v := by
  have hlist := getList_accepted hpg ha (singleRow hv) (by simp [hlimit]) (by simp [hoffset])
  have hcame := entities_length (hlist.symm.trans hfound)
  have hmeant := hrows.length_eq
  rw [List.length_map, singleRow, page_singleton _ hlimit hoffset] at hcame
  rw [hcame, listing, singleRow, page_singleton _ hlimit hoffset] at hmeant
  by_cases hp : Arrives pg f v <;> by_cases hq : Satisfies pg f v <;> simp [hp, hq] at hmeant ⊢

/-- The other fields of the filter do not matter to a row. -/
theorem understood_window {limit offset : Option ℕ} {u v : StoredUser} (hid : v.id = u.id)
    (hname : v.row.username = u.row.username) (hemail : v.row.email = u.row.email) :
    Understood pg { f with limit := limit, offset := offset } v ↔ Understood pg f u := by
  constructor
  · rintro ⟨h₁, h₂, h₃, h₄, h₅⟩
    rw [hid] at h₁ h₂
    rw [hname] at h₃ h₄
    rw [hemail] at h₅
    exact ⟨h₁, h₂, h₃, h₄, h₅⟩
  · rintro ⟨h₁, h₂, h₃, h₄, h₅⟩
    rw [← hid] at h₁ h₂
    rw [← hname] at h₃ h₄
    rw [← hemail] at h₅
    exact ⟨h₁, h₂, h₃, h₄, h₅⟩

theorem Accepted.window (ha : Accepted pg f) (limit offset : Option ℕ) :
    Accepted pg { f with limit := limit, offset := offset } :=
  ⟨ha.names, ha.username, ha.email⟩

/-- The same row with other times. -/
def StoredUser.dated (u : StoredUser) (t : ℤ) : StoredUser :=
  { u with row := { u.row with created_at := t, updated_at := t } }

theorem ListsExactly.understood_iff (hpg : pg.Documented) (h : ListsExactly pg f)
    {u : StoredUser} (hu : Possible pg u) : Understood pg f u ↔ Satisfies pg f u := by
  obtain ⟨t, time, ht⟩ := exists_readable hpg
  have hv : Possible pg (u.dated t) := hu
  obtain ⟨found, hfound, hrows⟩ := (h (singleRow hv) none none (by simp) (by simp)).mpr (by
    intro w hw
    rw [List.mem_singleton.mp (mem_page hw)]
    exact ⟨time, time, ht, ht⟩)
  have hacc := (h.accepted hpg).window none none
  have harrives := arrives_iff_satisfies hpg hacc rfl rfl hv hfound hrows
  have hrow : Understood pg { f with limit := none, offset := none } (u.dated t) ↔
      Understood pg f u := understood_window rfl rfl rfl
  exact hrow.symm.trans ((arrives_iff hpg hacc (u.dated t)).symm.trans harrives)

theorem listsExactly_of_understood (hpg : pg.Documented) (ha : Accepted pg f)
    (h : ∀ u, Possible pg u → (Understood pg f u ↔ Satisfies pg f u)) : ListsExactly pg f := by
  intro table limit offset hlimit hoffset
  have hacc := ha.window limit offset
  have hpage : page (Arrives pg { f with limit := limit, offset := offset })
      { f with limit := limit, offset := offset } table.users =
        listing pg { f with limit := limit, offset := offset } table.users := by
    refine page_congr _ fun u hu => (arrives_iff hpg hacc u).trans ?_
    exact (understood_window rfl rfl rfl).trans (h u (table.texts u hu))
  rw [getList_accepted hpg hacc table hlimit hoffset, hpage]
  exact entities_iff pg _

/-- A filter lists exactly what it asks for, over every table and window, exactly when the
server takes its texts and nothing gets lost on the way, or nothing can be listed at all. -/
theorem lists_exactly_iff (hpg : pg.Documented) (f : UserListFilter) :
    ListsExactly pg f ↔ Accepted pg f ∧ (Faithful pg f ∨ Hopeless pg f) := by
  constructor
  · intro h
    have ha := h.accepted hpg
    exact ⟨ha, faithful_or_hopeless hpg ha fun u hu => h.understood_iff hpg hu⟩
  · rintro ⟨ha, h⟩
    refine listsExactly_of_understood hpg ha fun u hu => ?_
    rcases h with h | h
    · exact h.understood_iff hu
    · exact h.understood_iff hpg hu

/-! ### A server to try it on -/

/-- An element of an array literal as this server reads it. -/
def plainElement (e : Str) : Option Str := if toLower e = "null".toList then none else some e

/-- A database in ASCII and a session in UTC, as far as the texts below need it: it takes array
literals of letters and digits only, and shows the first instant of 2000. -/
def plainServer : Postgres where
  encoded s := s.all fun c => c.toNat < 128
  bigint_input s := (leadingNumber s).filter fun n =>
    s = to_string n ∧ -9223372036854775808 ≤ n ∧ n ≤ 9223372036854775807
  int4_input s := (leadingNumber s).filter fun n =>
    s = to_string n ∧ -2147483648 ≤ n ∧ n ≤ 2147483647
  timestamptz_input _ := none
  array_input s :=
    let elements := (s.drop 1).dropLast.splitOn ','
    if s = braces elements ∧ elements.all (fun e => e ≠ [] ∧ e.all fun c => c.isAlphanum ∨ c = '-')
    then some (elements.map plainElement) else none
  citext_equal s t := '\x00' ∉ t ∧ toLower s = toLower t
  timestamptz_output _ := "2000-01-01 00:00:00+00".toList
  complaint := []

theorem plainServer_documented : plainServer.Documented := by
  constructor
  · intro s h
    simp only [plainServer, List.all_eq_true, decide_eq_true_eq]
    exact fun c hc => (h c hc).1
  · intro n hlow hhigh
    simp [plainServer, leadingNumber_to_string, Option.filter, hlow, hhigh]
  · intro n hlow hhigh
    simp [plainServer, leadingNumber_to_string, Option.filter, hlow, hhigh]
  · intro es hne hes
    have hsplit : ((braces es).drop 1).dropLast.splitOn ',' = es := by
      rw [braces, List.drop_one, List.tail_cons, List.dropLast_concat]
      refine List.splitOn_intercalate ',' (fun e he hc => ?_) hne
      rcases (hes e he).2 ',' hc with h | h
      · cases h
      · cases h
    have hall : (es.all fun e => e ≠ [] ∧ e.all fun c => c.isAlphanum ∨ c = '-') = true := by
      simp only [List.all_eq_true, decide_eq_true_eq]
      refine fun e he => ⟨(hes e he).1, fun c hc => ?_⟩
      rcases (hes e he).2 c hc with h | h
      · exact .inl (by simp [Char.isAlphanum, h])
      · exact .inr h
    have helement : es.map plainElement = es.map some := by
      refine List.map_congr_left fun e he => if_neg fun hnull => ?_
      rw [toLower_numeral (hes e he).2] at hnull
      have hn : 'n' ∈ e := by simp [hnull]
      rcases (hes e he).2 'n' hn with h | h
      · cases h
      · cases h
    simp only [plainServer, hsplit]
    rw [if_pos ⟨trivial, hall⟩, helement]
  · intro s h
    simp [plainServer, h]
  · intro s t h
    simp [plainServer, h]
  · exact ⟨0, "+00".toList, rfl, .inl rfl⟩

def annFilter : UserListFilter where
  id := none
  id__in := some [1, 2]
  username := none
  username__in := some ["ann".toList, "bob".toList]
  email := some "Ann@x.org".toList
  limit := none
  offset := none

theorem lists_exactly_ann : ListsExactly plainServer annFilter := by
  refine (lists_exactly_iff plainServer_documented annFilter).mpr ⟨⟨?_, ?_, ?_⟩, .inl ?_⟩
  · rintro names ⟨⟩ _
    decide +kernel
  · rintro name ⟨⟩
  · rintro email ⟨⟩
    decide +kernel
  · constructor
    · decide
    · decide
    · rintro name ⟨⟩
    · rintro email ⟨⟩
      decide +kernel
    · rintro names ⟨⟩ x _ _
      have hnames : received plainServer ["ann".toList, "bob".toList] =
          ["ann".toList, "bob".toList] := by decide +kernel
      rw [hnames]

def noFilter : UserListFilter := ⟨none, none, none, none, none, none, none⟩

def annTable : UsersTable plainServer where
  users := [⟨1, ⟨"ann".toList, none, some "ann@x.org".toList, none, 0, 0⟩⟩]
  primary := by decide
  texts := by
    intro u hu
    rw [List.mem_singleton.mp hu]
    refine ⟨⟨by decide, by decide +kernel⟩, ?_⟩
    rintro e ⟨⟩
    exact ⟨by decide, by decide +kernel⟩

/-- The only id of the query is malformed, so the list of ids is empty, and everybody is listed. -/
theorem malformed_ids_list_all :
    parseRequestQuery noFilter [("id__in".toList, "abc".toList)] =
        .ok { noFilter with id__in := some [] } ∧
      (getList (runQuery plainServer annTable) { noFilter with id__in := some [] }).map
        (List.map fun u => u.id) = .ok [1] ∧
      listing plainServer { noFilter with id__in := some [] } annTable.users = [] := by
  refine ⟨by decide +kernel, by decide +kernel, by decide +kernel⟩

end AdequateApi.UsersListing
