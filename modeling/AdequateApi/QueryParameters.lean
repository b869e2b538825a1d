import AdequateApi.DbConnectionSpec

/-! The parameter arrays of `execParams` and `execPrepared`: pointers into a vector of copies, a
null pointer for an absent value, and no lengths. What the server receives of the parameters. -/
namespace AdequateApi.QueryParameters
open StdString SessionServer DbConnection PgConnection

variable {ε : Type}

/-! ### The arrays -/

/-- `storage` with its capacity, `values` and `formats`. A pointer is the allocation of `storage` it
was taken in, and an index. -/
structure ParamArrays where
  block : ℕ
  capacity : ℕ
  storage : List Str
  values : List (Option (ℕ × ℕ))
  formats : List ℕ
  deriving DecidableEq, Repr

namespace ParamArrays

/-- `reserve(n)`. -/
def reserved (n : ℕ) : ParamArrays := ⟨0, n, [], [], []⟩

/-- `push_back` on `storage`, which moves to a new allocation when it is full. -/
def store (m : ParamArrays) (s : Str) : ParamArrays :=
  if m.storage.length < m.capacity then { m with storage := m.storage ++ [s] }
  else { m with
    block := m.block + 1
    capacity := 2 * m.capacity + 1
    storage := m.storage ++ [s] }

/-- One round of the loop. -/
def add (m : ParamArrays) : Option Str → ParamArrays
  | some s =>
      let m := m.store s
      { m with
        values := m.values ++ [some (m.block, m.storage.length - 1)]
        formats := m.formats ++ [0] }
  | none => { m with
      values := m.values ++ [none]
      formats := m.formats ++ [0] }

/-- A pointer into an earlier allocation is not valid. -/
def valid (m : ParamArrays) (p : ℕ × ℕ) : Bool := p.1 = m.block && p.2 < m.storage.length

/-- The text behind a pointer: without lengths, up to its first NUL byte. -/
def text (m : ParamArrays) (p : ℕ × ℕ) : Str := c_str (m.storage.getD p.2 [])

/-- What libpq reads: all formats are text, and a null pointer stands for NULL. -/
def received (m : ParamArrays) : Option (List (Option Str)) :=
  if m.formats.all (· = 0) && m.values.all fun v => v.all m.valid then
    some (m.values.map fun v => v.map m.text)
  else none

end ParamArrays

/-- The arrays built for `params`. -/
def paramArrays (params : List (Option Str)) : ParamArrays :=
  params.foldl ParamArrays.add (.reserved params.length)

/-- The arrays after the parameters `done`, of `n` in all. -/
structure Filled (done : List (Option Str)) (n : ℕ) (m : ParamArrays) : Prop where
  capacity : m.capacity = n
  storage : m.storage.length ≤ done.length
  formats : ∀ f ∈ m.formats, f = 0
  valid : ∀ p, some p ∈ m.values → m.valid p = true
  values : (m.values.map fun v => v.map m.text) = paramValues done

section add

variable {done : List (Option Str)} {n : ℕ} {m : ParamArrays}

/-- With room for one more copy, the copies before stay where they are. -/
theorem store_of_room {s : Str} (hroom : m.storage.length < m.capacity) :
    m.store s = { m with storage := m.storage ++ [s] } := by
  rw [ParamArrays.store, if_pos hroom]

theorem valid_storage {s : Str} {p : ℕ × ℕ} (h : m.valid p = true) :
    ({ m with storage := m.storage ++ [s] } : ParamArrays).valid p = true ∧
      ({ m with storage := m.storage ++ [s] } : ParamArrays).text p = m.text p := by
  simp only [ParamArrays.valid, Bool.and_eq_true, decide_eq_true_eq] at h ⊢
  refine ⟨⟨h.1, ?_⟩, ?_⟩
  · rw [List.length_append, List.length_singleton]
    omega
  · simp [ParamArrays.text, List.getElem?_append_left h.2]

theorem formats_append {fs : List ℕ} (h : ∀ f ∈ fs, f = 0) : ∀ f ∈ fs ++ [0], f = 0 := by
  intro f hf
  rcases List.mem_append.mp hf with hf | hf
  · exact h f hf
  · simpa using hf

/-- An absent value takes no copy: the index into `storage` stays behind the one into `params`. -/
theorem Filled.add_none (h : Filled done n m) : Filled (done ++ [none]) n (m.add none) := by
  have hstorage := h.storage
  have hvalues := h.values
  refine ⟨h.capacity, ?_, formats_append h.formats, fun p hp => ?_, ?_⟩
  · rw [List.length_append]
    exact Nat.le_add_right_of_le hstorage
  · exact h.valid p (by simpa [ParamArrays.add] using hp)
  · simp only [ParamArrays.add, List.map_append, paramValues] at hvalues ⊢
    exact congrArg (· ++ [none]) hvalues

theorem Filled.add_some (h : Filled done n m) (hroom : done.length < n) (s : Str) :
    Filled (done ++ [some s]) n (m.add (some s)) := by
  have hcapacity := h.capacity
  have hstorage := h.storage
  have hadd : m.add (some s) = { m with
      storage := m.storage ++ [s]
      values := m.values ++ [some (m.block, m.storage.length)]
      formats := m.formats ++ [0] } := by
    simp [ParamArrays.add, store_of_room (m := m) (s := s) (by omega)]
  rw [hadd]
  refine ⟨hcapacity, ?_, formats_append h.formats, fun p hp => ?_, ?_⟩
  · simp only [List.length_append, List.length_singleton]
    omega
  · rcases List.mem_append.mp hp with hp | hp
    · exact (valid_storage (h.valid p hp)).1
    · obtain rfl : p = (m.block, m.storage.length) := by simpa using hp
      simp [ParamArrays.valid]
  · have hold : (m.values.map fun v => v.map
        ({ m with storage := m.storage ++ [s] } : ParamArrays).text) = paramValues done := by
      rw [← h.values]
      refine List.map_congr_left fun v hv => ?_
      cases v with
      | none => rfl
      | some p => exact congrArg some (valid_storage (h.valid p hv)).2
    have hnew : ({ m with storage := m.storage ++ [s] } : ParamArrays).text
        (m.block, m.storage.length) = c_str s := by
      simp [ParamArrays.text]
    rw [List.map_append, paramValues, List.map_append]
    exact congrArg₂ (· ++ ·) hold (congrArg (fun t => [some t]) hnew)

end add

theorem filled_foldl {done rest : List (Option Str)} {n : ℕ} {m : ParamArrays}
    (h : Filled done n m) (hn : done.length + rest.length = n) :
    Filled (done ++ rest) n (rest.foldl ParamArrays.add m) := by
  induction rest generalizing done m with
  | nil => simpa using h
  | cons param rest ih =>
    rw [List.length_cons] at hn
    have hstep : Filled (done ++ [param]) n (m.add param) := by
      cases param with
      | none => exact h.add_none
      | some s => exact h.add_some (by omega) s
    have hrest := ih hstep (by rw [List.length_append, List.length_singleton]; omega)
    rwa [List.append_assoc, List.singleton_append] at hrest

/-- Whatever the pattern of absent values, no pointer dangles and each reads its own value. -/
theorem received_paramArrays (params : List (Option Str)) :
    (paramArrays params).received = some (paramValues params) := by
  have hstart : Filled [] params.length (.reserved params.length) :=
    ⟨rfl, Nat.le_refl _, by simp [ParamArrays.reserved], by simp [ParamArrays.reserved], rfl⟩
  have hfilled : Filled params params.length (paramArrays params) :=
    filled_foldl hstart (Nat.zero_add _)
  have hformats : (paramArrays params).formats.all (· = 0) = true := by
    simpa using hfilled.formats
  have hvalid : ((paramArrays params).values.all fun v => v.all (paramArrays params).valid) =
      true := by
    refine List.all_eq_true.mpr fun v hv => ?_
    cases v with
    | none => rfl
    | some p => exact hfilled.valid p hv
  rw [ParamArrays.received, hformats, hvalid, hfilled.values]
  rfl

/-! ### What reaches the server -/

/-- What is on the wire for `params`. -/
def wire (params : List (Option Str)) : List (Option Str) :=
  (paramArrays params).received.getD []

theorem wire_eq (params : List (Option Str)) : wire params = paramValues params := by
  rw [wire, received_paramArrays, Option.getD_some]

/-- The requests that libpq takes in one `runQueryWithTimeout`. -/
def taken (c : PgConnection ε) (req : Request ε) (a : Answers) : List (Request ε) :=
  match c.conn with
  | none => []
  | some k => if k.accepts a then [req] else []

/-- The requests of `execParams`. -/
def execParamsSent (c : PgConnection ε) (sql : Sql ε) (params : List (Option Str))
    (a : ExecAnswers) : List (Request ε) :=
  match c.ensure_connected a.connect with
  | (.error _, _) => []
  | (.ok (), c) => taken c ⟨c_str sql.text, wire params, sql.command⟩ a.query

/-- The requests of `execPrepared` that execute the statement: the first one, and the one after
preparing again. -/
def execPreparedSent (c : PgConnection ε) (db : List ε) (stmtName : Str)
    (sql : Sql ε) (params : List (Option Str)) (a : PreparedAnswers) : List (Request ε) :=
  let req : Request ε := ⟨c_str stmtName, wire params, sql.command⟩
  match c.ensure_connected a.connect with
  | (.error _, _) => []
  | (.ok (), c) =>
      let p := c.do_prepare db stmtName sql a.prepare
      match p.result with
      | .error _ => []
      | .ok () =>
          let r := runQueryWithTimeout p.conn p.db req a.query
          taken p.conn req a.query ++
            match r.result with
            | .ok _ => []
            | .error e =>
                if is_invalid_prepared_stmt_error e.what then
                  let erased := { r.conn with
                    prepared := r.conn.prepared.filter (· ≠ stmtName) }
                  let again := erased.do_prepare r.db stmtName sql a.reprepare
                  match again.result with
                  | .error _ => []
                  | .ok () => taken again.conn req a.retry
                else []

/-- The call throws without executing the statement, or the server gets a request that executes
it, and the parameters as they were given with each such request. -/
def Faithful {α : Type} (params : List (Option Str)) (r : Exec ε α) (sent : List (Request ε)) :
    Prop :=
  ((∃ e, r.result = .error e) ∧ r.carried = false) ∨
    (sent ≠ [] ∧ ∀ req ∈ sent, req.values = params)

theorem runQuery_taken (c : PgConnection ε) (db : List ε) (req : Request ε) (a : Answers) :
    taken c req a = [req] ∨
      ∃ e, runQueryWithTimeout c db req a = ⟨.error e, c.close, db, false⟩ := by
  unfold taken runQueryWithTimeout
  cases c.conn with
  | none => exact .inr ⟨_, rfl⟩
  | some k =>
    dsimp only
    cases k.accepts a with
    | false => exact .inr ⟨_, rfl⟩
    | true => exact .inl rfl

theorem taken_subset (c : PgConnection ε) (req : Request ε) (a : Answers) :
    taken c req a ⊆ [req] := by
  unfold taken
  split
  · exact List.nil_subset _
  · split
    · exact List.Subset.refl _
    · exact List.nil_subset _

theorem execParamsSent_values {c : PgConnection ε} {sql : Sql ε} {params : List (Option Str)}
    {a : ExecAnswers} {req : Request ε} (h : req ∈ execParamsSent c sql params a) :
    req.values = wire params := by
  unfold execParamsSent at h
  split at h
  · cases h
  · rw [List.mem_singleton.mp (taken_subset _ _ _ h)]

theorem execPreparedSent_values {c : PgConnection ε} {db : List ε} {name : Str} {sql : Sql ε}
    {params : List (Option Str)} {a : PreparedAnswers} {req : Request ε}
    (h : req ∈ execPreparedSent c db name sql params a) : req.values = wire params := by
  unfold execPreparedSent at h
  dsimp only at h
  split at h
  · cases h
  split at h
  · cases h
  rcases List.mem_append.mp h with h | h
  · rw [List.mem_singleton.mp (taken_subset _ _ _ h)]
  split at h
  · cases h
  split at h
  swap
  · cases h
  split at h
  · cases h
  · rw [List.mem_singleton.mp (taken_subset _ _ _ h)]

theorem execParams_sent (c : PgConnection ε) (db : List ε) (sql : Sql ε)
    (params : List (Option Str)) (a : ExecAnswers) :
    ((∃ e, (c.execParams db sql params a).result = .error e) ∧
        (c.execParams db sql params a).carried = false) ∨
      execParamsSent c sql params a ≠ [] := by
  obtain ⟨⟨connected, c'⟩, hconnect⟩ : ∃ r, c.ensure_connected a.connect = r := ⟨_, rfl⟩
  unfold execParams execParamsSent
  rw [hconnect]
  cases connected with
  | error e => exact .inl ⟨⟨e, rfl⟩, rfl⟩
  | ok =>
    dsimp only
    rw [wire_eq]
    rcases runQuery_taken c' db ⟨c_str sql.text, paramValues params, sql.command⟩ a.query with
      htaken | ⟨e, hfailed⟩
    · right
      rw [htaken]
      exact List.cons_ne_nil _ _
    · rw [hfailed]
      exact .inl ⟨⟨e, rfl⟩, rfl⟩

theorem execPrepared_sent (c : PgConnection ε) (db : List ε) (name : Str) (sql : Sql ε)
    (params : List (Option Str)) (a : PreparedAnswers) :
    ((∃ e, (c.execPrepared db name sql params a).result = .error e) ∧
        (c.execPrepared db name sql params a).carried = false) ∨
      execPreparedSent c db name sql params a ≠ [] := by
  obtain ⟨⟨connected, c'⟩, hconnect⟩ : ∃ r, c.ensure_connected a.connect = r := ⟨_, rfl⟩
  unfold execPrepared execPreparedSent
  rw [hconnect]
  cases connected with
  | error e => exact .inl ⟨⟨e, rfl⟩, rfl⟩
  | ok =>
    dsimp only
    cases hprepared : (c'.do_prepare db name sql a.prepare).result with
    | error e => exact .inl ⟨⟨e, rfl⟩, rfl⟩
    | ok =>
      dsimp only
      rw [wire_eq]
      rcases runQuery_taken (c'.do_prepare db name sql a.prepare).conn
        (c'.do_prepare db name sql a.prepare).db
        ⟨c_str name, paramValues params, sql.command⟩ a.query with htaken | ⟨e, hfailed⟩
      · right
        rw [htaken]
        exact List.append_ne_nil_of_left_ne_nil (List.cons_ne_nil _ _) _
      · obtain ⟨e', c'', -, hrun⟩ := execOrRetry_failed name sql hfailed
        rw [hrun]
        exact .inl ⟨⟨e', rfl⟩, rfl⟩

/-! ### Faithful parameters -/

/-- No value has a NUL byte. -/
def NulFree (params : List (Option Str)) : Prop := ∀ s, some s ∈ params → '\x00' ∉ s

theorem c_str_eq_iff (s : Str) : c_str s = s ↔ '\x00' ∉ s := by
  constructor
  · intro h hmem
    have hkept := List.takeWhile_eq_self_iff.mp h _ hmem
    simp at hkept
  · exact c_str_eq_self

theorem wire_eq_self (params : List (Option Str)) : wire params = params ↔ NulFree params := by
  have hmap : (params.map fun param => param.map c_str) = params.map id ↔
      ∀ param ∈ params, param.map c_str = id param := List.map_inj_left
  rw [List.map_id] at hmap
  rw [wire_eq, paramValues, hmap]
  constructor
  · intro h s hs
    exact (c_str_eq_iff s).mp (Option.some.inj (h (some s) hs))
  · intro h param hparam
    cases param with
    | none => rfl
    | some s => exact congrArg some ((c_str_eq_iff s).mpr (h s hparam))

/-- A connection that is reached, and an exchange without an error, for any parameters. -/
def preparedAnswers : PreparedAnswers where
  connect := .reached
  prepare := ExecAnswers.completed.query
  query := ExecAnswers.completed.query
  reprepare := ExecAnswers.completed.query
  retry := ExecAnswers.completed.query

def beginSql : Sql ε := ⟨"BEGIN".toList, .begin⟩

/-- What the parameters must be for every call to be faithful, whatever the state of the connection
and the answers. -/
theorem params_faithful_iff (params : List (Option Str)) :
    ((∀ (c : PgConnection ε) (db : List ε) (sql : Sql ε) (a : ExecAnswers),
        Faithful params (c.execParams db sql params a) (execParamsSent c sql params a)) ↔
      NulFree params) ∧
    ((∀ (c : PgConnection ε) (db : List ε) (name : Str) (sql : Sql ε) (a : PreparedAnswers),
        Faithful params (c.execPrepared db name sql params a)
          (execPreparedSent c db name sql params a)) ↔ NulFree params) := by
  refine ⟨⟨fun h => ?_, fun h c db sql a => ?_⟩, ⟨fun h => ?_, fun h c db name sql a => ?_⟩⟩
  · rcases h ⟨none, false, []⟩ [] beginSql .completed with ⟨⟨e, he⟩, -⟩ | ⟨hne, hvalues⟩
    · cases he
    · obtain ⟨req, hreq⟩ := List.exists_mem_of_ne_nil _ hne
      rw [← wire_eq_self, ← execParamsSent_values hreq]
      exact hvalues req hreq
  · refine (execParams_sent c db sql params a).imp id fun hne => ⟨hne, fun req hreq => ?_⟩
    rw [execParamsSent_values hreq]
    exact (wire_eq_self params).mpr h
  · rcases h ⟨none, false, []⟩ [] "q".toList beginSql preparedAnswers with
      ⟨⟨e, he⟩, -⟩ | ⟨hne, hvalues⟩
    · cases he
    · obtain ⟨req, hreq⟩ := List.exists_mem_of_ne_nil _ hne
      rw [← wire_eq_self, ← execPreparedSent_values hreq]
      exact hvalues req hreq
  · refine (execPrepared_sent c db name sql params a).imp id fun hne => ⟨hne, fun req hreq => ?_⟩
    rw [execPreparedSent_values hreq]
    exact (wire_eq_self params).mpr h

/-- A username with a NUL byte loses its end. -/
theorem params_truncated :
    (execParamsSent (ε := ℕ) ⟨none, false, []⟩ beginSql [none, some ['a', '\x00', 'b']]
        .completed).map Request.values = [[none, some ['a']]] ∧
      ¬ Faithful [none, some ['a', '\x00', 'b']]
        (PgConnection.execParams (ε := ℕ) ⟨none, false, []⟩ [] beginSql
          [none, some ['a', '\x00', 'b']] .completed)
        (execParamsSent (ε := ℕ) ⟨none, false, []⟩ beginSql [none, some ['a', '\x00', 'b']]
          .completed) := by
  have hsent : (execParamsSent (ε := ℕ) ⟨none, false, []⟩ beginSql
      [none, some ['a', '\x00', 'b']] .completed).map Request.values = [[none, some ['a']]] := by
    decide +kernel
  refine ⟨hsent, ?_⟩
  rintro (⟨⟨e, he⟩, -⟩ | ⟨hne, hvalues⟩)
  · cases he
  · obtain ⟨req, hreq⟩ := List.exists_mem_of_ne_nil _ hne
    have hread := List.mem_map_of_mem (f := Request.values) hreq
    rw [hsent, hvalues req hreq] at hread
    simp at hread

end AdequateApi.QueryParameters
