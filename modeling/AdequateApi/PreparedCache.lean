import AdequateApi.DbConnectionSpec
import AdequateApi.TransitionRuns

/-! The names that a `PgConnection` takes for prepared, over all sequences of its calls. `close`
leaves them as they are, so they are only compared with the server while the object is healthy. -/
namespace AdequateApi.PreparedCache
open StdString SessionServer DbConnection PgConnection TransitionRuns

variable {ε : Type} {c : PgConnection ε} {db : List ε}

/-- Every cached name is a statement of the session that the present handle has opened. The
server knows it by its C string. -/
def Sound (c : PgConnection ε) : Prop :=
  ∀ k, c.conn = some k → k.status = .CONNECTION_OK →
    ∀ name ∈ c.prepared, c_str name ∈ k.session.prepared

/-- The session of a live handle has the statement. -/
def Known (c : PgConnection ε) (name : Str) : Prop :=
  ∃ k, c.conn = some k ∧ k.status = .CONNECTION_OK ∧ c_str name ∈ k.session.prepared

/-! ### One call -/

theorem sound_of_closed (h : c.conn = none) : Sound c := by
  intro k hk
  rw [h] at hk
  cases hk

theorem sound_of_unhealthy (h : c.healthy = false) : Sound c := by
  intro k hk hstatus
  have hhealthy := (healthy_iff c).mpr ⟨k, hk, hstatus⟩
  rw [h] at hhealthy
  cases hhealthy

/-- A new session starts without statements, and the names of earlier ones are cleared. -/
theorem sound_connected : Sound (connected : PgConnection ε) := by
  intro k _ _ name hname
  cases hname

/-- A session does not lose statements. -/
theorem prepared_subset_execute (s : Session ε Str) (cmd : Command ε Str) :
    s.prepared ⊆ (s.execute cmd).1.prepared := by
  cases cmd <;> cases hb : s.block <;> simp [Session.execute, hb]

theorem Sound.connect (h : Sound c) (a : ConnectAnswers) : Sound (c.connect a).2 := by
  cases hh : c.healthy with
  | true => simpa [PgConnection.connect, hh] using h
  | false =>
    rcases connect_cases c a hh with hc | ⟨e, c', hc, hdown⟩
    · rw [hc]
      exact sound_connected
    · rw [hc]
      exact sound_of_unhealthy hdown

theorem Sound.ensure_connected (h : Sound c) (a : ConnectAnswers) :
    Sound (c.ensure_connected a).2 := by
  unfold PgConnection.ensure_connected
  split
  · exact h.connect a
  · exact h

theorem Sound.runQuery (h : Sound c) (db : List ε) (req : Request ε) (a : Answers) :
    Sound (runQueryWithTimeout c db req a).conn := by
  rcases runQuery_cases c db req a with ⟨k, out, hk, hs, _, hr⟩ | ⟨e, hr⟩ | ⟨k, e, _, hr⟩
  · rw [hr]
    rintro _ ⟨⟩ _ name hname
    exact prepared_subset_execute _ _ (h k hk hs name hname)
  · rw [hr]
    exact sound_of_closed rfl
  · rw [hr]
    exact sound_of_closed rfl

/-- After `do_prepare` has returned, a live session has the statement, and the cache is sound.
The name is also entered on an error that says "already exists", but then the object is closed. -/
theorem Sound.do_prepare (h : Sound c) (db : List ε) (name : Str) (sql : Sql ε) (a : Answers) :
    Sound (c.do_prepare db name sql a).conn ∧
      ((c.do_prepare db name sql a).result = .ok () →
        ∀ k, (c.do_prepare db name sql a).conn.conn = some k → k.status = .CONNECTION_OK →
          c_str name ∈ k.session.prepared) := by
  unfold PgConnection.do_prepare
  by_cases hname : name ∈ c.prepared
  · rw [if_pos hname]
    exact ⟨h, fun _ k hk hs => h k hk hs name hname⟩
  rw [if_neg hname]
  rcases runQuery_cases c db ⟨c_str sql.text, [], .prepare (c_str name)⟩ a
    with ⟨k, out, hk, hs, _, hr⟩ | ⟨e, hr⟩ | ⟨k, e, _, hr⟩
  · rw [hr]
    have hnew : c_str name ∈ (k.session.execute (.prepare (c_str name))).1.prepared :=
      List.mem_cons_self
    constructor
    · rintro _ ⟨⟩ _ other hother
      rcases List.mem_cons.mp hother with rfl | hother
      · exact hnew
      · exact prepared_subset_execute _ _ (h k hk hs other hother)
    · rintro _ _ ⟨⟩ _
      exact hnew
  all_goals
    rw [hr]
    dsimp only
    split
    · exact ⟨sound_of_closed rfl, fun _ k hk => nomatch hk⟩
    · exact ⟨sound_of_closed rfl, fun _ k hk => nomatch hk⟩

theorem Sound.execOrRetry (h : Sound c) (db : List ε) (name : Str) (sql : Sql ε)
    (req : Request ε) (a : PreparedAnswers) : Sound (c.execOrRetry db name sql req a).conn := by
  unfold PgConnection.execOrRetry
  have hfirst := h.runQuery db req a.query
  generalize runQueryWithTimeout c db req a.query = r at hfirst ⊢
  dsimp only
  split
  · exact hfirst
  split
  · have herased : Sound { r.conn with prepared := r.conn.prepared.filter (· ≠ name) } :=
      fun k hk hs other hother => hfirst k hk hs other (List.mem_filter.mp hother).1
    have hagain := (herased.do_prepare r.db name sql a.reprepare).1
    split
    · exact hagain
    · exact hagain.runQuery _ req a.retry
  · exact hfirst

theorem Sound.execParams (h : Sound c) (db : List ε) (sql : Sql ε) (params : List (Option Str))
    (a : ExecAnswers) : Sound (c.execParams db sql params a).conn := by
  unfold PgConnection.execParams
  have hready := h.ensure_connected a.connect
  split
  · rename_i hc
    rwa [hc] at hready
  · rename_i hc
    rw [hc] at hready
    exact hready.runQuery db _ a.query

theorem Sound.execPrepared (h : Sound c) (db : List ε) (stmtName : Str) (sql : Sql ε)
    (params : List (Option Str)) (a : PreparedAnswers) :
    Sound (c.execPrepared db stmtName sql params a).conn := by
  unfold PgConnection.execPrepared
  have hready := h.ensure_connected a.connect
  split
  · rename_i hc
    rwa [hc] at hready
  · rename_i c' hc
    rw [hc] at hready
    have hprepared := (hready.do_prepare db stmtName sql a.prepare).1
    dsimp only
    split
    · exact hprepared
    · exact hprepared.execOrRetry _ stmtName sql _ a

/-! ### All sequences of calls -/

/-- A call, or the loss of the connection, which libpq notices between two calls. What it notices
during a call is among the answers. -/
inductive Event (ε : Type)
  | connect (a : ConnectAnswers)
  | execParams (sql : Sql ε) (params : List (Option Str)) (a : ExecAnswers)
  | execPrepared (stmtName : Str) (sql : Sql ε) (params : List (Option Str)) (a : PreparedAnswers)
  | lost

def lose (c : PgConnection ε) : PgConnection ε :=
  { c with conn := c.conn.map fun k => { k with status := .CONNECTION_BAD } }

/-- The object and the store after an event; every event is possible at any time. -/
def step (s : PgConnection ε × List ε) : Event ε → Option (PgConnection ε × List ε)
  | .connect a => some ((s.1.connect a).2, s.2)
  | .execParams sql params a =>
      let r := s.1.execParams s.2 sql params a
      some (r.conn, r.db)
  | .execPrepared stmtName sql params a =>
      let r := s.1.execPrepared s.2 stmtName sql params a
      some (r.conn, r.db)
  | .lost => some (lose s.1, s.2)

/-- The states that a new object reaches. -/
abbrev Reached (db : List ε) (events : List (Event ε)) (s : PgConnection ε × List ε) : Prop :=
  Runs step (fun _ _ => True) (create, db) events s

theorem sound_lose (c : PgConnection ε) : Sound (lose c) := by
  intro k hk hs
  obtain ⟨k', _, rfl⟩ := Option.map_eq_some_iff.mp hk
  cases hs

theorem Sound.step {s t : PgConnection ε × List ε} {e : Event ε} (h : Sound s.1)
    (hstep : step s e = some t) : Sound t.1 := by
  cases e with
  | connect a =>
    obtain rfl := Option.some.inj hstep
    exact h.connect a
  | execParams sql params a =>
    obtain rfl := Option.some.inj hstep
    exact h.execParams s.2 sql params a
  | execPrepared stmtName sql params a =>
    obtain rfl := Option.some.inj hstep
    exact h.execPrepared s.2 stmtName sql params a
  | lost =>
    obtain rfl := Option.some.inj hstep
    exact sound_lose s.1

theorem sound_of_reached {events : List (Event ε)} {s : PgConnection ε × List ε}
    (h : Reached db events s) : Sound s.1 := by
  induction h with
  | start => exact sound_of_closed rfl
  | snoc _ _ hn ih => exact ih.step hn

theorem Sound.known (h : Sound c) (hh : c.healthy = true) {name : Str} (hname : name ∈ c.prepared) :
    Known c name := by
  obtain ⟨k, hk, hs⟩ := (healthy_iff c).mp hh
  exact ⟨k, hk, hs, h k hk hs name hname⟩

theorem healthy_of_connected {a : ConnectAnswers} (h : (c.ensure_connected a).1 = .ok ()) :
    (c.ensure_connected a).2.healthy = true := by
  rcases ensure_connected_cases c a with hc | ⟨e, c', hc, _⟩
  · rw [hc]
    unfold ready
    split
    · assumption
    · rfl
  · rw [hc] at h
    cases h

/-- While the object is healthy the cache holds nothing from another session. `execPrepared` looks
the name up after `ensure_connected` (before a retry it has erased the name), and what it executes
is known to the session. -/
structure CacheSound (c : PgConnection ε) : Prop where
  names : c.healthy = true → ∀ name ∈ c.prepared, Known c name
  skipped : ∀ stmtName a, (c.ensure_connected a).1 = .ok () →
    stmtName ∈ (c.ensure_connected a).2.prepared → Known (c.ensure_connected a).2 stmtName
  executed : ∀ db stmtName sql a b, (c.ensure_connected a).1 = .ok () →
    ((c.ensure_connected a).2.do_prepare db stmtName sql b).result = .ok () →
    ((c.ensure_connected a).2.do_prepare db stmtName sql b).conn.healthy = true →
      Known ((c.ensure_connected a).2.do_prepare db stmtName sql b).conn stmtName

/-- Names of an earlier session stay behind only until the next successful `connect`. -/
theorem prepared_cache_sound {events : List (Event ε)} {s : PgConnection ε × List ε}
    (h : Reached db events s) : CacheSound s.1 := by
  have hsound := sound_of_reached h
  refine ⟨fun hh _ hname => hsound.known hh hname, fun stmtName a hok hname => ?_,
    fun db' stmtName sql a b hok hprepared hh => ?_⟩
  · exact (hsound.ensure_connected a).known (healthy_of_connected hok) hname
  · obtain ⟨k, hk, hs⟩ := (healthy_iff _).mp hh
    have hready := hsound.ensure_connected a
    exact ⟨k, hk, hs, (hready.do_prepare db' stmtName sql b).2 hprepared k hk hs⟩

/-- Nothing goes wrong during one call. -/
def smoothAnswers : PreparedAnswers :=
  ⟨.reached, ExecAnswers.completed.query, ExecAnswers.completed.query,
    ExecAnswers.completed.query, ExecAnswers.completed.query⟩

/-- A statement is prepared, the connection is lost, and another statement is prepared in the new
session. -/
def lostAndBack : List (Event ℕ) :=
  [.execPrepared "a".toList ⟨"SELECT 1".toList, .data []⟩ [] smoothAnswers, .lost,
    .execPrepared "b".toList ⟨"SELECT 2".toList, .data []⟩ [] smoothAnswers]

def backAgain : PgConnection ℕ := ⟨some ⟨.CONNECTION_OK, none, none, ["b".toList]⟩, true,
  ["b".toList]⟩

theorem prepared_cache_sound_back : CacheSound backAgain := by
  have hreached : Reached [] lostAndBack (backAgain, []) :=
    .snoc (.snoc (.snoc .start trivial rfl) trivial rfl) trivial rfl
  exact prepared_cache_sound hreached

end AdequateApi.PreparedCache
