import AdequateApi.IdRegister
import AdequateApi.UserUpdateAnswers
import Mathlib.Data.List.Pairwise

/-! The users table under the statements that write to it, each carried out as a whole. Seen by
primary key it is the table of `UsersRepository`; seen by its sequence it is a register. -/
namespace AdequateApi.AccountStatements
open StdString DbConnection HttpMessages UsersRepository UsersListing AccountStore
  UserUpdateAnswers IdRegister

variable {db : AccountServer}

/-! ### UPDATE and DELETE -/

/-- The index on the address takes both rows. -/
def Apart (db : AccountServer) (u v : StoredUser) : Prop :=
  ∀ e ∈ u.row.email, ∀ f ∈ v.row.email, db.citext_equal e f = false

instance (db : AccountServer) : DecidableRel (Apart db) := fun _ _ =>
  have (e : Str) (o : Option Str) : Decidable (∀ f ∈ o, db.citext_equal e f = false) :=
    Option.decidableForallMem o
  Option.decidableForallMem _

/-- What the statement assigns, each value up to its first NUL. -/
def assigned (user : UserEntity) : List (Str × Str) := (sets user).map fun e => (e.1, c_str e.2)

def rewrite (user : UserEntity) (now : ℤ) (u : StoredUser) : StoredUser :=
  if u.id.toInt = user.id then { u with row := u.row.update (assigned user) now } else u

theorem rewrite_id (user : UserEntity) (now : ℤ) (u : StoredUser) :
    (rewrite user now u).id = u.id := by
  unfold rewrite
  split <;> rfl

/-- Every text that is assigned is valid in the encoding of the database. -/
def Encodes (db : AccountServer) (user : UserEntity) : Prop :=
  (sets user).all (fun e => db.encoded (c_str e.2)) = true

instance (db : AccountServer) (user : UserEntity) : Decidable (Encodes db user) :=
  inferInstanceAs (Decidable (_ = true))

theorem Encodes.storable {user : UserEntity} (h : Encodes db user) (column : Str)
    (value : Option Str) (hmem : (column, value) ∈ [("email".toList, user.email),
      ("username".toList, user.username), ("password".toList, user.password),
      ("picture".toList, user.picture)]) :
    ∀ v ∈ (given value).map c_str, Storable db.toPostgres v := by
  intro v hv
  obtain ⟨t, ht, rfl⟩ := Option.map_eq_some_iff.mp hv
  have hsets : (column, t) ∈ sets user := by
    unfold sets
    exact List.mem_filterMap.mpr ⟨(column, value), hmem, by rw [ht, Option.map_some]⟩
  exact ⟨not_mem_c_str t, List.all_eq_true.mp h _ hsets⟩

theorem rewrite_texts {user : UserEntity} (h : Encodes db user) (now : ℤ) {u : StoredUser}
    (hu : Storable db.toPostgres u.row.username ∧ ∀ e ∈ u.row.email, Storable db.toPostgres e) :
    Storable db.toPostgres (rewrite user now u).row.username ∧
      ∀ e ∈ (rewrite user now u).row.email, Storable db.toPostgres e := by
  unfold rewrite
  split
  · rw [assigned, Row.update_sets]
    refine ⟨?_, fun e he => ?_⟩
    · have hname := h.storable "username".toList user.username (by simp)
      cases hg : (given user.username).map c_str with
      | none => exact hu.1
      | some v => exact hname v hg
    · have hmail := h.storable "email".toList user.email (by simp)
      rcases Option.or_eq_some_iff.mp he with hnew | ⟨_, hold⟩
      · exact hmail e hnew
      · exact hu.2 e hold
  · exact hu

/-- The table with the row rewritten. -/
def rewritten (s : Accounts db) (user : UserEntity) (now : ℤ) (henc : Encodes db user)
    (hapart : (s.users.map (rewrite user now)).Pairwise (Apart db)) : Accounts db where
  users := s.users.map (rewrite user now)
  primary := by
    have hids : StoredUser.id ∘ rewrite user now = StoredUser.id := funext (rewrite_id user now)
    rw [List.map_map, hids]
    exact s.primary
  texts := by
    intro v hv
    obtain ⟨u, hu, rfl⟩ := List.mem_map.mp hv
    exact rewrite_texts henc now (s.texts u hu)
  next_id := s.next_id
  unique_email := hapart

/-- `UPDATE … RETURNING id`; a row that is not there is no error. -/
def update (s : Accounts db) (user : UserEntity) (now : ℤ) : Accounts db × QueryAnswer :=
  let refused := fun state => QueryAnswer.failed (.db (map_sqlstate state) db.complaint) none
  if henc : Encodes db user then
    if rows s user.id ≠ none ∧
        (given user.email).any (fun email => !db.index_holds (c_str email)) = true then
      (s, refused "54000".toList)
    else if hapart : (s.users.map (rewrite user now)).Pairwise (Apart db) then
      (rewritten s user now henc hapart, .done now)
    else (s, refused "23505".toList)
  else (s, refused "22021".toList)

/-- `DELETE`. -/
def delete (s : Accounts db) (id : ℤ) : Accounts db where
  users := s.users.filter fun u => u.id.toInt ≠ id
  primary := s.primary.sublist (List.filter_sublist.map StoredUser.id)
  texts := fun u hu => s.texts u (List.mem_filter.mp hu).1
  next_id := s.next_id
  unique_email := s.unique_email.filter _

/-! ### The answer of an UPDATE -/

/-- What the comparison of `citext` promises on top: it does not depend on the side. -/
def Symmetric (db : AccountServer) : Prop := ∀ e f, db.citext_equal e f = db.citext_equal f e

theorem Apart.symm (hdb : Symmetric db) {u v : StoredUser} (h : Apart db u v) : Apart db v u := by
  intro f hf e he
  rw [hdb]
  exact h e he f hf

theorem rewrite_same {user : UserEntity} {u : StoredUser} (h : u.id.toInt = user.id) (now : ℤ) :
    (rewrite user now u).row.email = ((given user.email).map c_str).or u.row.email := by
  rw [rewrite, if_pos h, assigned, Row.update_sets]

theorem rewrite_other {user : UserEntity} {u : StoredUser} (h : u.id.toInt ≠ user.id) (now : ℤ) :
    rewrite user now u = u := by
  rw [rewrite, if_neg h]

/-- The new address clashes with no other row. -/
theorem apart_of_free (hdb : Symmetric db) {s : Accounts db} {user : UserEntity} (now : ℤ)
    (hfree : ¬ ∃ email ∈ given user.email, EmailTakenBeside s user.id (c_str email)) :
    (s.users.map (rewrite user now)).Pairwise (Apart db) := by
  have hids : s.users.Pairwise fun u v => u.id ≠ v.id := List.pairwise_map.mp s.primary
  -- the rewritten row against one that keeps its values
  have hone : ∀ {u v : StoredUser}, u.id.toInt = user.id → v.id.toInt ≠ user.id →
      v ∈ s.users → Apart db u v → Apart db (rewrite user now u) v := by
    intro u v hu hv hmem hold e he f hf
    rw [rewrite_same hu] at he
    rcases Option.or_eq_some_iff.mp he with hnew | ⟨_, he⟩
    · obtain ⟨email, hemail, rfl⟩ := Option.map_eq_some_iff.mp hnew
      by_contra hne
      rw [hdb, Bool.not_eq_false] at hne
      exact hfree ⟨email, hemail, v, hmem, hv, by
        rw [Option.mem_def.mp hf]
        exact hne⟩
    · exact hold e he f hf
  refine List.pairwise_map.mpr ((hids.and s.unique_email).imp_of_mem ?_)
  rintro u v humem hvmem ⟨hne, hold⟩
  by_cases hu : u.id.toInt = user.id <;> by_cases hv : v.id.toInt = user.id
  · exact absurd (Int64.toInt_inj.mp (hu.trans hv.symm)) hne
  · rw [rewrite_other hv]
    exact hone hu hv hvmem hold
  · rw [rewrite_other hu]
    exact (hone hv hu humem (Apart.symm hdb hold)).symm hdb
  · rw [rewrite_other hu, rewrite_other hv]
    exact hold

theorem free_of_apart (hdb : Symmetric db) {s : Accounts db} {user : UserEntity} {now : ℤ}
    (hrow : rows s user.id ≠ none) (h : (s.users.map (rewrite user now)).Pairwise (Apart db)) :
    ¬ ∃ email ∈ given user.email, EmailTakenBeside s user.id (c_str email) := by
  rintro ⟨email, hemail, v, hv, hne, htaken⟩
  obtain ⟨u, hu, hid⟩ := not_not.mp (rows_none.not.mp hrow)
  obtain ⟨f, hf, hequal⟩ := Option.any_eq_true _ _ |>.mp htaken
  have huv : u ≠ v := fun heq => hne (heq ▸ hid)
  have hsymm : Std.Symm fun u v => Apart db (rewrite user now u) (rewrite user now v) :=
    ⟨fun _ _ ha => Apart.symm hdb ha⟩
  have hapart : Apart db (rewrite user now u) (rewrite user now v) :=
    (List.pairwise_map.mp h).forall hu hv huv
  rw [rewrite_other hne] at hapart
  have hnew : c_str email ∈ (rewrite user now u).row.email := by
    rw [rewrite_same hid, Option.mem_def.mp hemail]
    rfl
  have hfalse := hapart _ hnew f hf
  rw [hdb, hequal] at hfalse
  cases hfalse

/-- The statement is answered as it is when everything works. -/
theorem update_answer (hdb : Symmetric db) (s : Accounts db) (user : UserEntity) (now : ℤ) :
    (update s user now).2 = updateAnswer s user now := by
  unfold update updateAnswer updateViolation
  dsimp only
  by_cases henc : Encodes db user
  · have hall : ((sets user).all fun e => db.encoded (c_str e.2)) = true := henc
    rw [dif_pos henc, if_pos hall]
    by_cases hrow : rows s user.id = none
    · have hsame : s.users.map (rewrite user now) = s.users :=
        (List.map_congr_left fun u hu =>
          rewrite_other (fun hid => rows_none.mp hrow ⟨u, hu, hid⟩) now).trans (List.map_id _)
      have hapart : (s.users.map (rewrite user now)).Pairwise (Apart db) := by
        rw [hsame]
        exact s.unique_email
      rw [if_neg (fun h => h.1 hrow), dif_pos hapart, if_pos hrow]
    · rw [if_neg hrow]
      by_cases hindex : (given user.email).any (fun email => !db.index_holds (c_str email)) = true
      · rw [if_pos ⟨hrow, hindex⟩, if_pos hindex]
      · rw [if_neg (fun h => hindex h.2), if_neg hindex]
        by_cases hfree : ∃ email ∈ given user.email, EmailTakenBeside s user.id (c_str email)
        · rw [dif_neg (fun h => free_of_apart hdb hrow h hfree), if_pos hfree]
        · rw [dif_pos (apart_of_free hdb now hfree), if_neg hfree]
  · have hall : ¬ ((sets user).all fun e => db.encoded (c_str e.2)) = true := henc
    rw [dif_neg henc, if_neg hall]

/-! ### By primary key -/

theorem rows_append (s : Accounts db) {n : NewUser} {now : ℤ} (henc : n.Encoded db)
    (h : s.violation n = none) :
    rows (s.append n now henc h) =
      Function.update (rows s) s.nextId.toInt (some (Accounts.newRow n now)) := by
  funext id
  have hfree : rows s s.nextId.toInt = none := by
    refine rows_none.mpr fun ⟨u, hu, hid⟩ => (Accounts.violation_none h).2.1 ⟨u, hu, ?_⟩
    exact Int64.toInt_inj.mp hid
  have hfind : (s.append n now henc h).users = s.users ++ [⟨s.nextId, Accounts.newRow n now⟩] := rfl
  unfold rows at hfree ⊢
  rw [hfind, List.find?_append, Option.map_or]
  by_cases hid : id = s.nextId.toInt
  · subst hid
    rw [hfree, Function.update_self, List.find?_cons_of_pos (by simp)]
    rfl
  · rw [Function.update_of_ne hid, List.find?_cons_of_neg (by simpa using Ne.symm hid),
      List.find?_nil, Option.map_none, Option.or_none]

theorem rows_rewritten (s : Accounts db) {user : UserEntity} {now : ℤ} (henc : Encodes db user)
    (h : (s.users.map (rewrite user now)).Pairwise (Apart db)) :
    rows (rewritten s user now henc h) =
      Change.apply now (rows s) (.update (assigned user) user.id) := by
  funext id
  have hids : ((fun u : StoredUser => decide (u.id.toInt = id)) ∘ rewrite user now) =
      fun u => decide (u.id.toInt = id) := by
    funext u
    rw [Function.comp, rewrite_id]
  change ((s.users.map (rewrite user now)).find? _).map StoredUser.row = _
  rw [List.find?_map, hids, Option.map_map, Change.apply]
  cases hfind : s.users.find? fun u => decide (u.id.toInt = id) with
  | none =>
    have hrow : rows s id = none := by rw [rows, hfind, Option.map_none]
    rw [Option.map_none]
    by_cases hid : id = user.id
    · subst hid
      rw [Function.update_self, hrow, Option.map_none]
    · rw [Function.update_of_ne hid, hrow]
  | some u =>
    have hrow : rows s id = some u.row := by rw [rows, hfind, Option.map_some]
    have hu : u.id.toInt = id := by simpa using List.find?_some hfind
    rw [Option.map_some, Function.comp]
    by_cases hid : id = user.id
    · subst hid
      rw [Function.update_self, hrow, Option.map_some, rewrite, if_pos hu]
    · rw [Function.update_of_ne hid, hrow, rewrite, if_neg (hu ▸ hid)]

theorem rows_delete (s : Accounts db) (id : ℤ) (now : ℤ) :
    rows (delete s id) = Change.apply now (rows s) (.delete id) := by
  funext k
  change ((s.users.filter fun u => u.id.toInt ≠ id).find? _).map StoredUser.row = _
  rw [List.find?_filter, Change.apply]
  by_cases hk : k = id
  · subst hk
    rw [Function.update_self, Option.map_eq_none_iff, List.find?_eq_none]
    simp
  · rw [Function.update_of_ne hk, rows]
    congr 2
    funext u
    by_cases hu : u.id.toInt = k
    · simp [hu, hk]
    · simp [hu]

/-- What the answer says was carried out is what happened to the rows. -/
theorem update_rows (s : Accounts db) (user : UserEntity) (now : ℤ) :
    rows (update s user now).1 = match (update s user now).2.executed with
      | some now => Change.apply now (rows s) (.update (assigned user) user.id)
      | none => rows s := by
  unfold update
  dsimp only
  split
  · split
    · rfl
    · split
      · rename_i henc _ hapart
        exact rows_rewritten s henc hapart
      · rfl
  · rfl

/-- The repository's own table changes in step, when it is given this answer. -/
theorem update_refines (s : Accounts db) {user : UserEntity} (hsets : sets user ≠ []) (now : ℤ) :
    UsersRepository.update (rows s) user (update s user now).2 =
      (rows (update s user now).1, (update s user now).2.result) := by
  unfold UsersRepository.update
  rcases updateQuery_cases user with ⟨hnil, _⟩ | ⟨_, q, hq, hchange⟩
  · exact absurd hnil hsets
  · rw [hq, update_rows, ← show q.change = .update (assigned user) user.id from hchange]
    rfl

theorem delete_refines (s : Accounts db) (id now : ℤ) :
    UsersRepository.remove (rows s) id (.done now) = (rows (delete s id), .ok ()) := by
  rw [rows_delete s id now]
  rfl

/-! ### Statements one after another -/

/-- A statement that writes, with the time at which the server carries it out. -/
inductive Write
  | insert (n : NewUser) (now : ℤ)
  | update (user : UserEntity) (now : ℤ)
  | delete (id : ℤ)

def Write.apply (s : Accounts db) : Write → Accounts db
  | .insert n now => (s.insert n now).1
  | .update user now => (AccountStatements.update s user now).1
  | .delete id => AccountStatements.delete s id

/-- The id of a new row. -/
def Write.returned (s : Accounts db) : Write → Option Int64
  | .insert n now => (s.insert n now).2.toOption
  | _ => none

def after (s : Accounts db) (writes : List Write) : Accounts db := writes.foldl Write.apply s

/-- The ids of the new rows, in order. -/
def issued : Accounts db → List Write → List Int64
  | _, [] => []
  | s, w :: writes => (w.returned s).toList ++ issued (w.apply s) writes

/-- The table of a new database. -/
def migrated (db : AccountServer) : Accounts db where
  users := []
  primary := List.nodup_nil
  texts := fun _ h => absurd h List.not_mem_nil
  next_id := 1
  unique_email := .nil

theorem insert_cases (s : Accounts db) (n : NewUser) (now : ℤ) :
    (¬ (n.Encoded db ∧ s.next_id ≤ 9223372036854775807) ∧ ∃ e, s.insert n now = (s, .error e)) ∨
    (n.Encoded db ∧ s.next_id ≤ 9223372036854775807 ∧ s.violation n ≠ none ∧
      ∃ e, s.insert n now = (s.advance, .error e)) ∨
    ∃ (henc : n.Encoded db) (h : s.violation n = none), s.next_id ≤ 9223372036854775807 ∧
      s.insert n now = (s.append n now henc h, .ok s.nextId) := by
  unfold Accounts.insert
  dsimp only
  split
  · rename_i henc
    split
    · rename_i hseq
      exact .inl ⟨fun h => absurd h.2 (Nat.not_le.mpr hseq), _, rfl⟩
    · rename_i hseq
      right
      split
      · rename_i state hstate
        exact .inl ⟨henc, Nat.le_of_not_lt hseq, by rw [hstate]; simp, _, rfl⟩
      · rename_i hnone
        exact .inr ⟨henc, hnone, Nat.le_of_not_lt hseq, rfl⟩
  · rename_i henc
    exact .inl ⟨fun h => henc h.1, _, rfl⟩

/-- The statement adds this row, under the next id. -/
structure Adds (s : Accounts db) (w : Write) (v : StoredUser) (n : NewUser) (now : ℤ) : Prop where
  statement : w = .insert n now
  row : v = ⟨s.nextId, Accounts.newRow n now⟩
  sequence : s.next_id ≤ 9223372036854775807
  returned : w.returned s = some s.nextId
  next_id : (w.apply s).next_id = s.next_id + 1

/-- Where a row after a statement comes from. -/
theorem row_origin (s : Accounts db) (w : Write) {v : StoredUser} (hv : v ∈ (w.apply s).users) :
    v ∈ s.users ∨ (∃ n now, Adds s w v n now) ∨
      ∃ user now, w = .update user now ∧ ∃ u ∈ s.users, v = rewrite user now u := by
  cases w with
  | insert n now =>
    change v ∈ (s.insert n now).1.users at hv
    rcases insert_cases s n now with ⟨_, e, he⟩ | ⟨_, _, _, e, he⟩ | ⟨henc, h, hseq, he⟩
    · rw [he] at hv
      exact .inl hv
    · rw [he] at hv
      exact .inl hv
    · rw [he] at hv
      rcases List.mem_append.mp hv with hv | hv
      · exact .inl hv
      · refine .inr (.inl ⟨n, now, rfl, List.mem_singleton.mp hv, hseq, ?_, ?_⟩)
        · rw [Write.returned, he]
          rfl
        · rw [Write.apply, he]
          rfl
  | update user now =>
    change v ∈ (AccountStatements.update s user now).1.users at hv
    unfold AccountStatements.update at hv
    dsimp only at hv
    split at hv
    · split at hv
      · exact .inl hv
      · split at hv
        · obtain ⟨u, hu, rfl⟩ := List.mem_map.mp hv
          exact .inr (.inr ⟨user, now, rfl, u, hu, rfl⟩)
        · exact .inl hv
    · exact .inl hv
  | delete id => exact .inl (List.mem_filter.mp hv).1

/-! ### By the sequence -/

/-- What a statement does to the register of the rows. -/
def operations (s : Accounts db) : Write → List (Op Row)
  | .insert n now =>
      if n.Encoded db ∧ s.next_id ≤ 9223372036854775807 then
        if s.violation n = none then [.enter (Accounts.newRow n now)] else [.skip]
      else []
  | .update user now =>
      match (AccountStatements.update s user now).2.executed with
      | some now =>
          if 0 ≤ user.id then [.revise user.id.toNat fun r => r.update (assigned user) now] else []
      | none => []
  | .delete id => if 0 ≤ id then [.strike id.toNat] else []

def history : Accounts db → List Write → List (Op Row)
  | _, [] => []
  | s, w :: writes => operations s w ++ history (w.apply s) writes

/-- The register has the rows under their ids. -/
structure Shows (s : Accounts db) (r : Register Row) : Prop where
  next : s.next_id = r.next
  entries : ∀ n : ℕ, rows s n = r.entries n

/-- The ids of the rows are positive and behind the sequence. -/
structure Behind (s : Accounts db) : Prop where
  next_pos : 0 < s.next_id
  ids : ∀ u ∈ s.users, 0 < u.id.toInt ∧ u.id.toInt < s.next_id

theorem Behind.migrated : Behind (migrated db) :=
  ⟨Nat.one_pos, fun _ h => absurd h List.not_mem_nil⟩

def register (s : Accounts db) (h : Behind s) : Register Row where
  next := s.next_id
  entries := fun n => rows s n
  fresh := fun n hn => by
    refine rows_none.mpr ?_
    rintro ⟨u, hu, hid⟩
    have := (h.ids u hu).2
    omega

theorem shows_register {s : Accounts db} (h : Behind s) : Shows s (register s h) :=
  ⟨rfl, fun _ => rfl⟩

theorem nextId_toInt {s : Accounts db} (h : s.next_id ≤ 9223372036854775807) :
    s.nextId.toInt = s.next_id := Int64.toInt_ofNat_of_lt (by omega)

/-- A change of one number of the table. -/
theorem update_nat {α : Type} {f : ℤ → α} {g : ℕ → α} (h : ∀ n : ℕ, f n = g n) {id : ℤ}
    (hid : 0 ≤ id) (a : α) (n : ℕ) :
    Function.update f id a n = Function.update g id.toNat a n := by
  by_cases hn : n = id.toNat
  · have hcast : (n : ℤ) = id := by omega
    rw [hn, Function.update_self, ← hn, hcast, Function.update_self]
  · have hcast : (n : ℤ) ≠ id := by omega
    rw [Function.update_of_ne hn, Function.update_of_ne hcast, h]

theorem update_negative {α : Type} (f : ℤ → α) {id : ℤ} (hid : ¬ 0 ≤ id) (a : α) (n : ℕ) :
    Function.update f id a n = f n := Function.update_of_ne (by omega) _ _

/-- One statement, on the table and on the register. -/
theorem Shows.apply {s : Accounts db} {r : Register Row} (h : Shows s r) (w : Write) :
    Shows (w.apply s) (r.run (operations s w)) ∧
      (w.returned s).toList.map Int64.toInt =
        (r.numbers (operations s w)).map (Nat.cast : ℕ → ℤ) := by
  cases w with
  | insert n now =>
    simp only [Write.apply, Write.returned, operations]
    rcases insert_cases s n now with ⟨hnot, e, he⟩ | ⟨henc, hseq, hviolation, e, he⟩ |
      ⟨henc, hviolation, hseq, he⟩
    · rw [he, if_neg hnot]
      exact ⟨h, rfl⟩
    · rw [he, if_pos ⟨henc, hseq⟩, if_neg hviolation]
      exact ⟨⟨congrArg (· + 1) h.next, h.entries⟩, rfl⟩
    · rw [he, if_pos ⟨henc, hseq⟩, if_pos hviolation]
      have hid := nextId_toInt hseq
      refine ⟨⟨congrArg (· + 1) h.next, fun k => ?_⟩, ?_⟩
      · have hnat : s.nextId.toInt.toNat = r.next := by rw [hid, Int.toNat_natCast, h.next]
        rw [rows_append, update_nat h.entries (by omega), hnat]
        rfl
      · change [s.nextId.toInt] = [(r.next : ℤ)]
        rw [hid, h.next]
  | update user now =>
    have hrows := update_rows s user now
    have hnext : (AccountStatements.update s user now).1.next_id = s.next_id := by
      unfold AccountStatements.update
      dsimp only
      split
      · split
        · rfl
        · split <;> rfl
      · rfl
    simp only [Write.apply, Write.returned, operations]
    cases hx : (AccountStatements.update s user now).2.executed with
    | none =>
      rw [hx] at hrows
      exact ⟨⟨hnext.trans h.next, fun n => by rw [hrows]; exact h.entries n⟩, rfl⟩
    | some now' =>
      rw [hx] at hrows
      dsimp only at hrows ⊢
      by_cases hid : 0 ≤ user.id
      · rw [if_pos hid]
        refine ⟨⟨hnext.trans h.next, fun n => ?_⟩, rfl⟩
        have hcast : ((user.id.toNat : ℕ) : ℤ) = user.id := Int.toNat_of_nonneg hid
        have hrow : rows s user.id = r.entries user.id.toNat := by rw [← h.entries, hcast]
        rw [hrows, Change.apply, update_nat h.entries hid, hrow]
        rfl
      · rw [if_neg hid]
        refine ⟨⟨hnext.trans h.next, fun n => ?_⟩, rfl⟩
        rw [hrows, Change.apply, update_negative _ hid]
        exact h.entries n
  | delete id =>
    simp only [Write.apply, Write.returned, operations]
    by_cases hid : 0 ≤ id
    · rw [if_pos hid]
      refine ⟨⟨h.next, fun n => ?_⟩, rfl⟩
      rw [rows_delete s id 0, Change.apply, update_nat h.entries hid]
      rfl
    · rw [if_neg hid]
      refine ⟨⟨h.next, fun n => ?_⟩, rfl⟩
      rw [rows_delete s id 0, Change.apply, update_negative _ hid]
      exact h.entries n

/-- A run of statements is a run of the register, and gives out the same numbers. -/
theorem Shows.after {s : Accounts db} {r : Register Row} (h : Shows s r) (writes : List Write) :
    Shows (after s writes) (r.run (history s writes)) ∧
      (issued s writes).map Int64.toInt =
        (r.numbers (history s writes)).map (Nat.cast : ℕ → ℤ) := by
  induction writes generalizing s r with
  | nil => exact ⟨h, rfl⟩
  | cons w writes ih =>
    obtain ⟨hw, hnumbers⟩ := h.apply w
    obtain ⟨hrest, hissued⟩ := ih hw
    refine ⟨?_, ?_⟩
    · rw [history, Register.run_append]
      exact hrest
    · rw [issued, history, Register.numbers_append, List.map_append, List.map_append, hnumbers,
        hissued]

/-! ### Ids are given out once -/

theorem apply_next_le (s : Accounts db) (w : Write) : s.next_id ≤ (w.apply s).next_id := by
  cases w with
  | insert n now =>
    change s.next_id ≤ (s.insert n now).1.next_id
    rcases insert_cases s n now with ⟨_, e, he⟩ | ⟨_, _, _, e, he⟩ | ⟨_, _, _, he⟩
    · rw [he]
    · rw [he]
      exact Nat.le_succ _
    · rw [he]
      exact Nat.le_succ _
  | update user now =>
    change s.next_id ≤ (AccountStatements.update s user now).1.next_id
    unfold AccountStatements.update
    dsimp only
    split
    · split
      · exact Nat.le_refl _
      · split <;> exact Nat.le_refl _
    · exact Nat.le_refl _
  | delete id => exact Nat.le_refl _

theorem Behind.apply {s : Accounts db} (h : Behind s) (w : Write) : Behind (w.apply s) := by
  have hle := apply_next_le s w
  refine ⟨Nat.lt_of_lt_of_le h.next_pos hle, fun v hv => ?_⟩
  rcases row_origin s w hv with hv | ⟨n, now, ha⟩ | ⟨user, now, rfl, u, hu, rfl⟩
  · have := h.ids v hv
    omega
  · have := h.next_pos
    rw [ha.row, ha.next_id, nextId_toInt ha.sequence]
    omega
  · rw [rewrite_id]
    have := h.ids u hu
    omega

theorem Behind.after {s : Accounts db} (h : Behind s) (writes : List Write) :
    Behind (after s writes) := by
  induction writes generalizing s with
  | nil => exact h
  | cons w writes ih => exact ih (h.apply w)

theorem mem_of_rows {s : Accounts db} {id : ℤ} {row : Row} (h : rows s id = some row) :
    ∃ u ∈ s.users, u.id.toInt = id ∧ u.row = row := by
  obtain ⟨u, hu, hrow⟩ := Option.map_eq_some_iff.mp h
  exact ⟨u, List.mem_of_find?_eq_some hu, by simpa using List.find?_some hu, hrow⟩

theorem rows_of_mem {s : Accounts db} {u : StoredUser} (hu : u ∈ s.users) :
    rows s u.id.toInt = some u.row := by
  cases hrow : rows s u.id.toInt with
  | none => exact absurd ⟨u, hu, rfl⟩ (rows_none.mp hrow)
  | some row =>
    obtain ⟨v, hv, hid, rfl⟩ := mem_of_rows hrow
    rw [List.inj_on_of_nodup_map s.primary hv hu (Int64.toInt_inj.mp hid)]

theorem update_created_at (r : Row) (user : UserEntity) (now : ℤ) :
    (r.update (assigned user) now).created_at = r.created_at := by
  rw [assigned, Row.update_sets]

/-- No statement changes when a row was created. -/
theorem operations_keep (s : Accounts db) (w : Write) :
    ∀ op ∈ operations s w, op.Keeps Row.created_at := by
  cases w with
  | insert n now =>
    simp only [operations]
    split
    · split
      · exact List.forall_mem_singleton.mpr trivial
      · exact List.forall_mem_singleton.mpr trivial
    · exact fun _ h => absurd h List.not_mem_nil
  | update user now =>
    simp only [operations]
    split
    · split
      · exact List.forall_mem_singleton.mpr fun r => update_created_at r user _
      · exact fun _ h => absurd h List.not_mem_nil
    · exact fun _ h => absurd h List.not_mem_nil
  | delete id =>
    simp only [operations]
    split
    · exact List.forall_mem_singleton.mpr trivial
    · exact fun _ h => absurd h List.not_mem_nil

theorem history_keeps (s : Accounts db) (writes : List Write) :
    ∀ op ∈ history s writes, op.Keeps Row.created_at := by
  induction writes generalizing s with
  | nil => exact fun _ h => absurd h List.not_mem_nil
  | cons w writes ih =>
    intro op hop
    rcases List.mem_append.mp hop with hop | hop
    · exact operations_keep s w op hop
    · exact ih _ op hop

/-- A row whose id was given out before was there all the time since, and is still the same
account. -/
theorem row_kept {s : Accounts db} (h : Behind s) (writes : List Write) {id : ℤ}
    (hid : id < s.next_id) {row : Row} (hrow : rows (after s writes) id = some row) :
    ∃ old, rows s id = some old ∧ old.created_at = row.created_at := by
  obtain ⟨u, hu, rfl, _⟩ := mem_of_rows hrow
  obtain ⟨k, hk⟩ := Int.eq_ofNat_of_zero_le ((h.after writes).ids u hu).1.le
  obtain ⟨hshows, _⟩ := (shows_register h).after writes
  rw [hk] at hid hrow ⊢
  rw [hshows.entries] at hrow
  exact Register.run_keeps (by exact_mod_cast hid) (history_keeps s writes) hrow

theorem id_issued {s : Accounts db} {writes : List Write} {u : StoredUser}
    (hu : u ∈ (after s writes).users) :
    (∃ v ∈ s.users, v.id = u.id) ∨ u.id ∈ issued s writes := by
  induction writes generalizing s with
  | nil => exact .inl ⟨u, hu, rfl⟩
  | cons w writes ih =>
    rcases ih hu with ⟨v, hv, hid⟩ | hlater
    · rcases row_origin s w hv with hv | ⟨n, now, ha⟩ | ⟨user, now, rfl, u', hu', rfl⟩
      · exact .inl ⟨v, hv, hid⟩
      · refine .inr (List.mem_append.mpr (.inl ?_))
        rw [ha.returned, ← hid, ha.row]
        exact List.mem_singleton.mpr rfl
      · exact .inl ⟨u', hu', by rw [← hid, rewrite_id]⟩
    · exact .inr (List.mem_append.mpr (.inr hlater))

/-- Every new row gets a larger id than all before it, and the rows that are there are among
the new ones of the run. -/
theorem ids_given_out_once (db : AccountServer) (writes : List Write) :
    (issued (migrated db) writes).Pairwise (fun id later => id.toInt < later.toInt) ∧
      ∀ u ∈ (after (migrated db) writes).users, u.id ∈ issued (migrated db) writes := by
  refine ⟨?_, fun u hu => ?_⟩
  · have hstart : Behind (migrated db) := Behind.migrated
    obtain ⟨_, hissued⟩ := (shows_register hstart).after writes
    have hnumbers : ((issued (migrated db) writes).map Int64.toInt).Pairwise (· < ·) := by
      rw [hissued, List.pairwise_map]
      exact (Register.numbers_increasing _ _).imp fun h => by exact_mod_cast h
    exact List.pairwise_map.mp hnumbers
  · exact (id_issued hu).resolve_left fun ⟨v, hv, _⟩ => absurd hv List.not_mem_nil

end AdequateApi.AccountStatements
