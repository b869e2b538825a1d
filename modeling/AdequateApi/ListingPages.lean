import AdequateApi.AccountCalls
import AdequateApi.PagedWalk

/-! `GET /users` page after page, by a filter that looks at ids only, while other requests come
in between: a walk over the ids of the table. -/
namespace AdequateApi.ListingPages
open StdString DbConnection HttpMessages PostgresSelect UserFilters UsersRepository UsersListing
  AdequateApi.UsersService AdequateApi.UsersController UsersIndex AccountStore AccountServices
  AccountCreation AccountStatements AccountCalls PagedWalk

variable {db : AccountServer}

/-! ### The ids of the table -/

/-- The rows are in the order of their ids, behind the sequence. -/
structure Ordered (s : Accounts db) : Prop extends Behind s where
  ordered : (s.users.map StoredUser.id).Pairwise fun i j => i.toInt < j.toInt

theorem Ordered.migrated : Ordered (migrated db) := ⟨Behind.migrated, .nil⟩

/-- The ids after a statement: the same, one more behind them, or one less. -/
inductive Ids (s : Accounts db) : Write → List Int64 → Prop
  | same (w : Write) : Ids s w (s.users.map StoredUser.id)
  | added (n : NewUser) (now : ℤ) (h : s.next_id ≤ 9223372036854775807) :
      Ids s (.insert n now) (s.users.map StoredUser.id ++ [s.nextId])
  | removed (id : ℤ) :
      Ids s (.delete id) ((s.users.filter fun u => u.id.toInt ≠ id).map StoredUser.id)

theorem apply_ids (s : Accounts db) (w : Write) :
    Ids s w ((w.apply s).users.map StoredUser.id) := by
  cases w with
  | insert n now =>
    change Ids s _ ((s.insert n now).1.users.map StoredUser.id)
    rcases insert_cases s n now with ⟨_, e, he⟩ | ⟨_, _, _, e, he⟩ | ⟨henc, h, hseq, he⟩
    · rw [he]
      exact .same _
    · rw [he]
      exact .same _
    · have husers : (s.append n now henc h).users =
          s.users ++ [⟨s.nextId, Accounts.newRow n now⟩] := rfl
      rw [he, husers, List.map_append]
      exact .added n now hseq
  | update user now =>
    change Ids s _ ((AccountStatements.update s user now).1.users.map StoredUser.id)
    unfold AccountStatements.update
    dsimp only
    split
    · split
      · exact .same _
      · split
        · have hids : (s.users.map (rewrite user now)).map StoredUser.id =
              s.users.map StoredUser.id := by
            rw [List.map_map]
            exact List.map_congr_left fun u _ => rewrite_id user now u
          rw [rewritten, hids]
          exact .same _
        · exact .same _
    · exact .same _
  | delete id => exact .removed id

theorem Ordered.id_lt {s : Accounts db} (h : Ordered s) {i : Int64}
    (hi : i ∈ s.users.map StoredUser.id) : i.toInt < s.next_id := by
  obtain ⟨u, hu, rfl⟩ := List.mem_map.mp hi
  exact (h.ids u hu).2

theorem Ordered.apply {s : Accounts db} (h : Ordered s) (w : Write) : Ordered (w.apply s) := by
  refine ⟨h.toBehind.apply w, ?_⟩
  have hids := apply_ids s w
  generalize (w.apply s).users.map StoredUser.id = ids at hids ⊢
  cases hids with
  | same => exact h.ordered
  | added n now hseq =>
    refine List.pairwise_append.mpr ⟨h.ordered, List.pairwise_singleton _ _, fun i hi j hj => ?_⟩
    rw [List.mem_singleton.mp hj, nextId_toInt hseq]
    exact h.id_lt hi
  | removed id => exact h.ordered.sublist (List.filter_sublist.map _)

/-! ### A filter that looks at ids only -/

structure ById (f : UserListFilter) : Prop where
  username : f.username = none
  usernames : f.username__in = none
  email : f.email = none

/-- The filter asks for this id; an empty list asks for every id. -/
def Asked (f : UserListFilter) (id : Int64) : Prop :=
  (∀ i ∈ f.id, id = i) ∧ ∀ ids ∈ f.id__in, ids ≠ [] → id ∈ ids

instance (f : UserListFilter) : DecidablePred (Asked f) := fun _ =>
  @instDecidableAnd _ _ (Option.decidableForallMem f.id) (Option.decidableForallMem f.id__in)

theorem ById.accepted {f : UserListFilter} (h : ById f) (pg : Postgres) : Accepted pg f := by
  refine ⟨fun names hn => ?_, fun name hn => ?_, fun email he => ?_⟩
  · rw [h.usernames] at hn
    cases hn
  · rw [h.username] at hn
    cases hn
  · rw [h.email] at he
    cases he

theorem ById.arrives_iff {pg : Postgres} (hpg : pg.Documented) {f : UserListFilter} (h : ById f)
    (u : StoredUser) : Arrives pg f u ↔ Asked f u.id := by
  rw [UsersListing.arrives_iff hpg (h.accepted pg)]
  constructor
  · exact fun hu => ⟨hu.id, hu.ids⟩
  · rintro ⟨hid, hids⟩
    refine ⟨hid, hids, fun names hn => ?_, fun name hn => ?_, fun email he => ?_⟩
    · rw [h.usernames] at hn
      cases hn
    · rw [h.username] at hn
      cases hn
    · rw [h.email] at he
      cases he

/-- The ids that the filter asks for. -/
def keysOf (f : UserListFilter) (s : Accounts db) (h : Ordered s) : Keys ℤ where
  keys := ((s.users.map StoredUser.id).filter fun i => Asked f i).map Int64.toInt
  bound := s.next_id
  sorted := List.pairwise_map.mpr (h.ordered.sublist List.filter_sublist)
  below := fun k hk => by
    obtain ⟨i, hi, rfl⟩ := List.mem_map.mp hk
    exact h.id_lt (List.mem_filter.mp hi).1

theorem apply_grown (f : UserListFilter) {s : Accounts db} (h : Ordered s) (w : Write) :
    Grown (keysOf f s h) (keysOf f (w.apply s) (h.apply w)) := by
  refine ⟨Int.ofNat_le.mpr (apply_next_le s w), ?_⟩
  have hids := apply_ids s w
  simp only [keysOf]
  generalize (w.apply s).users.map StoredUser.id = ids at hids ⊢
  cases hids with
  | same => exact ⟨_, [], (List.append_nil _).symm, List.Sublist.refl _, by simp⟩
  | added n now hseq =>
    rw [List.filter_append, List.map_append]
    refine ⟨_, _, rfl, List.Sublist.refl _, fun k hk => ?_⟩
    obtain ⟨i, hi, rfl⟩ := List.mem_map.mp hk
    rw [List.mem_singleton.mp (List.mem_filter.mp hi).1, nextId_toInt hseq]
  | removed id =>
    exact ⟨_, [], (List.append_nil _).symm,
      ((List.filter_sublist.map _).filter _).map _, by simp⟩

theorem apply_extended (f : UserListFilter) {s : Accounts db} (h : Ordered s) {w : Write}
    (hkeeps : ∀ id, w ≠ .delete id) :
    Extended (keysOf f s h) (keysOf f (w.apply s) (h.apply w)) := by
  have hids := apply_ids s w
  refine ⟨?_⟩
  simp only [keysOf]
  generalize (w.apply s).users.map StoredUser.id = ids at hids ⊢
  cases hids with
  | same => exact List.prefix_rfl
  | added n now hseq =>
    rw [List.filter_append, List.map_append]
    exact List.prefix_append _ _
  | removed id => exact absurd rfl (hkeeps id)

theorem Ordered.after {s : Accounts db} (h : Ordered s) (writes : List Write) :
    Ordered (after s writes) := by
  induction writes generalizing s with
  | nil => exact h
  | cons w writes ih => exact ih (h.apply w)

theorem after_grown (f : UserListFilter) {s : Accounts db} (h : Ordered s) (writes : List Write) :
    Grown (keysOf f s h) (keysOf f (after s writes) (h.after writes)) := by
  induction writes generalizing s with
  | nil => exact .refl _
  | cons w writes ih => exact (apply_grown f h w).trans (ih (h.apply w))

theorem after_extended (f : UserListFilter) {s : Accounts db} (h : Ordered s) {writes : List Write}
    (hkeeps : ∀ w ∈ writes, ∀ id, w ≠ .delete id) :
    Extended (keysOf f s h) (keysOf f (after s writes) (h.after writes)) := by
  induction writes generalizing s with
  | nil => exact .refl _
  | cons w writes ih =>
    obtain ⟨hw, hwrites⟩ := List.forall_mem_cons.mp hkeeps
    exact (apply_extended f h hw).trans (ih (h.apply w) hwrites)

/-! ### The pages -/

theorem entities_ids {pg : Postgres} {users : List StoredUser} {found : List ListedUser}
    (h : entities (users.map (rowOf pg)) = .ok found) :
    found.map (fun u => u.id) = users.map fun u => u.id.toInt := by
  induction users generalizing found with
  | nil =>
    cases h
    rfl
  | cons u users ih =>
    rw [List.map_cons, entities] at h
    by_cases hu : Readable pg u
    · obtain ⟨t, t', hcreated, hupdated⟩ := hu
      rw [entityOf_readable hcreated hupdated] at h
      cases hr : entities (users.map (rowOf pg)) with
      | error e =>
        rw [hr] at h
        cases h
      | ok rest =>
        rw [hr] at h
        cases h
        rw [List.map_cons, List.map_cons, ih hr]
        rfl
    · obtain ⟨e, he⟩ := entityOf_unreadable hu
      rw [he] at h
      cases h

/-- The listing with this window. -/
def pageFilter (f : UserListFilter) (n i : ℕ) : UserListFilter :=
  { f with limit := some n, offset := some (i * n) }

theorem page_ids {f : UserListFilter} (hdb : db.toPostgres.Documented) (hf : ById f)
    {s : Accounts db} (hs : Ordered s) (m i : ℕ) :
    (UsersListing.page (Arrives db.toPostgres f)
        { f with limit := some m, offset := some i } s.users).map (fun u => u.id.toInt) =
      (((keysOf f s hs).keys).drop i).take m := by
  have hfilter : (s.users.filter fun u => Arrives db.toPostgres f u) =
      s.users.filter fun u => Asked f u.id :=
    List.filter_congr fun u _ => decide_eq_decide.mpr (hf.arrives_iff hdb u)
  have hsorted : (s.users.filter fun u => Asked f u.id).Pairwise
      fun u v => u.id.toInt ≤ v.id.toInt :=
    ((List.pairwise_map.mp hs.ordered).sublist List.filter_sublist).imp fun h => h.le
  have hsort : ((s.users.filter fun u => Asked f u.id).mergeSort
      fun u v => u.id.toInt ≤ v.id.toInt) = s.users.filter fun u => Asked f u.id :=
    List.mergeSort_of_pairwise (hsorted.imp fun h => decide_eq_true h)
  unfold UsersListing.page
  rw [hfilter, hsort]
  simp only [window, Option.getD_some, List.map_take, List.map_drop, keysOf, List.filter_map,
    List.map_map]
  rfl

/-- The ids of the users in the body of an answer. -/
def bodyIds : Outcome → List ℤ
  | .json ⟨.arr users, _, _, _⟩ => users.filterMap fun user =>
      match member user "id".toList with
      | some (.int id) => some id
      | _ => none
  | _ => []

theorem bodyIds_users (users : List UserSerializer) (status : ℕ) (keepAlive : Bool) (indent : ℤ) :
    bodyIds (.json ⟨.arr (users.map UserSerializer.to_json), status, keepAlive, indent⟩) =
      users.map UserSerializer.id := by
  have hid : ∀ user : UserSerializer,
      member (UserSerializer.to_json user) "id".toList = some (.int user.id) := fun _ => rfl
  simp only [bodyIds, List.filterMap_map, Function.comp_def, hid]
  exact congrFun List.filterMap_eq_map users

section walk
variable {app : Application} {urls : Str → Option (List (Str × Str))} {f : UserListFilter}
  {n i : ℕ} {s : Accounts app.db} {request : Request}

/-- What `UsersController::index` answers. -/
def indexAt (app : Application) (urls : Str → Option (List (Str × Str))) (s : Accounts app.db)
    (request : Request) : Except Exn Outcome :=
  index app.toServices (runQuery app.db.toPostgres s.toUsersTable) urls request

/-- The parameters of the request are those of the filter with this page as window, and the
offset is one that the service binds. -/
structure AsksPage (urls : Str → Option (List (Str × Str))) (f : UserListFilter) (n i : ℕ)
    (request : Request) : Prop where
  parsed : parseRequestQuery noFilter (Request.query urls request) = .ok (pageFilter f n i)
  offset : i * n < 2147483648

theorem index_ids (hdb : app.db.toPostgres.Documented) (hf : ById f) (hs : Ordered s)
    (hasks : AsksPage urls f n i request) {outcome : Outcome}
    (h : indexAt app urls s request = .ok outcome) :
    bodyIds outcome = ((keysOf f s hs).keys.drop (i * n)).take (clampLimit (some n)) := by
  have hlist : getList (runQuery app.db.toPostgres s.toUsersTable) (limited (pageFilter f n i)) =
      entities ((UsersListing.page (Arrives app.db.toPostgres f)
        (limited (pageFilter f n i)) s.users).map (rowOf app.db.toPostgres)) :=
    getList_accepted hdb ((hf.accepted _).window _ _) s.toUsersTable (limited_le _) fun m hm =>
      Option.some.inj hm ▸ hasks.offset
  rw [indexAt, index_eq _ _ hasks.parsed, hlist] at h
  cases hfound : entities ((UsersListing.page (Arrives app.db.toPostgres f)
      (limited (pageFilter f n i)) s.users).map (rowOf app.db.toPostgres)) with
  | error e =>
    rw [hfound] at h
    cases h
  | ok found =>
    rw [hfound] at h
    cases h
    have hids := entities_ids hfound
    rw [show limited (pageFilter f n i) =
      { f with limit := some (clampLimit (some n)), offset := some (i * n) } from rfl,
      page_ids hdb hf hs] at hids
    rw [bodyIds_users, List.map_map, ← hids]
    rfl

/-- A client asks for a page, and for the next ones after the calls that run before each. -/
def pages (app : Application) (urls : Str → Option (List (Str × Str))) :
    Accounts app.db → Request → List (List Call × Request) → List (Except Exn Outcome)
  | s, request, [] => [indexAt app urls s request]
  | s, request, (calls, next) :: later =>
      indexAt app urls s request :: pages app urls (afterCalls app s calls) next later

/-- The requests ask for the pages from the `i`th on, in order. -/
def AsksPages (urls : Str → Option (List (Str × Str))) (f : UserListFilter) (n : ℕ) :
    ℕ → Request → List (List Call × Request) → Prop
  | i, request, [] => AsksPage urls f n i request
  | i, request, (_, next) :: later =>
      AsksPage urls f n i request ∧ AsksPages urls f n (i + 1) next later

theorem AsksPages.first {later : List (List Call × Request)}
    (h : AsksPages urls f n i request later) : AsksPage urls f n i request := by
  cases later with
  | nil => exact h
  | cons step later => exact h.1

/-- The ids on the pages that came back. -/
def shownIds (answers : List (Except Exn Outcome)) : List ℤ :=
  (answers.filterMap Except.toOption).flatMap bodyIds

/-- The ids on one page, none if it did not come back. -/
def answerIds (answer : Except Exn Outcome) : List ℤ := (answer.toOption.map bodyIds).getD []

theorem shownIds_cons (answer : Except Exn Outcome) (answers : List (Except Exn Outcome)) :
    shownIds (answer :: answers) = answerIds answer ++ shownIds answers := by
  unfold shownIds answerIds
  cases answer <;> rfl

/-- A page that came back is part of the page of the ids, and all of it unless the limit is more
than the service gives. -/
theorem index_shown (hdb : app.db.toPostgres.Documented) (hf : ById f) (hs : Ordered s)
    (hn : 0 < n) (hasks : AsksPage urls f n i request) :
    (answerIds (indexAt app urls s request)).Sublist (PagedWalk.page n i (keysOf f s hs)) ∧
      (n ≤ 1000 → (indexAt app urls s request).isOk = true →
        answerIds (indexAt app urls s request) = PagedWalk.page n i (keysOf f s hs)) := by
  cases h : indexAt app urls s request with
  | error e => exact ⟨List.nil_sublist _, fun _ hok => by cases hok⟩
  | ok outcome =>
    change (bodyIds outcome).Sublist _ ∧ (_ → _ → bodyIds outcome = _)
    rw [index_ids hdb hf hs hasks h]
    have hclamp : clampLimit (some n) ≤ n ∧ (n ≤ 1000 → clampLimit (some n) = n) := by
      unfold clampLimit
      rw [Option.getD_some]
      omega
    exact ⟨List.take_sublist_take_left hclamp.1, fun hmax _ => by rw [hclamp.2 hmax]; rfl⟩

/-- No call among these deletes a user. -/
def Keeping (calls : List Call) : Prop := ∀ r disk b, .remove r disk b ∉ calls

theorem Keeping.writes (app : Application) {calls : List Call} (h : Keeping calls) :
    ∀ w ∈ calls.filterMap (Call.write app), ∀ id, w ≠ .delete id := by
  rintro w hw id rfl
  obtain ⟨call, hcall, hwrite⟩ := List.mem_filterMap.mp hw
  cases call with
  | registration request m =>
    simp only [Call.write, registrationWrite, accountWrite, Option.bind_eq_bind,
      Option.bind_eq_some_iff, Option.map_eq_some_iff, reduceCtorEq, and_false, exists_false]
      at hwrite
  | login request m => cases hwrite
  | authenticate request m => cases hwrite
  | store request m =>
    simp only [Call.write, storeWrite, accountWrite, Option.bind_eq_bind,
      Option.bind_eq_some_iff, Option.map_eq_some_iff, reduceCtorEq, and_false, exists_false]
      at hwrite
  | update request m disk a =>
    simp only [Call.write, updateWrite, Option.bind_eq_bind, Option.bind_eq_some_iff,
      Option.ite_none_left_eq_some, Option.some.injEq, reduceCtorEq, and_false, exists_false]
      at hwrite
  | remove request disk b => exact h request disk b hcall

theorem Ordered.calls (hs : Ordered s) (calls : List Call) : Ordered (afterCalls app s calls) := by
  rw [afterCalls_statements]
  exact hs.after _

theorem calls_grown (f : UserListFilter) (hs : Ordered s) (calls : List Call) :
    Grown (keysOf f s hs) (keysOf f (afterCalls app s calls) (hs.calls calls)) := by
  have h := after_grown f hs (calls.filterMap (Call.write app))
  simp only [← afterCalls_statements] at h
  exact h

theorem calls_extended (f : UserListFilter) (hs : Ordered s) {calls : List Call}
    (hkeeps : Keeping calls) :
    Extended (keysOf f s hs) (keysOf f (afterCalls app s calls) (hs.calls calls)) := by
  have h := after_extended f hs (hkeeps.writes app)
  simp only [← afterCalls_statements] at h
  exact h

/-- The pages of a client, as a walk over the ids of the tables that answered them. -/
structure Walked (app : Application) (urls : Str → Option (List (Str × Str)))
    (f : UserListFilter) (n i : ℕ) (s : Accounts app.db) (request : Request)
    (later : List (List Call × Request)) (walked : List (Keys ℤ)) : Prop where
  moments : walked.length = later.length + 1
  grown : walked.IsChain Grown
  extended : (∀ step ∈ later, Keeping step.1) → walked.IsChain Extended
  shown : (shownIds (pages app urls s request later)).Sublist (walk n i walked)
  full : n ≤ 1000 → (∀ answer ∈ pages app urls s request later, answer.isOk = true) →
    shownIds (pages app urls s request later) = walk n i walked

theorem pages_walked (hdb : app.db.toPostgres.Documented) (hf : ById f) (hn : 0 < n)
    (later : List (List Call × Request)) (hs : Ordered s)
    (hasks : AsksPages urls f n i request later) :
    ∃ rest, Walked app urls f n i s request later (keysOf f s hs :: rest) := by
  obtain ⟨hpart, hwhole⟩ := index_shown hdb hf hs hn hasks.first
  induction later generalizing s i request with
  | nil =>
    refine ⟨[], rfl, .singleton _, fun _ => .singleton _, ?_, fun hmax hok => ?_⟩
    · rw [pages, shownIds_cons]
      exact hpart.append (List.Sublist.refl _)
    · rw [pages, shownIds_cons, hwhole hmax (hok _ List.mem_cons_self)]
      rfl
  | cons step later ih =>
    obtain ⟨calls, next⟩ := step
    have hs' : Ordered (afterCalls app s calls) := hs.calls calls
    obtain ⟨hpart', hwhole'⟩ := index_shown hdb hf hs' hn hasks.2.first
    obtain ⟨rest, hw⟩ := ih hs' hasks.2 hpart' hwhole'
    refine ⟨_ :: rest, ?_, .cons_cons (calls_grown f hs calls) hw.grown, fun hkeeps => ?_, ?_,
      fun hmax hok => ?_⟩
    · rw [List.length_cons, hw.moments, List.length_cons]
    · obtain ⟨hcalls, hsteps⟩ := List.forall_mem_cons.mp hkeeps
      exact .cons_cons (calls_extended f hs hcalls) (hw.extended hsteps)
    · rw [pages, shownIds_cons, walk]
      exact hpart.append hw.shown
    · rw [pages] at hok ⊢
      obtain ⟨hfirstOk, hrestOk⟩ := List.forall_mem_cons.mp hok
      rw [shownIds_cons, walk, hwhole hmax hfirstOk, hw.full hmax hrestOk]

/-! ### A client's walk -/

/-- A client that pages through the users by id is shown no user twice, and users in the order of
their ids, whatever calls run between its requests. -/
theorem no_user_twice (hdb : app.db.toPostgres.Documented) (hf : ById f) (hn : 0 < n)
    (before : List Call) {later : List (List Call × Request)}
    (hasks : AsksPages urls f n 0 request later) :
    (shownIds (pages app urls (afterCalls app (migrated app.db) before) request later)).Pairwise
      (· < ·) := by
  obtain ⟨rest, hw⟩ := pages_walked hdb hf hn later (Ordered.migrated.calls before) hasks
  exact (walk_sorted hw.grown).sublist hw.shown

end walk

/-- The parameters of two targets. -/
def twoPages (target : Str) : Option (List (Str × Str)) :=
  if target = "/users?limit=1&offset=0".toList then
    some [("limit".toList, "1".toList), ("offset".toList, "0".toList)]
  else if target = "/users?limit=1&offset=1".toList then
    some [("limit".toList, "1".toList), ("offset".toList, "1".toList)]
  else some []

def pageRequest (target : String) : Request := { annRequest target with method := .get }

theorem noFilter_byId : ById noFilter := ⟨rfl, rfl, rfl⟩

theorem twoPages_asked :
    AsksPages twoPages noFilter 1 0 (pageRequest "/users?limit=1&offset=0")
      [(annCalls, pageRequest "/users?limit=1&offset=1")] := by
  refine ⟨⟨?_, by decide⟩, ⟨?_, by decide⟩⟩
  · decide +kernel
  · decide +kernel

theorem no_user_twice_ann :
    (shownIds (pages annApp twoPages (afterCalls annApp (migrated annApp.db) annCalls)
      (pageRequest "/users?limit=1&offset=0")
      [(annCalls, pageRequest "/users?limit=1&offset=1")])).Pairwise (· < ·) :=
  no_user_twice plainServer_documented noFilter_byId Nat.one_pos annCalls twoPages_asked

section walk
variable {app : Application} {urls : Str → Option (List (Str × Str))} {f : UserListFilter}
  {n : ℕ} {request : Request}

/-- If no call in between deletes a user, the client is shown first every user that was there
when it began and that it asks for, in order, as far as its pages reach. -/
theorem no_user_missed (hdb : app.db.toPostgres.Documented) (hf : ById f) (hn : 0 < n)
    (hmax : n ≤ 1000) (before : List Call) {later : List (List Call × Request)}
    (hasks : AsksPages urls f n 0 request later) (hkeeps : ∀ step ∈ later, Keeping step.1)
    (hpages : ∀ answer ∈ pages app urls (afterCalls app (migrated app.db) before) request later,
      answer.isOk = true) :
    ((((afterCalls app (migrated app.db) before).users.map StoredUser.id).filter
        fun i => Asked f i).map Int64.toInt).take ((later.length + 1) * n) <+:
      shownIds (pages app urls (afterCalls app (migrated app.db) before) request later) := by
  obtain ⟨rest, hw⟩ := pages_walked hdb hf hn later (Ordered.migrated.calls before) hasks
  have hall : ((keysOf f (afterCalls app (migrated app.db) before) _).keys.drop (0 * n)).take
      ((rest.length + 1) * n) <+: walk n 0 _ := walk_complete (hw.extended hkeeps)
  rw [Nat.zero_mul, List.drop_zero, Nat.succ.inj hw.moments] at hall
  rw [hw.full hmax hpages]
  exact hall

end walk

theorem no_user_missed_ann :
    [1] <+: shownIds (pages annApp twoPages (afterCalls annApp (migrated annApp.db) annCalls)
      (pageRequest "/users?limit=1&offset=0")
      [(annCalls, pageRequest "/users?limit=1&offset=1")]) := by
  have hkeeps : ∀ step ∈ [(annCalls, pageRequest "/users?limit=1&offset=1")],
      Keeping step.1 := by
    intro step hstep r disk b hmem
    rw [List.mem_singleton.mp hstep, annCalls, List.mem_singleton] at hmem
    cases hmem
  have hstart : ((((afterCalls annApp (migrated annApp.db) annCalls).users.map
      StoredUser.id).filter fun i => Asked noFilter i).map Int64.toInt).take 2 = [1] := by
    decide +kernel
  rw [← hstart]
  exact no_user_missed plainServer_documented noFilter_byId Nat.one_pos (by decide) annCalls
    twoPages_asked hkeeps (by decide +kernel)

end AdequateApi.ListingPages
