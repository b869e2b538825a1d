import AdequateApi.AccountStatements
import AdequateApi.ActionEffects

/-! What the handlers write to the users table: at most one statement each, so that the requests
of a run, in the order in which the server carries their statements out, are a run of
statements. -/
namespace AdequateApi.AccountCalls
open StdString FileTree DbConnection HttpMessages UsersRepository UsersListing FileSystemService
  AdequateApi.UsersService AdequateApi.UsersController AccountSerializers AccountStore
  AccountServices AccountAnswers AccountCreation LoggedAction Action UserUpdateAnswers
  AccountStatements

variable {app : Application}

/-- The table after a statement that is sent, or not. -/
def written {db : AccountServer} (s : Accounts db) (write : Option Write) : Accounts db :=
  write.elim s (Write.apply s)

/-! ### Reading -/

section reading
variable {σ α : Type}

theorem Yields.reads {x : Act σ α} {e : Except Exn α} (h : Yields x e) : Effect Eq x :=
  fun s => (h s).1.symm

theorem tryValidatedAs_reads {x : Act σ α} (hx : Effect Eq x) (shown : Str → Str)
    (warning : String) : Effect Eq (tryValidatedAs shown x warning) := by
  refine Effect.rescue composes_eq (hx.bind composes_eq fun a => effect_pure composes_eq _) ?_
  intro e y hy
  cases e with
  | validation what =>
    obtain rfl := Option.mem_some_iff.mp hy
    exact (effect_record composes_eq _).bind composes_eq fun _ => effect_pure composes_eq _
  | db => cases hy
  | std => cases hy
  | other => cases hy

theorem tryValidated_reads {x : Act σ α} (hx : Effect Eq x) (warning : String) :
    Effect Eq (tryValidated x warning) := tryValidatedAs_reads hx id warning

end reading

theorem exists_reads (filters : UserFilter) :
    Effect Eq (AccountStore.exists_ filters : Act (Accounts app.db) Bool) :=
  effect_change fun s => by split <;> rfl

theorem getOne_reads (filters : UserFilter) :
    Effect Eq (AccountStore.getOne filters : Act (Accounts app.db) UserEntity) :=
  effect_change fun s => by
    split
    · split <;> rfl
    · rfl

theorem usersExists_reads (filters : UserFilter) :
    Effect Eq (AccountServices.UsersService.exists_ app filters) :=
  (effect_record composes_eq _).bind composes_eq fun _ => exists_reads filters

theorem obtainTokens_reads (data : LoginSerializer) (m : Moment) :
    Effect Eq (AuthenticationService.obtainTokens app data m) := by
  refine (effect_record composes_eq _).bind composes_eq fun _ =>
    (getOne_reads _).bind composes_eq fun user => (effect_record composes_eq _).bind composes_eq
      fun _ => (effect_lift composes_eq _).bind composes_eq fun stored => ?_
  split
  · exact effect_fail composes_eq _
  · exact (effect_lift composes_eq _).bind composes_eq fun _ => effect_pure composes_eq _

/-- A login leaves the table as it is. -/
theorem login_reads (request : Request) (m : Moment) :
    Effect Eq (AuthenticationController.login app request m) := by
  refine (effect_record composes_eq _).bind composes_eq fun _ =>
    (effect_lift composes_eq _).bind composes_eq fun body =>
    (effect_record composes_eq _).bind composes_eq fun _ =>
    (tryValidated_reads (Yields.reads (readLogin_yields body)) _).bind composes_eq
      fun data => (effect_record composes_eq _).bind composes_eq fun _ => ?_
  cases data with
  | error text => exact effect_pure composes_eq _
  | ok data =>
    refine (tryValidated_reads (usersExists_reads _) _).bind composes_eq
      fun userExists => ?_
    cases userExists with
    | error text => exact effect_pure composes_eq _
    | ok found =>
      cases found with
      | false => exact effect_pure composes_eq _
      | true =>
        refine (tryValidatedAs_reads (obtainTokens_reads data m) _ _).bind
          composes_eq fun tokens => ?_
        cases tokens with
        | error text => exact effect_pure composes_eq _
        | ok tokens => exact (effect_record composes_eq _).bind composes_eq fun _ =>
            effect_pure composes_eq _

theorem decodeToken_reads (token : Str) (m : Moment) : Effect Eq (decodeToken app token m) := by
  unfold decodeToken
  split
  · exact effect_pure composes_eq _
  · exact (effect_record composes_eq _).bind composes_eq fun _ =>
      (effect_record composes_eq _).bind composes_eq fun _ => effect_pure composes_eq _

/-- The middleware leaves the table as it is. -/
theorem authenticate_reads (request : Request) (m : Moment) :
    Effect Eq (authenticate app request m) := by
  unfold authenticate
  split
  · exact (effect_record composes_eq _).bind composes_eq fun _ => effect_pure composes_eq _
  · split
    · exact (effect_record composes_eq _).bind composes_eq fun _ => effect_pure composes_eq _
    · refine (decodeToken_reads _ m).bind composes_eq fun incomingUser => ?_
      cases incomingUser with
      | error text => exact effect_pure composes_eq _
      | ok user =>
        refine (tryValidated_reads (usersExists_reads _) _).bind composes_eq
          fun userExists => ?_
        cases userExists with
        | error text => exact effect_pure composes_eq _
        | ok found => cases found <;> exact effect_pure composes_eq _

/-! ### Creating an account -/

/-- The statement with the hash of the password. -/
def accountWrite (app : Application) (username email password : Str) (m : Moment) : Option Write :=
  (app.hasher.hash m.salt password).toOption.map fun hash =>
    .insert (newUser (newEntity username email hash)) m.now

/-- The statement of a registration, if it comes to one. -/
def registrationWrite (app : Application) (request : Request) (m : Moment) : Option Write := do
  let j ← (request.json app.lib).toOption
  let data ← (RegisterSerializer.from_json j).toOption
  accountWrite app data.username data.email data.password m

def storeWrite (app : Application) (request : Request) (m : Moment) : Option Write := do
  let j ← (request.json app.lib).toOption
  let data ← (UserCreateSerializer.from_json j).toOption
  accountWrite app data.username data.email data.password m

theorem addAccount_written (s : Accounts app.db) (username email password : Str) (m : Moment) :
    (addAccount app s username email password m).1 =
      written s (accountWrite app username email password m) := by
  unfold accountWrite
  rcases addAccount_cases s username email password m with
    ⟨what, hh, h⟩ | ⟨hash, t, code, hh, hi, h⟩ | ⟨hash, t, id, hh, hi, h⟩
  · rw [h, hh]
    rfl
  · rw [h, hh]
    exact (congrArg Prod.fst hi).symm
  · rw [h, hh]
    exact (congrArg Prod.fst hi).symm

/-- A handler that ends with the serializer's refusal has changed nothing. -/
theorem refused_state {σ α : Type} {x : Act σ α} {s : σ} {e : Exn} (hx : Yields x (.error e))
    (warning : String) {next : Except Str α → Act σ Outcome}
    (hnext : ∀ text t, (next (.error text) t).state = t) :
    ((tryValidated x warning >>= next) s).state = s := by
  have hrun := hx.run s
  cases e with
  | validation what =>
    rw [bind_ok (tryValidated_validation hrun warning), Ran.after_state, hnext]
  | db code what => rw [bind_error (tryValidated_error hrun (by simp) warning)]
  | std what => rw [bind_error (tryValidated_error hrun (by simp) warning)]
  | other => rw [bind_error (tryValidated_error hrun (by simp) warning)]

theorem registration_written (s : Accounts app.db) (request : Request) (m : Moment) :
    (AuthenticationController.registration app request m s).state =
      written s (registrationWrite app request m) := by
  unfold registrationWrite
  cases hj : request.json app.lib with
  | error e =>
    unfold AuthenticationController.registration
    rw [record_bind, hj, lift_error_bind]
    rfl
  | ok j =>
    simp only [Except.toOption, Option.bind_eq_bind, Option.bind_some]
    cases hd : RegisterSerializer.from_json j with
    | error e =>
      change _ = s
      unfold AuthenticationController.registration
      rw [record_bind, hj, lift_ok_bind, record_bind]
      exact refused_state (hd ▸ readRegister_yields j) _ fun _ _ => rfl
    | ok data =>
      rw [registration_run hj hd]
      exact addAccount_written s _ _ _ m

theorem store_written (s : Accounts app.db) (request : Request) (m : Moment) :
    (AccountServices.UsersController.store app request m s).state =
      written s (storeWrite app request m) := by
  unfold storeWrite
  cases hj : request.json app.lib with
  | error e =>
    unfold AccountServices.UsersController.store
    rw [record_bind, hj, lift_error_bind]
    rfl
  | ok j =>
    simp only [Except.toOption, Option.bind_eq_bind, Option.bind_some]
    cases hd : UserCreateSerializer.from_json j with
    | error e =>
      change _ = s
      unfold AccountServices.UsersController.store
      rw [record_bind, hj, lift_ok_bind, record_bind]
      exact refused_state (hd ▸ readCreate_yields j) _ fun _ _ => rfl
    | ok data =>
      rw [store_run hj hd]
      exact addAccount_written s _ _ _ m

/-! ### Updating and removing a user -/

/-- The statement of a PATCH that reaches the server, if one does. -/
def updateWrite (srv : Services) (disk : Disk) (request : Request) (a : UpdateAnswers) :
    Option Write := do
  let user ← sentEntity srv disk request a
  let now ← a.query.executed
  if sets user = [] then none else some (.update user now)

/-- The statement of a DELETE that reaches the server, if one does. -/
def removeWrite (srv : Services) (disk : Disk) (request : Request) (b : RemoveAnswers) :
    Option Write := do
  let id ← (pathId request).toOption
  let _ ← (clearDirectory srv disk (pictureDir (BitVec.ofInt 64 id).toNat) b.stat_fails
    b.removal).2.toOption
  let _ ← b.query.executed
  some (.delete (BitVec.ofInt 64 id).toInt)

/-- The answer reports a statement as carried out only if the table takes it. -/
def Truthful {db : AccountServer} (s : Accounts db) (write : Option Write) : Prop :=
  ∀ user now, write = some (.update user now) →
    (AccountStatements.update s user now).2 = .done now

/-- What the repository's statement does to the rows by primary key. -/
theorem repository_update {db : AccountServer} {s : Accounts db} {user : UserEntity}
    {q : QueryAnswer}
    (htrue : ∀ now, q.executed = some now → sets user ≠ [] →
      (AccountStatements.update s user now).2 = .done now) :
    (UsersRepository.update (rows s) user q).1 = rows (written s (do
      let now ← q.executed
      if sets user = [] then none else some (.update user now))) := by
  unfold UsersRepository.update
  rcases updateQuery_cases user with ⟨hnil, e, he⟩ | ⟨hsets, query, hq, hchange⟩
  · rw [he]
    cases q.executed with
    | none => rfl
    | some now => simp only [Option.bind_eq_bind, Option.bind_some, if_pos hnil]; rfl
  · rw [hq]
    unfold Query.run
    cases hx : q.executed with
    | none => rfl
    | some now =>
      have hrows := update_rows s user now
      rw [htrue now hx hsets] at hrows
      simp only [Option.bind_eq_bind, Option.bind_some, if_neg hsets]
      rw [hchange]
      exact hrows.symm

/-- The rows of the service after a PATCH are those of the table after its statement. -/
theorem update_written (srv : Services) {db : AccountServer} {s : Accounts db} {disk : Disk}
    {request : Request} {a : UpdateAnswers}
    (htrue : Truthful s (updateWrite srv disk request a)) :
    (AdequateApi.UsersController.update srv ⟨disk, rows s⟩ request a).1.users =
      rows (written s (updateWrite srv disk request a)) := by
  unfold updateWrite sentEntity at htrue ⊢
  unfold AdequateApi.UsersController.update
  cases hid : pathId request with
  | error e => rfl
  | ok id =>
    cases hbody : readBody srv request with
    | error e => rfl
    | ok r =>
      obtain ⟨body, picture⟩ := r
      rw [hid, hbody] at htrue
      simp only [Except.toOption, Option.bind_eq_bind, Option.bind_some] at htrue ⊢
      cases hd : from_json srv.lib body with
      | error e => cases e <;> rfl
      | ok data =>
        rw [hd] at htrue
        simp only [Option.bind_some] at htrue ⊢
        unfold AdequateApi.UsersService.update
        cases hhash : hashPassword { data with id := id }.toEntity a.hash with
        | error e => cases e <;> rfl
        | ok user =>
          rw [hhash] at htrue
          simp only [Option.bind_some] at htrue ⊢
          cases hpicture : replacePicture srv disk user picture a with
          | mk disk' result =>
            rw [hpicture] at htrue
            cases result with
            | error e => rfl
            | ok user' =>
              simp only [Option.bind_some] at htrue ⊢
              rw [← Option.bind_eq_bind, ← repository_update fun now hx hsets => by
                refine htrue user' now ?_
                rw [hx, Option.bind_some, if_neg hsets]]
              generalize UsersRepository.update (rows s) user' a.query = w
              obtain ⟨t, answer⟩ := w
              cases answer with
              | ok u => rfl
              | error e =>
                cases e with
                | db code what => cases code <;> rfl
                | _ => rfl

theorem remove_written (srv : Services) {db : AccountServer} (s : Accounts db) (disk : Disk)
    (request : Request) (b : RemoveAnswers) :
    (AdequateApi.UsersController.remove srv ⟨disk, rows s⟩ request b).1.users =
      rows (written s (removeWrite srv disk request b)) := by
  unfold removeWrite AdequateApi.UsersController.remove
  cases hid : pathId request with
  | error e => rfl
  | ok id =>
    simp only [Except.toOption, Option.bind_eq_bind, Option.bind_some]
    unfold AdequateApi.UsersService.remove
    cases hclear : clearDirectory srv disk (pictureDir (BitVec.ofInt 64 id).toNat) b.stat_fails
        b.removal with
    | mk disk' result =>
      cases result with
      | error e => rfl
      | ok u =>
        simp only [Option.bind_some]
        unfold UsersRepository.remove Query.run
        cases b.query with
        | done now =>
          exact (rows_delete s _ now).symm
        | failed e carried =>
          cases carried with
          | none => cases e <;> rfl
          | some now =>
            have hrows := (rows_delete s (BitVec.ofInt 64 id).toInt now).symm
            cases e <;> exact hrows

/-! ### Calls -/

/-- The password of a PATCH that the serializer accepts. -/
def requestPassword (srv : Services) (request : Request) : Option Str := do
  let (body, _) ← (readBody srv request).toOption
  let data ← (from_json srv.lib body).toOption
  data.password

/-- The answers to an update with the hash that the hasher makes. -/
def hashing (app : Application) (request : Request) (m : Moment) (a : UpdateAnswers) :
    UpdateAnswers :=
  { a with hash := app.hasher.hash m.salt ((requestPassword app.toServices request).getD []) }

/-- A handler or the middleware at work, with what it meets besides the table. -/
inductive Call
  | registration (request : Request) (m : Moment)
  | login (request : Request) (m : Moment)
  | authenticate (request : Request) (m : Moment)
  | store (request : Request) (m : Moment)
  | update (request : Request) (m : Moment) (disk : Disk) (a : UpdateAnswers)
  | remove (request : Request) (disk : Disk) (b : RemoveAnswers)

/-- The statement that the call sends, if it sends one. -/
def Call.write (app : Application) : Call → Option Write
  | .registration request m => registrationWrite app request m
  | .login _ _ | .authenticate _ _ => none
  | .store request m => storeWrite app request m
  | .update request m disk a =>
      updateWrite app.toServices disk request (hashing app request m a)
  | .remove request disk b => removeWrite app.toServices disk request b

/-- The table after the call. -/
def Call.exec (app : Application) (s : Accounts app.db) : Call → Accounts app.db
  | .registration request m => (AuthenticationController.registration app request m s).state
  | .login request m => (AuthenticationController.login app request m s).state
  | .authenticate request m => (AccountServices.authenticate app request m s).state
  | .store request m => (AccountServices.UsersController.store app request m s).state
  | .update request m disk a =>
      written s (updateWrite app.toServices disk request (hashing app request m a))
  | .remove request disk b => written s (removeWrite app.toServices disk request b)

def afterCalls (app : Application) (s : Accounts app.db) (calls : List Call) : Accounts app.db :=
  calls.foldl (Call.exec app) s

theorem exec_written (s : Accounts app.db) (call : Call) :
    call.exec app s = written s (call.write app) := by
  cases call with
  | registration request m => exact registration_written s request m
  | login request m => exact (login_reads request m s).symm
  | authenticate request m => exact (authenticate_reads request m s).symm
  | store request m => exact store_written s request m
  | update request m disk a => rfl
  | remove request disk b => rfl

/-- A run of calls is the run of their statements. -/
theorem afterCalls_statements (s : Accounts app.db) (calls : List Call) :
    afterCalls app s calls = after s (calls.filterMap (Call.write app)) := by
  induction calls generalizing s with
  | nil => rfl
  | cons call calls ih =>
    change afterCalls app (call.exec app s) calls = _
    rw [ih, exec_written]
    cases hw : call.write app with
    | none => rw [List.filterMap_cons_none hw]; rfl
    | some w => rw [List.filterMap_cons_some hw]; rfl

theorem Behind.afterCalls (app : Application) (calls : List Call) :
    Behind (AccountCalls.afterCalls app (migrated app.db) calls) := by
  rw [afterCalls_statements]
  exact Behind.migrated.after _

/-! ### Whole runs -/

theorem afterCalls_append (s : Accounts app.db) (before later : List Call) :
    afterCalls app s (before ++ later) = afterCalls app (afterCalls app s before) later :=
  List.foldl_append

/-- A row at the end of some calls was there before them, if its id was given out by then. -/
theorem call_row_kept {s : Accounts app.db} (h : Behind s) (calls : List Call) {id : ℤ} {row : Row}
    (hid : id < s.next_id) (hrow : rows (afterCalls app s calls) id = some row) :
    ∃ old, rows s id = some old ∧ old.created_at = row.created_at := by
  rw [afterCalls_statements] at hrow
  exact row_kept h _ hid hrow

/-- In every run of calls an id keeps denoting the account it was given to: a row that is there
at the end was there at every moment since its id was given out, with the same time of
creation. -/
theorem account_keeps_identity (app : Application) (before later : List Call) {id : ℤ} {row : Row}
    (hid : id < (afterCalls app (migrated app.db) before).next_id)
    (hrow : rows (afterCalls app (migrated app.db) (before ++ later)) id = some row) :
    ∃ old, rows (afterCalls app (migrated app.db) before) id = some old ∧
      old.created_at = row.created_at := by
  rw [afterCalls_append] at hrow
  exact call_row_kept (Behind.afterCalls app before) later hid hrow

/-- The same registration twice; the address is taken the second time. -/
def annCalls : List Call := [.registration (annRequest "/register") firstMoment]

theorem account_keeps_identity_ann :
    ∃ old, rows (afterCalls annApp (migrated annApp.db) annCalls) 1 = some old ∧
      old.created_at = 100 := by
  have hrow : rows (afterCalls annApp (migrated annApp.db) (annCalls ++ annCalls)) 1 =
      some ⟨"ann".toList, none, some "ann@x.org".toList, some "1$secret".toList, 100, 100⟩ := by
    decide +kernel
  exact account_keeps_identity annApp annCalls annCalls (by decide +kernel) hrow

end AdequateApi.AccountCalls
