import AdequateApi.AccountCalls

/-! When a login gives out a token, and for whom. -/
namespace AdequateApi.LoginTokens
open StdString DbConnection HttpMessages UsersRepository UsersListing AdequateApi.UsersController
  AccountSerializers AccountStore AccountServices AccountAnswers AccountCreation LoggedAction Action
  AccountCalls PasswordTwins

variable {app : Application} {s : Accounts app.db} {m : Moment} {request : Request}

/-- The body of the answer to a login. -/
def tokensBody (token : Str) : Json :=
  .obj [("accessToken".toList, .str token), ("refreshToken".toList, .str "None".toList)]

/-! ### Inversion of the steps -/

section steps
variable {σ α : Type} {x : Act σ α} {t : σ}

theorem result_tryValidatedAs_ok {shown : Str → Str} {warning : String} {a : α} :
    (tryValidatedAs shown x warning t).result = .ok (.ok a) ↔ (x t).result = .ok a := by
  unfold tryValidatedAs
  rw [result_rescue_ok, result_bind_ok]
  constructor
  · rintro (⟨b, hb, h⟩ | ⟨e, y, _, hy, h⟩)
    · cases h
      exact hb
    · cases e with
      | validation what =>
        cases hy
        cases h
      | db => cases hy
      | std => cases hy
      | other => cases hy
  · exact fun h => .inl ⟨a, h, rfl⟩

theorem result_tryValidated_ok {warning : String} {a : α} :
    (tryValidated x warning t).result = .ok (.ok a) ↔ (x t).result = .ok a :=
  result_tryValidatedAs_ok

theorem result_lift_bind_ok {β : Type} {e : Except Exn α} {f : α → Act σ β} {b : β} :
    ((lift e >>= f) t).result = .ok b ↔ ∃ a, e = .ok a ∧ (f a t).result = .ok b := result_bind_ok

theorem result_record_bind {β : Type} {w : LogRecord} {f : Unit → Act σ β} :
    ((record w >>= f) t).result = (f () t).result := by
  rw [record_bind, Ran.after_result]

/-- A step that only reads. -/
theorem result_read_bind_ok {β : Type} (hx : Effect Eq x) {f : α → Act σ β} {b : β} :
    ((x >>= f) t).result = .ok b ↔ ∃ a, (x t).result = .ok a ∧ (f a t).result = .ok b := by
  rw [result_bind_ok, ← hx t]

end steps

/-! ### The row of a login -/

/-- The first row with the address. -/
def found (s : Accounts app.db) (email : Str) : Option StoredUser :=
  s.users.find? fun u => Selected app.db (loginFilter email) u

/-- Both statements of a login can be sent. -/
def Sendable (db : AccountServer) (email : Str) : Prop :=
  bindable db [some email, some (to_string 1)] = true

instance (db : AccountServer) (email : Str) : Decidable (Sendable db email) :=
  inferInstanceAs (Decidable (_ = true))

theorem getOne_ok {email : Str} {user : UserEntity} :
    (AccountStore.getOne (loginFilter email) s).result = .ok user ↔
      Sendable app.db email ∧ ∃ u, found s email = some u ∧ Readable app.db.toPostgres u ∧
        user = { u.entity with password := some (u.row.password.getD []) } := by
  have hparams : (getOneStatement (loginFilter email)).params =
      [some email, some (to_string 1)] := rfl
  have hsame : ({ loginFilter email with id := none } : UserFilter) = loginFilter email := rfl
  unfold AccountStore.getOne Sendable found
  rw [run_change, hparams]
  simp only [hsame]
  split
  · rename_i hbind
    rw [hbind, eq_self, true_and]
    cases hf : s.users.find? fun u => decide (Selected app.db (loginFilter email) u) with
    | none => simp
    | some u =>
      by_cases hreadable : Readable app.db.toPostgres u
      · obtain ⟨t, t', hc, hd⟩ := hreadable
        dsimp only
        rw [entityOf_readable hc hd]
        constructor
        · intro h
          exact ⟨u, rfl, ⟨t, t', hc, hd⟩, (Except.ok.inj h).symm⟩
        · rintro ⟨v, hv, _, rfl⟩
          cases hv
          rfl
      · obtain ⟨e, he⟩ := entityOf_unreadable hreadable
        dsimp only
        rw [he]
        constructor
        · intro h
          cases h
        · rintro ⟨v, hv, hr, _⟩
          cases hv
          exact absurd hr hreadable
  · rename_i hbind
    constructor
    · intro h
      cases h
    · exact fun h => absurd h.1 hbind

theorem exists_found {email : Str} (hsend : Sendable app.db email) :
    (AccountServices.UsersService.exists_ app (loginFilter email) s).result =
      .ok (found s email).isSome := by
  have hbind : bindable app.db (existsStatement (loginFilter email)).params = true := by
    have hparams : (existsStatement (loginFilter email)).params = [some email] := rfl
    unfold Sendable bindable at hsend
    rw [hparams, bindable]
    simp only [List.all_cons, Bool.and_eq_true, List.all_nil] at hsend ⊢
    exact ⟨hsend.1, trivial⟩
  unfold AccountServices.UsersService.exists_ AccountStore.exists_ found
  rw [result_record_bind, run_change, if_pos hbind]
  refine congrArg Except.ok (Bool.eq_iff_iff.mpr ?_)
  rw [List.find?_isSome, decide_eq_true_iff]
  simp only [decide_eq_true_eq]

/-! ### Granting -/

/-- A login answers with the token for the account `u`. -/
structure Grants (app : Application) (s : Accounts app.db) (m : Moment) (data : LoginSerializer)
    (u : StoredUser) (token : Str) : Prop where
  sendable : Sendable app.db data.email
  found : found s data.email = some u
  readable : Readable app.db.toPostgres u
  verified : (app.hasher.verify data.password (u.row.password.getD [])).1 = true
  signed : JwtService.encode app.jwt app.secret_key
    { u.entity with password := some (u.row.password.getD []) } m.issued m.expiry = .ok token

theorem obtainTokens_ok {data : LoginSerializer} {body : Json} :
    (AuthenticationService.obtainTokens app data m s).result = .ok body ↔
      ∃ u token, Grants app s m data u token ∧ body = tokensBody token := by
  rw [obtainTokens_run, Ran.after_result]
  unfold grantTokens
  rw [result_read_bind_ok (getOne_reads _)]
  constructor
  · rintro ⟨user, huser, h⟩
    obtain ⟨hsend, u, hu, hreadable, rfl⟩ := getOne_ok.mp huser
    rw [result_record_bind, result_lift_bind_ok] at h
    obtain ⟨stored, hstored, h⟩ := h
    cases hstored
    cases hv : (app.hasher.verify data.password (u.row.password.getD [])).1 with
    | false =>
      rw [hv] at h
      cases h
    | true =>
      rw [hv, if_neg (by decide), result_lift_bind_ok] at h
      obtain ⟨token, htoken, h⟩ := h
      cases h
      refine ⟨u, token, ⟨hsend, hu, hreadable, hv, ?_⟩, rfl⟩
      cases he : JwtService.encode app.jwt app.secret_key
          { u.entity with password := some (u.row.password.getD []) } m.issued m.expiry with
      | error e =>
        rw [he] at htoken
        cases htoken
      | ok t =>
        rw [he] at htoken
        cases htoken
        rfl
  · rintro ⟨u, token, hg, rfl⟩
    refine ⟨_, getOne_ok.mpr ⟨hg.sendable, u, hg.found, hg.readable, rfl⟩, ?_⟩
    rw [result_record_bind, result_lift_bind_ok]
    refine ⟨_, rfl, ?_⟩
    rw [hg.verified, if_neg (by decide), hg.signed]
    rfl

/-- A login gives out a token exactly for a readable body, the account with its address and a
password that the hasher verifies. -/
theorem login_granted_iff {token : Str} :
    (AuthenticationController.login app request m s).result =
        .ok (created request (tokensBody token)) ↔
      ∃ j data u, request.json app.lib = .ok j ∧ LoginSerializer.from_json j = .ok data ∧
        Grants app s m data u token := by
  have hrefused : ∀ status text, status ≠ 201 →
      (Except.ok (errorResult request status text) : Except Exn Outcome) ≠
        .ok (created request (tokensBody token)) := by
    intro status text hne h
    exact hne (congrArg (Outcome.status) (Except.ok.inj h))
  unfold AuthenticationController.login
  rw [result_record_bind, result_lift_bind_ok]
  constructor
  · rintro ⟨j, hj, h⟩
    rw [result_record_bind,
      result_read_bind_ok (tryValidated_reads (Yields.reads (readLogin_yields j)) _)] at h
    obtain ⟨data, hdata, h⟩ := h
    rw [result_record_bind] at h
    cases data with
    | error text => exact absurd h (hrefused 422 text (by decide))
    | ok data =>
      have hd : LoginSerializer.from_json j = .ok data :=
        (readLogin_yields j s).2.symm.trans (result_tryValidated_ok.mp hdata)
      rw [result_read_bind_ok (tryValidated_reads (usersExists_reads _) _)] at h
      obtain ⟨userExists, hexists, h⟩ := h
      rcases userExists with text | found
      · exact absurd h (hrefused 502 text (by decide))
      cases found with
      | false => exact absurd h (hrefused 422 _ (by decide))
      | true =>
        rw [result_read_bind_ok (tryValidatedAs_reads (obtainTokens_reads data m) _ _)] at h
        obtain ⟨tokens, htokens, h⟩ := h
        cases tokens with
        | error text => exact absurd h (hrefused 422 text (by decide))
        | ok tokens =>
          obtain ⟨u, token', hg, rfl⟩ := obtainTokens_ok.mp (result_tryValidatedAs_ok.mp htokens)
          cases h
          exact ⟨j, data, u, hj, hd, hg⟩
  · rintro ⟨j, data, u, hj, hd, hg⟩
    refine ⟨j, hj, ?_⟩
    rw [result_record_bind,
      result_read_bind_ok (tryValidated_reads (Yields.reads (readLogin_yields j)) _)]
    refine ⟨.ok data, result_tryValidated_ok.mpr ((readLogin_yields j s).2.trans hd), ?_⟩
    rw [result_record_bind]
    dsimp only
    rw [result_read_bind_ok (tryValidated_reads (usersExists_reads _) _)]
    refine ⟨.ok true, result_tryValidated_ok.mpr ?_, ?_⟩
    · rw [exists_found hg.sendable, hg.found]
      rfl
    · rw [result_read_bind_ok (tryValidatedAs_reads (obtainTokens_reads data m) _ _)]
      exact ⟨.ok (tokensBody token), result_tryValidatedAs_ok.mpr
        (obtainTokens_ok.mpr ⟨u, token, hg, rfl⟩), rfl⟩

theorem annBody_logs_in :
    LoginSerializer.from_json annBody = .ok ⟨"ann@x.org".toList, "secret".toList⟩ := by
  have hvalid : validEmail "ann@x.org".toList = true := by decide +kernel
  exact login_ok.mpr ⟨⟨rfl, by decide⟩, hvalid, rfl, by decide⟩

end AdequateApi.LoginTokens
