import AdequateApi.AnswerKinds
import AdequateApi.PasswordHistory

/-! What an answer of 201 promises: the account is there, and opens with its password, until a
request with a valid token addresses it. -/
namespace AdequateApi.AcknowledgedAccounts
open StdString FileTree DbConnection HttpMessages UsersRepository UsersListing
  AdequateApi.UsersController AccountSerializers AccountStore AccountServices AccountCreation
  LoggedAction Action RouterModel ApplicationRoutes UserUpdateAnswers AccountStatements AccountCalls
  ApplicationDispatch PasswordTwins LoginTokens PasswordHistory ServerStep AnswerKinds Utf8Text
  JsonText

variable {app : Application} {st : Store app} {e : Surroundings} {request : Request}

/-! ### Posting a JSON body -/

section post
variable {path : Str} {j : Json}

variable {entry : RouteEntry} {fn : RouteFn}

end post

/-! ### Asking for an account -/

section asks
variable {username email password : Str} {response : Response}

end asks

/-! ### Logging in -/

section login
variable {login : Request} {email password : Str} {response : Response}

/-- The body names the address and the password. -/
structure LogsIn (app : Application) (login : Request) (email password : Str) : Prop where
  body : ∃ j, PostsJson app.lib app.env "/login".toList j login ∧
    LoginSerializer.from_json j = .ok ⟨email, password⟩
  sendable : Sendable app.db email

/-- The answer carries a token that is signed for the user. -/
def Carries (app : Application) (m : Moment) (id : ℤ) (response : Response) : Prop :=
  ∃ token user, user.id = id ∧
    JwtService.encode app.jwt app.secret_key user m.issued m.expiry = .ok token ∧
    app.lib.dump (tokensBody token) (-1) = .ok response.body

/-- Logins with a spelling of the address get a token for the user exactly with the password. -/
def Opens (st : Store app) (id : ℤ) (email password : Str) : Prop :=
  ∀ e login email' password', LogsIn app login email' password' →
    app.db.citext_equal (c_str email) (c_str email') = true →
      ((∃ response, (st.step e login).2 = .ok response ∧ response.status = 201) ↔
        password' = password) ∧
      ∀ response, (st.step e login).2 = .ok response → response.status = 201 →
        Carries app e.moment id response

end login

/-! ### Lasting accounts -/

/-- The stores that the server can come to from the empty table. -/
def Reached (st : Store app) : Prop :=
  ∃ disk requests, (Store.run ⟨migrated app.db, disk⟩ requests).1 = st

theorem Reached.behind (h : Reached st) : Behind st.accounts := by
  obtain ⟨disk, requests, rfl⟩ := h
  obtain ⟨calls, hcalls⟩ := run_calls (⟨migrated app.db, disk⟩ : Store app) requests
  rw [hcalls]
  exact Behind.afterCalls app calls

end AdequateApi.AcknowledgedAccounts
