import AdequateApi.UsersController

/-! `from_json` of the serializers through which an account is created, changed and used. -/
namespace AdequateApi.AccountSerializers
open StdString HttpMessages UsersService UsersController

/-- A text that must be there. The call of `get` for the log comes first, so a value of another
type throws from there. -/
def requiredText (j : Json) (key message : Str) : Except Exn Str :=
  match member j key with
  | none => .error (.validation message)
  | some v =>
      match getString v with
      | .error e => .error e
      | .ok s => if s = [] then .error (.validation message) else .ok s

/-- The password is not logged, and a value of another type is invalid like a short one. -/
def requiredPassword (j : Json) : Except Exn Str :=
  match member j "password".toList with
  | some (.str password) =>
      if password.length < 6 then
        .error (.validation "Password must be at least 6 characters".toList)
      else .ok password
  | _ => .error (.validation "Password must be at least 6 characters".toList)

structure RegisterSerializer where
  username : Str
  email : Str
  password : Str
  deriving DecidableEq, Repr

structure LoginSerializer where
  email : Str
  password : Str
  deriving DecidableEq, Repr

structure UserCreateSerializer where
  username : Str
  email : Str
  password : Str
  deriving DecidableEq, Repr

/-- The check of the e-mail address is commented out. -/
def RegisterSerializer.from_json (j : Json) : Except Exn RegisterSerializer := do
  let username ← requiredText j "username".toList "Username is required".toList
  let email ← requiredText j "email".toList "Email is required".toList
  let password ← requiredPassword j
  return ⟨username, email, password⟩

def LoginSerializer.from_json (j : Json) : Except Exn LoginSerializer := do
  let email ← requiredText j "email".toList "Email is required".toList
  if !validEmail email then .error (.validation "Email is invalid".toList)
  else
    let password ← requiredPassword j
    return ⟨email, password⟩

def UserCreateSerializer.from_json (j : Json) : Except Exn UserCreateSerializer := do
  let username ← requiredText j "username".toList "Username is required".toList
  let email ← requiredText j "email".toList "Email is required".toList
  if !validEmail email then .error (.validation "Email is invalid".toList)
  else
    let password ← requiredPassword j
    return ⟨username, email, password⟩

/-! ### What is accepted -/

/-- The member is this text, and not empty. -/
def HasText (j : Json) (key s : Str) : Prop := member j key = some (.str s) ∧ s ≠ []

def HasPassword (j : Json) (password : Str) : Prop :=
  member j "password".toList = some (.str password) ∧ 6 ≤ password.length

theorem getString_ok {v : Json} {s : Str} : getString v = .ok s ↔ v = .str s := by
  cases v <;> simp [getString]

theorem bind_ok {ε α β : Type} {x : Except ε α} {f : α → Except ε β} {b : β} :
    (x >>= f) = .ok b ↔ ∃ a, x = .ok a ∧ f a = .ok b := by
  cases x with
  | error e =>
    constructor
    · intro h
      cases h
    · rintro ⟨_, h, _⟩
      cases h
  | ok a =>
    constructor
    · intro h
      exact ⟨a, rfl, h⟩
    · rintro ⟨_, h, hf⟩
      cases h
      exact hf

theorem requiredText_ok {j : Json} {key message s : Str} :
    requiredText j key message = .ok s ↔ HasText j key s := by
  unfold requiredText HasText
  cases hm : member j key with
  | none => simp
  | some v =>
    dsimp only
    cases hv : getString v with
    | error e =>
      have hne : v ≠ .str s := fun h => by simp [h, getString] at hv
      simp [hne]
    | ok t =>
      obtain rfl := getString_ok.mp hv
      dsimp only
      by_cases ht : t = []
      · rw [if_pos ht]
        simp only [reduceCtorEq, Option.some.injEq, Json.str.injEq, false_iff, not_and, not_not]
        exact fun h => h ▸ ht
      · rw [if_neg ht]
        simp only [Except.ok.injEq, Option.some.injEq, Json.str.injEq]
        exact ⟨fun h => ⟨h, h ▸ ht⟩, fun h => h.1⟩

theorem requiredPassword_ok {j : Json} {password : Str} :
    requiredPassword j = .ok password ↔ HasPassword j password := by
  unfold requiredPassword HasPassword
  split
  · rename_i p hm
    rw [hm]
    by_cases hp : p.length < 6
    · rw [if_pos hp]
      simp only [reduceCtorEq, Option.some.injEq, Json.str.injEq, false_iff, not_and]
      rintro rfl
      omega
    · rw [if_neg hp]
      simp only [Except.ok.injEq, Option.some.injEq, Json.str.injEq]
      exact ⟨fun h => ⟨h, h ▸ Nat.le_of_not_lt hp⟩, fun h => h.1⟩
  · rename_i hne
    simp only [reduceCtorEq, false_iff, not_and]
    exact fun h => absurd h (hne password)

theorem register_ok {j : Json} {s : RegisterSerializer} :
    RegisterSerializer.from_json j = .ok s ↔
      HasText j "username".toList s.username ∧ HasText j "email".toList s.email ∧
        HasPassword j s.password := by
  unfold RegisterSerializer.from_json
  simp only [bind_ok, requiredText_ok, requiredPassword_ok]
  constructor
  · rintro ⟨username, hu, email, he, password, hp, h⟩
    cases h
    exact ⟨hu, he, hp⟩
  · rintro ⟨hu, he, hp⟩
    exact ⟨_, hu, _, he, _, hp, rfl⟩

theorem login_ok {j : Json} {s : LoginSerializer} :
    LoginSerializer.from_json j = .ok s ↔
      HasText j "email".toList s.email ∧ validEmail s.email = true ∧ HasPassword j s.password := by
  unfold LoginSerializer.from_json
  simp only [bind_ok, requiredText_ok]
  constructor
  · rintro ⟨email, he, h⟩
    split at h
    · cases h
    · rename_i hv
      obtain ⟨password, hp, h⟩ := bind_ok.mp h
      cases h
      exact ⟨he, by simpa using hv, requiredPassword_ok.mp hp⟩
  · rintro ⟨he, hv, hp⟩
    refine ⟨_, he, ?_⟩
    rw [hv]
    exact bind_ok.mpr ⟨_, requiredPassword_ok.mpr hp, rfl⟩

theorem create_ok {j : Json} {s : UserCreateSerializer} :
    UserCreateSerializer.from_json j = .ok s ↔
      HasText j "username".toList s.username ∧ HasText j "email".toList s.email ∧
        validEmail s.email = true ∧ HasPassword j s.password := by
  unfold UserCreateSerializer.from_json
  simp only [bind_ok, requiredText_ok]
  constructor
  · rintro ⟨username, hu, email, he, h⟩
    split at h
    · cases h
    · rename_i hv
      obtain ⟨password, hp, h⟩ := bind_ok.mp h
      cases h
      exact ⟨hu, he, by simpa using hv, requiredPassword_ok.mp hp⟩
  · rintro ⟨hu, he, hv, hp⟩
    refine ⟨_, hu, _, he, ?_⟩
    rw [hv]
    exact bind_ok.mpr ⟨_, requiredPassword_ok.mpr hp, rfl⟩

theorem presentText_accepts {j : Json} {key message : Str} {value : Option Str} :
    presentText j key message = .ok value ↔
      member j key = value.map .str ∧ ∀ s ∈ value, s ≠ [] := by
  unfold presentText
  cases member j key with
  | none => cases value <;> simp
  | some v =>
    dsimp only
    cases hv : getString v with
    | error e =>
      have hne : ∀ s, v ≠ .str s := fun s h => by simp [h, getString] at hv
      cases value <;> simp [hne]
    | ok t =>
      obtain rfl := getString_ok.mp hv
      dsimp only
      split
      · rename_i ht
        cases value <;> simp [ht]
      · rename_i ht
        cases value with
        | none => simp
        | some s =>
          simp only [Except.ok.injEq, Option.some.injEq, Option.map_some, Json.str.injEq,
            Option.mem_some_iff, forall_eq']
          exact ⟨fun h => ⟨h, h ▸ ht⟩, fun h => h.1⟩

theorem presentText_ok {j : Json} {key message s : Str}
    (h : presentText j key message = .ok (some s)) : HasText j key s := by
  obtain ⟨hm, hne⟩ := presentText_accepts.mp h
  exact ⟨hm, hne s rfl⟩

/-- The e-mail address and the password of an accepted update. -/
theorem update_ok {lib : Library} {j : Json} {data : UserUpdateSerializer}
    (h : from_json lib j = .ok data) :
    (∀ email, data.email = some email → HasText j "email".toList email ∧ validEmail email = true) ∧
    ∀ password, data.password = some password → HasPassword j password := by
  unfold from_json at h
  simp only [bind_ok] at h
  obtain ⟨_, _, username, _, email, hemail, h⟩ := h
  split at h
  · cases h
  rename_i hvalid
  have hmail : ∀ e, email = some e → HasText j "email".toList e ∧ validEmail e = true := by
    rintro e rfl
    exact ⟨presentText_ok hemail, by simpa using hvalid⟩
  split at h
  · cases h
    exact ⟨hmail, fun _ h => by cases h⟩
  · rename_i password hp
    split at h
    · cases h
    · rename_i hlong
      cases h
      refine ⟨hmail, fun p hsome => ?_⟩
      cases hsome
      exact ⟨hp, Nat.le_of_not_lt hlong⟩
  · cases h

/-! ### Logging in afterwards -/

def loginBody (email password : Str) : Json :=
  .obj [("email".toList, .str email), ("password".toList, .str password)]

/-- `LoginSerializer` accepts this e-mail address with this password. -/
def CanLogIn (email password : Str) : Prop :=
  ∃ s, LoginSerializer.from_json (loginBody email password) = .ok s

theorem canLogIn_iff {email password : Str} (he : email ≠ []) (hp : 6 ≤ password.length) :
    CanLogIn email password ↔ validEmail email = true := by
  have hemail : member (loginBody email password) "email".toList = some (.str email) := rfl
  have hpassword : member (loginBody email password) "password".toList = some (.str password) := rfl
  unfold CanLogIn
  simp only [login_ok, HasText, HasPassword, hemail, hpassword, Option.some.injEq, Json.str.injEq]
  constructor
  · rintro ⟨s, ⟨rfl, _⟩, hv, _⟩
    exact hv
  · intro hv
    exact ⟨⟨email, password⟩, ⟨rfl, he⟩, hv, rfl, hp⟩

/-- What is accepted by a serializer that writes an account can log in. -/
def AccountsCanLogIn (lib : Library) (j : Json) : Prop :=
  (∀ s, RegisterSerializer.from_json j = .ok s → CanLogIn s.email s.password) ∧
  (∀ s, UserCreateSerializer.from_json j = .ok s → CanLogIn s.email s.password) ∧
  ∀ s email password, from_json lib j = .ok s → s.email = some email →
    s.password = some password → CanLogIn email password

/-- Only a registration with an e-mail address that the pattern refuses leads to an account
that cannot log in. -/
theorem accounts_can_log_in_iff (lib : Library) (j : Json) :
    AccountsCanLogIn lib j ↔
      ∀ username email password, HasText j "username".toList username →
        HasText j "email".toList email → HasPassword j password → validEmail email = true := by
  constructor
  · rintro ⟨hregister, _⟩ username email password hu he hp
    have hlogin := hregister ⟨username, email, password⟩ (register_ok.mpr ⟨hu, he, hp⟩)
    exact (canLogIn_iff he.2 hp.2).mp hlogin
  · intro hvalid
    refine ⟨fun s hs => ?_, fun s hs => ?_, fun s email password hs hemail hpassword => ?_⟩
    · obtain ⟨hu, he, hp⟩ := register_ok.mp hs
      exact (canLogIn_iff he.2 hp.2).mpr (hvalid _ _ _ hu he hp)
    · obtain ⟨_, he, hv, hp⟩ := create_ok.mp hs
      exact (canLogIn_iff he.2 hp.2).mpr hv
    · obtain ⟨hmail, hpass⟩ := update_ok hs
      obtain ⟨he, hv⟩ := hmail email hemail
      exact (canLogIn_iff he.2 (hpass password hpassword).2).mpr hv

/-- An e-mail address without an at sign. -/
def noAtSign : Json :=
  .obj [("username".toList, .str "u".toList), ("email".toList, .str "abc".toList),
    ("password".toList, .str "secret".toList)]

theorem registered_cannot_log_in :
    RegisterSerializer.from_json noAtSign =
      .ok ⟨"u".toList, "abc".toList, "secret".toList⟩ ∧
    LoginSerializer.from_json (loginBody "abc".toList "secret".toList) =
      .error (.validation "Email is invalid".toList) ∧
    ∀ lib, ¬ AccountsCanLogIn lib noAtSign := by
  have hregister : RegisterSerializer.from_json noAtSign =
      .ok ⟨"u".toList, "abc".toList, "secret".toList⟩ := rfl
  have hinvalid : validEmail "abc".toList = false := by decide +kernel
  refine ⟨hregister, ?_, fun lib h => ?_⟩
  · have hemail : requiredText (loginBody "abc".toList "secret".toList) "email".toList
        "Email is required".toList = .ok "abc".toList := rfl
    unfold LoginSerializer.from_json
    rw [hemail]
    simp only [bind, Except.bind, hinvalid]
    rfl
  · have hlogin := h.1 _ hregister
    rw [canLogIn_iff (by decide) (by decide), hinvalid] at hlogin
    cases hlogin

end AdequateApi.AccountSerializers
