import AdequateApi.ServerErrors

/-! Which bodies the four `from_json` accept, and with what they refuse the others. -/
namespace AdequateApi.BodyValidation
open StdString HttpMessages RegexPattern AdequateApi.UsersService AdequateApi.UsersController
  AccountSerializers RequestLog JsonText AnswerStatus AccountAnswers UserUpdateAnswers

/-! ### The pattern of an address -/

/-- A non-empty text without at signs and blanks. -/
def Part (w : Str) : Prop := w ≠ [] ∧ ∀ c ∈ w, c ≠ '@' ∧ isSpace c = false

instance : DecidablePred Part := fun w => inferInstanceAs (Decidable (w ≠ [] ∧ ∀ c ∈ w, _))

/-- A name, an at sign, and two parts with a dot between them. -/
def Address (email : Str) : Prop :=
  ∃ name domain zone, Part name ∧ Part domain ∧ Part zone ∧
    email = name ++ '@' :: (domain ++ '.' :: zone)

theorem inSet_part (c : Char) :
    Regex.inSet true [.single '@', .space] c = true ↔ c ≠ '@' ∧ isSpace c = false := by
  simp [Regex.inSet, ClassItem.mem]

theorem parse_address : parse "^[^@\\s]+@[^@\\s]+\\.[^@\\s]+$".toList =
    some (.seqs [.bol, .plus (.set true [.single '@', .space]), .char '@',
      .plus (.set true [.single '@', .space]), .char '.',
      .plus (.set true [.single '@', .space]), .eol]) := by
  decide +kernel

theorem moves_part {p q : Pos} (h : Regex.Moves (.plus (.set true [.single '@', .space])) p q) :
    ∃ w, Part w ∧ p.rest = w ++ q.rest := by
  obtain ⟨w, hne, hw, hrest⟩ := moves_plus_set h
  exact ⟨w, ⟨hne, fun c hc => (inSet_part c).mp (hw c hc)⟩, hrest⟩

theorem moves_part_of {w b s : Str} (h : Part w) :
    Regex.Moves (.plus (.set true [.single '@', .space])) ⟨b, w ++ s⟩ ⟨b ++ w, s⟩ :=
  moves_plus_set_of h.1 fun c hc => (inSet_part c).mpr (h.2 c hc)

theorem validEmail_iff {email : Str} : validEmail email = true ↔ Address email := by
  rw [validEmail, parse_address, Option.bind_some, fullMatch_isSome]
  constructor
  · rintro ⟨b, h⟩
    obtain ⟨_, hbol, h⟩ := moves_seqs_cons.mp h
    obtain ⟨_, hname, h⟩ := moves_seqs_cons.mp h
    obtain ⟨_, hat, h⟩ := moves_seqs_cons.mp h
    obtain ⟨_, hdomain, h⟩ := moves_seqs_cons.mp h
    obtain ⟨_, hdot, h⟩ := moves_seqs_cons.mp h
    obtain ⟨_, hzone, h⟩ := moves_seqs_cons.mp h
    obtain ⟨_, heol, hend⟩ := moves_seqs_cons.mp h
    cases hbol
    obtain ⟨name, hn, hrest⟩ := moves_part hname
    cases hat
    obtain ⟨domain, hd, hrest'⟩ := moves_part hdomain
    cases hdot
    obtain ⟨zone, hz, hrest''⟩ := moves_part hzone
    cases heol
    refine ⟨name, domain, zone, hn, hd, hz, ?_⟩
    dsimp only at hrest hrest' hrest''
    rw [hrest, hrest', hrest'', List.append_nil]
  · rintro ⟨name, domain, zone, hn, hd, hz, rfl⟩
    have hzone := moves_part_of (b := name ++ ['@'] ++ domain ++ ['.']) (s := []) hz
    rw [List.append_nil] at hzone
    refine ⟨name ++ ['@'] ++ domain ++ ['.'] ++ zone, moves_seqs_cons.mpr ⟨_, .bol, ?_⟩⟩
    refine moves_seqs_cons.mpr ⟨_, moves_part_of hn, moves_seqs_cons.mpr ⟨_, .char, ?_⟩⟩
    refine moves_seqs_cons.mpr ⟨_, moves_part_of hd, moves_seqs_cons.mpr ⟨_, .char, ?_⟩⟩
    exact moves_seqs_cons.mpr ⟨_, hzone, moves_seqs_cons.mpr ⟨_, .eol, .empty⟩⟩

/-! ### What is foreign to validation -/

/-- A failure is a `ValidationError`. -/
def ValidationOnly {α : Type} (r : Except Exn α) : Prop :=
  ∀ e, r = .error e → ∃ what, e = .validation what

theorem validationOnly_of_soft {α : Type} {r : Except Exn α} (h : Soft r) : ValidationOnly r := by
  intro e he
  obtain ⟨what, hwhat, _⟩ := h e he
  exact ⟨what, hwhat⟩

theorem not_validationOnly {α : Type} {r : Except Exn α} {what : Str} (h : r = .error (.std what)) :
    ¬ ValidationOnly r := by
  intro hr
  obtain ⟨_, hstd⟩ := hr _ h
  cases hstd

/-- `get` throws for a member of another type, before the type is tested. -/
theorem requiredText_foreign {j : Json} {key : Str} (h : ¬ TextOrAbsent j key) :
    ∃ what, ∀ message, requiredText j key message = .error (.std what) := by
  simp only [TextOrAbsent, not_forall] at h
  obtain ⟨v, hv, hne⟩ := h
  obtain ⟨what, hwhat⟩ : ∃ what, getString v = .error (.std what) := by
    cases v with
    | str s => exact absurd ⟨s, rfl⟩ hne
    | _ => exact ⟨_, rfl⟩
  exact ⟨what, fun message => by simp only [requiredText, hv, hwhat]⟩

theorem create_foreign {j : Json} (h : ¬ TextOrAbsent j "username".toList) :
    ¬ ValidationOnly (UserCreateSerializer.from_json j) := by
  obtain ⟨what, hwhat⟩ := requiredText_foreign h
  have hthrown : UserCreateSerializer.from_json j = .error (.std what) := by
    rw [UserCreateSerializer.from_json, hwhat]
    rfl
  exact not_validationOnly hthrown

theorem login_foreign {j : Json} (h : ¬ TextOrAbsent j "email".toList) :
    ¬ ValidationOnly (LoginSerializer.from_json j) := by
  obtain ⟨what, hwhat⟩ := requiredText_foreign h
  have hthrown : LoginSerializer.from_json j = .error (.std what) := by
    rw [LoginSerializer.from_json, hwhat]
    rfl
  exact not_validationOnly hthrown

/-- The dump for the log throws for a text that is not UTF-8. -/
theorem update_foreign {lib : Library} (hlib : JsonLibrary lib) {j : Json} (h : ¬ Written j) :
    ¬ ValidationOnly (from_json lib j) := by
  cases hdump : lib.dump j (-1) with
  | ok text => exact absurd ((hlib.dump j (-1)).mp ⟨text, hdump⟩) h
  | error what =>
    have hthrown : from_json lib j = .error (.std what) := by
      rw [from_json_eq, hdump]
      rfl
    exact not_validationOnly hthrown

/-! ### What is accepted -/

/-- A member that is there satisfies the condition of the member that must be there. -/
def IfPresent (j : Json) (key : Str) (ok : Str → Prop) : Prop :=
  ∀ v, member j key = some v → ∃ s, v = .str s ∧ ok s

def Present (j : Json) (key : Str) (ok : Str → Prop) : Prop :=
  ∃ s, member j key = some (.str s) ∧ ok s

def Name (s : Str) : Prop := s ≠ []

def Password (s : Str) : Prop := 6 ≤ s.length

/-- All members of a user are there and valid. -/
def ValidCreate (j : Json) : Prop :=
  Present j "username".toList Name ∧ Present j "email".toList Address ∧
    Present j "password".toList Password

/-- The members that are there are valid. -/
def ValidUpdate (j : Json) : Prop :=
  IfPresent j "username".toList Name ∧ IfPresent j "email".toList Address ∧
    IfPresent j "password".toList Password

theorem Address.ne_nil {email : Str} (h : Address email) : email ≠ [] := by
  obtain ⟨name, domain, zone, hn, _, _, rfl⟩ := h
  simp

theorem create_accepts {j : Json} :
    (∃ s, UserCreateSerializer.from_json j = .ok s) ↔ ValidCreate j := by
  simp only [create_ok, validEmail_iff]
  constructor
  · rintro ⟨s, ⟨hu, hne⟩, ⟨he, _⟩, hvalid, hp, hlong⟩
    exact ⟨⟨s.username, hu, hne⟩, ⟨s.email, he, hvalid⟩, s.password, hp, hlong⟩
  · rintro ⟨⟨username, hu, hne⟩, ⟨email, he, hvalid⟩, password, hp, hlong⟩
    exact ⟨⟨username, email, password⟩, ⟨hu, hne⟩, ⟨he, hvalid.ne_nil⟩, hvalid, hp, hlong⟩

theorem presentPassword_accepts {j : Json} {value : Option Str} :
    presentPassword j = .ok value ↔
      member j "password".toList = value.map .str ∧ ∀ s ∈ value, Password s := by
  unfold presentPassword Password
  cases member j "password".toList with
  | none => cases value <;> simp
  | some v =>
    cases v with
    | str password =>
      dsimp only
      split
      · rename_i hshort
        cases value with
        | none => simp
        | some s =>
          simp only [reduceCtorEq, Option.map_some, Option.some.injEq, Json.str.injEq,
            Option.mem_some_iff, forall_eq', false_iff, not_and]
          rintro rfl
          omega
      · rename_i hlong
        cases value with
        | none => simp
        | some s =>
          simp only [Except.ok.injEq, Option.some.injEq, Option.map_some, Json.str.injEq,
            Option.mem_some_iff, forall_eq']
          exact ⟨fun h => ⟨h, h ▸ Nat.le_of_not_lt hlong⟩, fun h => h.1⟩
    | _ => cases value <;> simp

/-- A condition on a member that may be absent, by the value that is read from it. -/
theorem ifPresent_iff {j : Json} {key : Str} {ok : Str → Prop} :
    IfPresent j key ok ↔
      ∃ value : Option Str, member j key = value.map .str ∧ ∀ s ∈ value, ok s := by
  unfold IfPresent
  cases member j key with
  | none => exact iff_of_true (fun v h => by cases h) ⟨none, rfl, by simp⟩
  | some v =>
    constructor
    · intro h
      obtain ⟨s, rfl, hs⟩ := h v rfl
      exact ⟨some s, rfl, by simpa using hs⟩
    · rintro ⟨value, hvalue, hok⟩ w ⟨⟩
      obtain ⟨s, rfl, rfl⟩ := Option.map_eq_some_iff.mp hvalue.symm
      exact ⟨s, rfl, hok s rfl⟩

theorem no_refused_address {email : Option Str} :
    ¬ (email.any fun e => !validEmail e) = true ↔ ∀ s ∈ email, Address s := by
  cases email <;> simp [validEmail_iff]

/-- What an accepted update carries. -/
theorem update_reads {lib : Library} {j : Json} {data : UserUpdateSerializer} :
    from_json lib j = .ok data ↔
      (∃ text, lib.dump j (-1) = .ok text) ∧
      (member j "username".toList = data.username.map .str ∧ ∀ s ∈ data.username, Name s) ∧
      (member j "email".toList = data.email.map .str ∧ ∀ s ∈ data.email, Address s) ∧
      (member j "password".toList = data.password.map .str ∧ ∀ s ∈ data.password, Password s) ∧
      data.picture = from_json.picture j ∧ data.id = 0 := by
  have hdump : (∃ text, (lib.dump j (-1)).mapError Exn.std = .ok text) ↔
      ∃ text, lib.dump j (-1) = .ok text := by
    cases lib.dump j (-1) <;> simp [Except.mapError]
  rw [from_json_eq, ← hdump]
  simp only [AccountSerializers.bind_ok, presentText_accepts]
  constructor
  · rintro ⟨text, htext, username, hu, email, he, h⟩
    split at h
    · cases h
    · rename_i haddress
      obtain ⟨password, hp, h⟩ := AccountSerializers.bind_ok.mp h
      cases h
      exact ⟨⟨text, htext⟩, hu, ⟨he.1, no_refused_address.mp haddress⟩,
        presentPassword_accepts.mp hp, rfl, rfl⟩
  · obtain ⟨id, username, picture, email, password⟩ := data
    rintro ⟨⟨text, htext⟩, hu, he, hp, rfl, rfl⟩
    refine ⟨text, htext, username, hu, email, ⟨he.1, fun s hs => (he.2 s hs).ne_nil⟩, ?_⟩
    rw [if_neg (no_refused_address.mpr he.2)]
    exact AccountSerializers.bind_ok.mpr ⟨password, presentPassword_accepts.mpr hp, rfl⟩

theorem update_accepts {lib : Library} (hlib : JsonLibrary lib) {j : Json} :
    (∃ data, from_json lib j = .ok data) ↔ Written j ∧ ValidUpdate j := by
  unfold ValidUpdate
  simp only [update_reads, hlib.dump, ifPresent_iff]
  constructor
  · rintro ⟨data, hj, hu, he, hp, _⟩
    exact ⟨hj, ⟨_, hu⟩, ⟨_, he⟩, _, hp⟩
  · rintro ⟨hj, ⟨username, hu⟩, ⟨email, he⟩, password, hp⟩
    exact ⟨⟨0, username, from_json.picture j, email, password⟩, hj, hu, he, hp, rfl, rfl⟩

/-! ### The statement -/

/-- The four functions return or throw `ValidationError`, a user is created from the valid
objects and updated by them, and what is returned are the values of the body. -/
structure Validated (lib : Library) (j : Json) : Prop where
  create : ValidationOnly (UserCreateSerializer.from_json j)
  update : ValidationOnly (from_json lib j)
  register : ValidationOnly (RegisterSerializer.from_json j)
  login : ValidationOnly (LoginSerializer.from_json j)
  create_accepts : (∃ ms, j = .obj ms) →
    ((∃ s, UserCreateSerializer.from_json j = .ok s) ↔ ValidCreate j)
  update_accepts : (∃ ms, j = .obj ms) → ((∃ s, from_json lib j = .ok s) ↔ ValidUpdate j)
  create_reads : ∀ s, UserCreateSerializer.from_json j = .ok s →
    member j "username".toList = some (.str s.username) ∧
    member j "email".toList = some (.str s.email) ∧
    member j "password".toList = some (.str s.password)
  update_reads : ∀ s, from_json lib j = .ok s →
    member j "username".toList = s.username.map .str ∧
    member j "email".toList = s.email.map .str ∧
    member j "password".toList = s.password.map .str ∧
    ∀ picture ∈ s.picture, member j "picture".toList = some (.str picture)
  register_reads : ∀ s, RegisterSerializer.from_json j = .ok s →
    member j "username".toList = some (.str s.username) ∧
    member j "email".toList = some (.str s.email) ∧
    member j "password".toList = some (.str s.password)
  login_reads : ∀ s, LoginSerializer.from_json j = .ok s →
    member j "email".toList = some (.str s.email) ∧
    member j "password".toList = some (.str s.password)

/-- Name and address are texts where they are there, and every text can be written. -/
def Loggable (j : Json) : Prop :=
  Written j ∧ TextOrAbsent j "username".toList ∧ TextOrAbsent j "email".toList

/-- What the log calls show must not fail before the checks are made. -/
theorem validated_iff {lib : Library} (hlib : JsonLibrary lib) (j : Json) :
    Validated lib j ↔ Loggable j := by
  constructor
  · intro h
    exact ⟨not_imp_not.mp (update_foreign hlib) h.update,
      not_imp_not.mp create_foreign h.create, not_imp_not.mp login_foreign h.login⟩
  · rintro ⟨hj, hname, hemail⟩
    exact {
      create := validationOnly_of_soft (soft_create.mpr ⟨hname, fun _ _ => hemail⟩)
      update := validationOnly_of_soft ((soft_update hlib).mpr ⟨hj, hname, fun _ => hemail⟩)
      register := validationOnly_of_soft (soft_register.mpr ⟨hname, fun _ _ => hemail⟩)
      login := validationOnly_of_soft (soft_login.mpr hemail)
      create_accepts := fun _ => BodyValidation.create_accepts
      update_accepts := fun _ => (BodyValidation.update_accepts hlib).trans (and_iff_right hj)
      create_reads := fun s hs => by
        obtain ⟨hu, he, _, hp⟩ := create_ok.mp hs
        exact ⟨hu.1, he.1, hp.1⟩
      update_reads := fun s hs => by
        obtain ⟨_, hu, he, hp, hpicture, _⟩ := BodyValidation.update_reads.mp hs
        refine ⟨hu.1, he.1, hp.1, fun picture hmem => ?_⟩
        rw [hpicture] at hmem
        exact (picture_read j picture hmem).2
      register_reads := fun s hs => by
        obtain ⟨hu, he, hp⟩ := register_ok.mp hs
        exact ⟨hu.1, he.1, hp.1⟩
      login_reads := fun s hs => by
        obtain ⟨he, _, hp⟩ := login_ok.mp hs
        exact ⟨he.1, hp.1⟩ }

/-- An update of the name alone. -/
def renamed : Json := .obj [("username".toList, .str "ann".toList)]

theorem validated_renamed : Validated ServerErrors.plainApp.lib renamed := by
  have hname : TextOrAbsent renamed "username".toList := by
    rintro _ ⟨⟩
    exact ⟨_, rfl⟩
  have hemail : TextOrAbsent renamed "email".toList := by
    intro v hv
    cases hv
  exact (validated_iff ServerErrors.plain_library renamed).mpr ⟨by decide +kernel, hname, hemail⟩

/-- A number for the name. -/
def numberedName : Json :=
  .obj [("username".toList, .int 5), ("email".toList, .str "a@b.c".toList),
    ("password".toList, .str "secret".toList)]

theorem numbered_name_escapes :
    UserCreateSerializer.from_json numberedName = .error (.std
      "[json.exception.type_error.302] type must be string, but is number".toList) ∧
    ∀ lib, ¬ Validated lib numberedName := by
  have hmessage : "[json.exception.type_error.302] type must be string, but is ".toList ++
      "number".toList =
        "[json.exception.type_error.302] type must be string, but is number".toList := by
    decide +kernel
  have hthrown : UserCreateSerializer.from_json numberedName = .error (.std
      "[json.exception.type_error.302] type must be string, but is number".toList) := by
    rw [← hmessage]
    rfl
  exact ⟨hthrown, fun lib h => not_validationOnly hthrown h.create⟩

end AdequateApi.BodyValidation
