import AdequateApi.HttpMessages
import AdequateApi.Numerals

/-! `EnvConfig::load`, and which values of a numeric variable are read as what they say. Both
numeric settings go through `stoi`, a reader of 32 bits that stops at the first other character. -/
namespace AdequateApi.EnvironmentSettings
open StdString HttpMessages

section getenv

variable {α : Type} (getenv : Str → Option Str)

def getEnvOrDefault (key default_ : Str) : Str := (getenv key).getD default_

/-- The body of the two numeric readers, which differ in the `static_cast`. -/
def getEnvOrDefaultInt (cast : ℤ → α) (key : Str) (default_ : α) : Except Str α :=
  match getenv key with
  | none => .ok default_
  | some value =>
      match stoi value with
      | .ok n => .ok (cast n)
      | .error _ => .error ("Invalid integer for env variable: ".toList ++ key)

def getEnvOrDefaultUint16 (key : Str) (default_ : UInt16) : Except Str UInt16 :=
  getEnvOrDefaultInt getenv UInt16.ofInt key default_

def getEnvOrDefaultUint64 (key : Str) (default_ : UInt32) : Except Str UInt64 :=
  getEnvOrDefaultInt getenv UInt64.ofInt key default_.toUInt64

end getenv

/-- All settings; the part that the router reads is an `EnvConfig`. -/
structure Settings extends EnvConfig where
  host : Str
  port : UInt16
  pg_dsn : Str
  pg_pool_size : ℕ := 10
  redis_host : Str
  redis_port : UInt16
  redis_password : Str
  secret_key : Str
  media_path : Str
  deriving DecidableEq, Repr

def load (getenv : Str → Option Str) : Except Str Settings := do
  let port ← getEnvOrDefaultUint16 getenv "APP_PORT".toList 8080
  let redis_port ← getEnvOrDefaultUint16 getenv "REDIS_PORT".toList 6379
  let file_upload_limit_size ← getEnvOrDefaultUint64 getenv "FILE_UPLOAD_LIMIT_SIZE".toList 0
  .ok
    { host := getEnvOrDefault getenv "APP_HOST".toList "0.0.0.0".toList
      port := port
      pg_dsn := getEnvOrDefault getenv "DATABASE_DSN".toList []
      redis_host := getEnvOrDefault getenv "REDIS_HOST".toList "127.0.0.1".toList
      redis_port := redis_port
      redis_password := getEnvOrDefault getenv "REDIS_PASSWORD".toList []
      secret_key := getEnvOrDefault getenv "SECRET_KEY".toList []
      multipart_adapter := getEnvOrDefault getenv "MULTIPART_ADAPTER".toList "POCO".toList
      file_upload_limit_size := file_upload_limit_size.toNat
      media_path := getEnvOrDefault getenv "MEDIA_PATH".toList "media".toList }

/-! ### Reading a number -/

/-- A number is returned when the whole text is a numeral of it and the type holds it, and in no
other case. -/
def ReadsExactly {α : Type} (bound : ℕ) (toNat : α → ℕ) (value : Str) (result : Except Str α) :
    Prop :=
  ∀ n, (∃ x, result = .ok x ∧ toNat x = n) ↔ decimal value = some n ∧ n < bound

/-- No number stands at the start of the text, or one that an `int` does not hold. -/
def BeyondInt (value : Str) : Prop :=
  ∀ n, leadingNumber value = some n → n < -2147483648 ∨ 2147483647 < n

theorem stoi_cases (value : Str) :
    (∃ n, leadingNumber value = some n ∧ -2147483648 ≤ n ∧ n ≤ 2147483647 ∧ stoi value = .ok n) ∨
    (BeyondInt value ∧ stoi value = .error "stoi".toList) := by
  rw [stoi_eq, readInteger]
  cases h : leadingNumber value with
  | none => exact .inr ⟨by simp [BeyondInt, h], rfl⟩
  | some n =>
    by_cases hn : -2147483648 ≤ n ∧ n ≤ 2147483647
    · exact .inl ⟨n, rfl, hn.1, hn.2, if_pos hn⟩
    · refine .inr ⟨fun m hm => ?_, if_neg hn⟩
      obtain rfl : n = m := Option.some.inj (h.symm.trans hm)
      omega

section numbers

variable {α : Type} {getenv : Str → Option Str} {key value : Str}

/-- For a cast that keeps the numbers of its type: the text is a numeral that also an `int` holds,
or one that neither holds, or no `int` at all. -/
theorem getEnvOrDefaultInt_reads_iff {cast : ℤ → α} {toNat : α → ℕ} {bound : ℕ}
    (hcast : ∀ n : ℕ, n < bound → toNat (cast n) = n) (h : getenv key = some value)
    (default_ : α) :
    ReadsExactly bound toNat value (getEnvOrDefaultInt getenv cast key default_) ↔
      (∃ n, decimal value = some n ∧ n < bound ∧ n ≤ 2147483647) ∨
      (BeyondInt value ∧ ∀ n, decimal value = some n → bound ≤ n) := by
  unfold getEnvOrDefaultInt ReadsExactly
  rw [h]
  rcases stoi_cases value with ⟨m, hlead, hlow, hhigh, hstoi⟩ | ⟨hbeyond, hstoi⟩
  · simp only [hstoi, Except.ok.injEq, exists_eq_left']
    constructor
    · intro hreads
      obtain ⟨hread, hn⟩ := (hreads _).mp rfl
      have hm := Option.some.inj (hlead.symm.trans (leadingNumber_decimal hread))
      exact .inl ⟨_, hread, hn, by omega⟩
    · rintro (⟨n, hread, hn, _⟩ | ⟨hbeyond, _⟩)
      · obtain rfl : m = n := Option.some.inj (hlead.symm.trans (leadingNumber_decimal hread))
        simp [hread, hcast n hn]
        omega
      · have hout := hbeyond m hlead
        omega
  · simp only [hstoi, reduceCtorEq, false_and, exists_false, false_iff]
    constructor
    · intro hrefused
      refine .inr ⟨hbeyond, fun n hread => ?_⟩
      have hnot := hrefused n
      simp only [hread, true_and] at hnot
      omega
    · rintro (⟨n, hread, _, hn⟩ | ⟨_, hbig⟩) k ⟨hk, hlt⟩
      · have hout := hbeyond n (leadingNumber_decimal hread)
        omega
      · have hle := hbig k hk
        omega

/-- An error of `getEnvOrDefaultInt` names the variable, whose value has no `int` at its start. -/
theorem getEnvOrDefaultInt_error {cast : ℤ → α} {default_ : α} {e : Str}
    (h : getEnvOrDefaultInt getenv cast key default_ = .error e) :
    e = "Invalid integer for env variable: ".toList ++ key ∧
      ∃ value, getenv key = some value ∧ BeyondInt value := by
  unfold getEnvOrDefaultInt at h
  cases hvalue : getenv key with
  | none => simp [hvalue] at h
  | some value =>
    rcases stoi_cases value with ⟨m, _, _, _, hstoi⟩ | ⟨hbeyond, hstoi⟩
    · simp [hvalue, hstoi] at h
    · simp only [hvalue, hstoi, Except.error.injEq] at h
      exact ⟨h.symm, value, rfl, hbeyond⟩

/-- What the two numeric readers must be given. The signed 32 bits of `stoi` are more than the
port needs and less than the limit needs. -/
theorem env_numbers_iff (h : getenv key = some value) (default16 : UInt16) (default64 : UInt32) :
    (ReadsExactly 65536 UInt16.toNat value (getEnvOrDefaultUint16 getenv key default16) ↔
      (∃ n, decimal value = some n ∧ n < 65536) ∨ BeyondInt value) ∧
    (ReadsExactly 18446744073709551616 UInt64.toNat value
        (getEnvOrDefaultUint64 getenv key default64) ↔
      (∃ n, decimal value = some n ∧ n ≤ 2147483647) ∨
        (BeyondInt value ∧ ∀ n, decimal value = some n → 18446744073709551616 ≤ n)) := by
  have hcast16 : ∀ n : ℕ, n < 65536 → (UInt16.ofInt n).toNat = n := by
    intro n hn
    have hmod : ((n : ℤ) % 2 ^ 16).toNat = n := by omega
    rw [UInt16.ofInt, hmod, UInt16.toNat_ofNat_of_lt' hn]
  have hcast64 : ∀ n : ℕ, n < 18446744073709551616 → (UInt64.ofInt n).toNat = n := by
    intro n hn
    have hmod : ((n : ℤ) % 2 ^ 64).toNat = n := by omega
    rw [UInt64.ofInt, hmod, UInt64.toNat_ofNat_of_lt' hn]
  constructor
  · refine (getEnvOrDefaultInt_reads_iff hcast16 h default16).trans ⟨?_, ?_⟩
    · rintro (⟨n, hread, hn, _⟩ | ⟨hbeyond, _⟩)
      · exact .inl ⟨n, hread, hn⟩
      · exact .inr hbeyond
    · rintro (⟨n, hread, hn⟩ | hbeyond)
      · exact .inl ⟨n, hread, hn, by omega⟩
      · refine .inr ⟨hbeyond, fun n hread => ?_⟩
        have hout := hbeyond n (leadingNumber_decimal hread)
        omega
  · refine (getEnvOrDefaultInt_reads_iff hcast64 h default64.toUInt64).trans ⟨?_, ?_⟩
    · rintro (⟨n, hread, _, hn⟩ | hbeyond)
      · exact .inl ⟨n, hread, hn⟩
      · exact .inr hbeyond
    · rintro (⟨n, hread, hn⟩ | hbeyond)
      · exact .inl ⟨n, hread, by omega, hn⟩
      · exact .inr hbeyond

end numbers

theorem except_bind_error {ε α β : Type} {x : Except ε α} {f : α → Except ε β} {e : ε}
    (h : (x >>= f) = .error e) : x = .error e ∨ ∃ a, x = .ok a ∧ f a = .error e := by
  cases x with
  | error e' => exact .inl (congrArg Except.error (Except.error.inj h))
  | ok a => exact .inr ⟨a, rfl, h⟩

/-- A configuration that is not loaded has a numeric variable whose value is no `int`. -/
theorem load_error {getenv : Str → Option Str} {e : Str} (h : load getenv = .error e) :
    ∃ key ∈ ["APP_PORT".toList, "REDIS_PORT".toList, "FILE_UPLOAD_LIMIT_SIZE".toList],
      e = "Invalid integer for env variable: ".toList ++ key ∧
        ∃ value, getenv key = some value ∧ BeyondInt value := by
  rcases except_bind_error h with hport | ⟨port, _, h⟩
  · exact ⟨_, by simp, getEnvOrDefaultInt_error hport⟩
  rcases except_bind_error h with hredis | ⟨redis_port, _, h⟩
  · exact ⟨_, by simp, getEnvOrDefaultInt_error hredis⟩
  rcases except_bind_error h with hlimit | ⟨limit, _, h⟩
  · exact ⟨_, by simp, getEnvOrDefaultInt_error hlimit⟩
  · cases h

/-- The numbers of `.env.example`. -/
def shipped (key : Str) : Option Str :=
  if key = "APP_PORT".toList then some "8080".toList
  else if key = "REDIS_PORT".toList then some "6379".toList
  else if key = "FILE_UPLOAD_LIMIT_SIZE".toList then some "20_000_000".toList
  else none

theorem env_numbers_iff_port :
    ReadsExactly 65536 UInt16.toNat "8080".toList
      (getEnvOrDefaultUint16 shipped "APP_PORT".toList 0) := by
  have hset : shipped "APP_PORT".toList = some "8080".toList := rfl
  exact (env_numbers_iff hset 0 0).1.mpr (.inl ⟨8080, by decide +kernel, by decide⟩)

/-- The limit becomes 20 bytes. -/
theorem upload_limit_cut_short :
    (load shipped).map (fun settings => settings.file_upload_limit_size) = .ok 20 ∧
      ¬ ReadsExactly 18446744073709551616 UInt64.toNat "20_000_000".toList
        (getEnvOrDefaultUint64 shipped "FILE_UPLOAD_LIMIT_SIZE".toList 0) := by
  refine ⟨by decide +kernel, fun h => ?_⟩
  obtain ⟨hread, _⟩ := (h 20).mp ⟨20, by decide +kernel, rfl⟩
  exact absurd hread (by decide +kernel)

end AdequateApi.EnvironmentSettings
