import AdequateApi.Numerals
import AdequateApi.UsersRepository

/-! `JwtService`. The functions of jwt-cpp are a parameter; a moment is a reading of the system
clock in nanoseconds. -/
namespace AdequateApi.JwtService
open StdString UsersRepository

/-- The value of a claim. -/
inductive Claim
  | text (s : Str)
  | number (n : ℕ)
  deriving DecidableEq, Repr

/-- The exceptions of `decode` by the handler that catches them. -/
inductive JwtFailure
  | signature_verification (what : Str)
  | token_verification (what : Str)
  | claim_not_present (what : Str)
  | std (what : Str)
  | unknown
  deriving DecidableEq, Repr

inductive JwtError
  | InvalidSignature
  | TokenExpired
  | InvalidClaim
  | DecodeError
  | Unknown
  deriving DecidableEq, Repr

structure JwtException where
  err : JwtError
  msg : Str
  deriving DecidableEq, Repr

structure DecodedJwt where
  token : Str
  payload : Dict Claim
  deriving DecidableEq, Repr

/-- What the service takes from jwt-cpp: signing with HS256, decoding, and verifying the
signature, the issuer and the times. -/
structure JwtCpp where
  sign : (header payload : Dict Claim) → (secret : Str) → Except JwtFailure Str
  decode : Str → Except JwtFailure DecodedJwt
  verify : (secret issuer : Str) → (now : ℕ) → DecodedJwt → Except JwtFailure Unit

def second : ℕ := 1000000000

/-- `system_clock::to_time_t`. -/
def to_time_t (moment : ℕ) : ℕ := moment / second

/-! ### The service -/

def header : Dict Claim := Dict.set [] "typ".toList (.text "JWS".toList)

/-- The two calls of `now` for the two times may give different readings. -/
def payload (user : UserEntity) (issued now : ℕ) : Dict Claim :=
  (((Dict.set [] "iss".toList (.text "adequate-api".toList)).set "sub".toList
    (.text (to_string user.id))).set "iat".toList (.number (to_time_t issued))).set "exp".toList
    (.number (to_time_t (now + 3600 * second)))

def DecodedJwt.get_payload_claim (data : DecodedJwt) (name : Str) : Except JwtFailure Claim :=
  match data.payload.find name with
  | some claim => .ok claim
  | none => .error (.claim_not_present "claim not found".toList)

def Claim.as_string : Claim → Except JwtFailure Str
  | .text s => .ok s
  | .number _ => .error (.std "std::bad_cast".toList)

/-- The handlers of `decode`. -/
def caught : JwtFailure → JwtException
  | .signature_verification what => ⟨.InvalidSignature, what⟩
  | .token_verification what => ⟨.TokenExpired, what⟩
  | .claim_not_present what => ⟨.InvalidClaim, what⟩
  | .std what => ⟨.DecodeError, what⟩
  | .unknown => ⟨.Unknown, "Unknown JWT error".toList⟩

section service
variable (jwt : JwtCpp) (secret_key : Str)

def encode (user : UserEntity) (issued now : ℕ) : Except JwtFailure Str :=
  jwt.sign header (payload user issued now) secret_key

/-- The body of the `try`. -/
def decodeClaims (token : Str) (now : ℕ) : Except JwtFailure UserEntity := do
  let data ← jwt.decode token
  jwt.verify secret_key "adequate-api".toList now data
  let sub ← data.get_payload_claim "sub".toList
  let text ← sub.as_string
  let id ← (stoi text).mapError .std
  return ⟨id, none, none, none, none⟩

def decode (token : Str) (now : ℕ) : Except JwtException UserEntity :=
  (decodeClaims jwt secret_key token now).mapError caught

end service

/-! ### Round trip -/

/-- What jwt-cpp documents, for one header and payload: the signed token is decoded to the
same claims, and verified under the same secret from its issue until its expiry. -/
def JwtCpp.Honours (jwt : JwtCpp) (header payload : Dict Claim) (secret : Str) : Prop :=
  ∃ token data, jwt.sign header payload secret = .ok token ∧ jwt.decode token = .ok data ∧
    data.payload = payload ∧
    ∀ issuer iat exp now, payload.find "iss".toList = some (.text issuer) →
      payload.find "iat".toList = some (.number iat) →
      payload.find "exp".toList = some (.number exp) → iat * second ≤ now → now ≤ exp * second →
      jwt.verify secret issuer now data = .ok ()

theorem payload_iss (user : UserEntity) (issued now : ℕ) :
    (payload user issued now).find "iss".toList = some (.text "adequate-api".toList) := rfl

theorem payload_sub (user : UserEntity) (issued now : ℕ) :
    (payload user issued now).find "sub".toList = some (.text (to_string user.id)) := rfl

theorem payload_iat (user : UserEntity) (issued now : ℕ) :
    (payload user issued now).find "iat".toList = some (.number (to_time_t issued)) := rfl

theorem payload_exp (user : UserEntity) (issued now : ℕ) :
    (payload user issued now).find "exp".toList =
      some (.number (to_time_t (now + 3600 * second))) := rfl

/-- Before its expiry a token is read down to the number in its subject. -/
theorem decode_encode {jwt : JwtCpp} {secret : Str} {user : UserEntity} {issued now moment : ℕ}
    (h : jwt.Honours header (payload user issued now) secret) (hissued : issued ≤ moment)
    (hexpiry : moment < to_time_t (now + 3600 * second) * second) :
    ∃ token, encode jwt secret user issued now = .ok token ∧
      decode jwt secret token moment =
        ((stoi (to_string user.id)).mapError fun what => ⟨.DecodeError, what⟩).map
          fun id => ⟨id, none, none, none, none⟩ := by
  obtain ⟨token, data, hsign, hdecode, hclaims, hverify⟩ := h
  refine ⟨token, hsign, ?_⟩
  have hiat : to_time_t issued * second ≤ moment :=
    (Nat.div_mul_le_self issued second).trans hissued
  have hok := hverify _ _ _ moment (payload_iss _ _ _) (payload_iat _ _ _) (payload_exp _ _ _) hiat
    hexpiry.le
  have hsub : data.get_payload_claim "sub".toList = .ok (.text (to_string user.id)) := by
    rw [DecodedJwt.get_payload_claim, hclaims, payload_sub]
  simp only [decode, decodeClaims, hdecode, hok, hsub, Claim.as_string, bind, Except.bind]
  cases stoi (to_string user.id) <;> rfl

/-- Whatever the secret and the moments: a token is read back as its user exactly when the id
fits into an `int`. -/
theorem token_round_trip_iff (jwt : JwtCpp) (secret : Str) (user : UserEntity)
    (hid : 1 ≤ user.id) (issued now moment : ℕ)
    (h : jwt.Honours header (payload user issued now) secret) (hissued : issued ≤ moment)
    (hexpiry : moment < to_time_t (now + 3600 * second) * second) :
    (∃ token, encode jwt secret user issued now = .ok token ∧
      ∃ decoded, decode jwt secret token moment = .ok decoded ∧ decoded.id = user.id) ↔
      user.id ≤ 2147483647 := by
  obtain ⟨token, hencode, hdecode⟩ := decode_encode h hissued hexpiry
  rw [stoi_eq] at hdecode
  constructor
  · rintro ⟨token', hencode', decoded, hdecoded, _⟩
    rw [hencode] at hencode'
    cases hencode'
    by_contra hbeyond
    rw [hdecode, readInteger_beyond _ (by omega)] at hdecoded
    cases hdecoded
  · intro hle
    rw [readInteger_to_string _ (by omega) hle] at hdecode
    exact ⟨token, hencode, _, hdecode, rfl⟩

/-- The checks of issuer and times. -/
def verifyClaims (claims : Dict Claim) (issuer : Str) (now : ℕ) : Except JwtFailure Unit :=
  match claims.find "iat".toList, claims.find "exp".toList with
  | some (.number iat), some (.number exp) =>
      if now < iat * second ∨ exp * second < now then
        .error (.token_verification "token expired".toList)
      else if claims.find "iss".toList = some (.text issuer) then .ok ()
      else .error (.token_verification "claim value does not match expected".toList)
  | _, _ => .error (.token_verification "token expired".toList)

/-- jwt-cpp as far as one token goes: other claims get a token that is refused. -/
def oneToken (claims : Dict Claim) (key token : Str) : JwtCpp where
  sign := fun _ payload secret =>
    .ok (if payload = claims ∧ secret = key then token else "e30.e30.".toList)
  decode := fun text =>
    if text = token then .ok ⟨token, claims⟩ else .error (.std "invalid token supplied".toList)
  verify := fun secret issuer now data =>
    if secret = key then verifyClaims data.payload issuer now
    else .error (.signature_verification "invalid signature".toList)

theorem oneToken_honours (header claims : Dict Claim) (key token : Str) :
    (oneToken claims key token).Honours header claims key := by
  refine ⟨token, ⟨token, claims⟩, congrArg _ (if_pos ⟨rfl, rfl⟩), if_pos rfl, rfl, ?_⟩
  intro issuer iat exp now hiss hiat hexp hle hlt
  have hin : ¬ (now < iat * second ∨ exp * second < now) := not_or.mpr ⟨hle.not_gt, hlt.not_gt⟩
  have hclaims : verifyClaims claims issuer now = .ok () := by
    unfold verifyClaims
    rw [hiat, hexp]
    dsimp only
    rw [if_neg hin, if_pos hiss]
  rw [← hclaims]
  exact if_pos rfl

/-- Before its expiry the token is read as its user. -/
theorem oneToken_decode {user : UserEntity} {issued now moment : ℕ} (key token : Str)
    (hissued : issued ≤ moment) (hexpiry : moment < to_time_t (now + 3600 * second) * second) :
    decode (oneToken (payload user issued now) key token) key token moment =
      ((stoi (to_string user.id)).mapError fun what => ⟨.DecodeError, what⟩).map
        fun id => ⟨id, none, none, none, none⟩ := by
  obtain ⟨token', hencode, hdecode⟩ :=
    decode_encode (oneToken_honours header (payload user issued now) key token) hissued hexpiry
  have hsigned : encode (oneToken (payload user issued now) key token) key user issued now =
      .ok token := congrArg _ (if_pos ⟨rfl, rfl⟩)
  obtain rfl : token' = token := Except.ok.inj (hencode.symm.trans hsigned)
  exact hdecode

/-- 1760000000 seconds after the epoch. -/
def autumn : ℕ := 1760000000 * second

def seven : UserEntity := ⟨7, none, none, none, none⟩

def tokenOfSeven : JwtCpp :=
  oneToken (payload seven autumn autumn) "secret".toList
    ("eyJhbGciOiJIUzI1NiIsInR5cCI6IkpXUyJ9.eyJleHAiOjE3NjAwMDM2MDAsImlhdCI6MTc2MDAwMDAwMCwiaXNz" ++
      "IjoiYWRlcXVhdGUtYXBpIiwic3ViIjoiNyJ9.Ma18zGcN9lDtxskY0wf7LWBKyq4ql7UehT-U7ZCdQQ0").toList

theorem token_round_trip_iff_seven :
    ∃ token, encode tokenOfSeven "secret".toList seven autumn autumn = .ok token ∧
      ∃ decoded, decode tokenOfSeven "secret".toList token (autumn + 5) = .ok decoded ∧
        decoded.id = 7 :=
  (token_round_trip_iff tokenOfSeven "secret".toList seven (by decide) autumn autumn (autumn + 5)
    (oneToken_honours _ _ _ _) (by decide) (by decide)).mpr (by decide)

def beyondInt : UserEntity := ⟨2147483648, none, none, none, none⟩

def tokenBeyondInt : JwtCpp :=
  oneToken (payload beyondInt autumn autumn) "secret".toList
    ("eyJhbGciOiJIUzI1NiIsInR5cCI6IkpXUyJ9.eyJleHAiOjE3NjAwMDM2MDAsImlhdCI6MTc2MDAwMDAwMCwiaXNz" ++
      "IjoiYWRlcXVhdGUtYXBpIiwic3ViIjoiMjE0NzQ4MzY0OCJ9." ++
      "CEwiv7jjShXFn8ErhsECOhn9g2Bq109rqgEuDg5lg3k").toList

/-- The token of the user after the last one an `int` can hold is refused. -/
theorem token_refused :
    tokenBeyondInt.Honours header (payload beyondInt autumn autumn) "secret".toList ∧
    ∃ token, encode tokenBeyondInt "secret".toList beyondInt autumn autumn = .ok token ∧
      decode tokenBeyondInt "secret".toList token (autumn + 5) =
        .error ⟨.DecodeError, "stoi".toList⟩ := by
  have h := oneToken_honours header (payload beyondInt autumn autumn) "secret".toList
    ("eyJhbGciOiJIUzI1NiIsInR5cCI6IkpXUyJ9.eyJleHAiOjE3NjAwMDM2MDAsImlhdCI6MTc2MDAwMDAwMCwiaXNz" ++
      "IjoiYWRlcXVhdGUtYXBpIiwic3ViIjoiMjE0NzQ4MzY0OCJ9." ++
      "CEwiv7jjShXFn8ErhsECOhn9g2Bq109rqgEuDg5lg3k").toList
  refine ⟨h, ?_⟩
  have hissued : autumn ≤ autumn + 5 := by omega
  obtain ⟨token, hencode, hdecode⟩ := decode_encode h hissued (by decide)
  refine ⟨token, hencode, hdecode.trans ?_⟩
  have hstoi : stoi (to_string 2147483648) = .error "stoi".toList := by decide
  rw [show beyondInt.id = 2147483648 from rfl, hstoi]
  rfl

end AdequateApi.JwtService
