import AdequateApi.StdString

/-! Decimal numerals: what `std::to_string` writes is what `strtol` reads back. -/
namespace AdequateApi.StdString

/-- The number at the start of a text: blanks, a sign and digits. -/
def leadingNumber (s : Str) : Option ℤ :=
  let t := s.dropWhile isspace
  let digits := (if t.head? = some '-' ∨ t.head? = some '+' then t.drop 1 else t).takeWhile
    Char.isDigit
  let n : ℤ := Nat.ofDigitChars 10 digits 0
  if digits = [] then none else some (if t.head? = some '-' then -n else n)

/-- `std::stoi` and its relatives; the text of their exceptions is their name. -/
def readInteger (name : Str) (least greatest : ℤ) (s : Str) : Except Str ℤ :=
  match leadingNumber s with
  | none => .error name
  | some n => if least ≤ n ∧ n ≤ greatest then .ok n else .error name

def stoll : Str → Except Str ℤ :=
  readInteger "stoll".toList (-9223372036854775808) 9223372036854775807

theorem stoi_eq (s : Str) : stoi s = readInteger "stoi".toList (-2147483648) 2147483647 s := by
  unfold stoi readInteger leadingNumber
  dsimp only
  generalize s.dropWhile isspace = t
  generalize (if t.head? = some '-' ∨ t.head? = some '+' then t.drop 1 else t).takeWhile
    Char.isDigit = digits
  generalize (if t.head? = some '-' then -(Nat.ofDigitChars 10 digits 0 : ℤ)
    else Nat.ofDigitChars 10 digits 0) = value
  by_cases hd : digits = []
  · rw [if_pos (.inl hd), if_pos hd]
  · rw [if_neg hd]
    by_cases hv : value < -2147483648 ∨ 2147483647 < value
    · rw [if_pos (.inr hv)]
      dsimp only
      rw [if_neg (by omega)]
    · rw [if_neg (not_or.mpr ⟨hd, hv⟩)]
      dsimp only
      rw [if_pos (by omega)]

theorem isDigit_ne {c d : Char} (h : c.isDigit = true) (hd : d.isDigit = false) : c ≠ d := by
  rintro rfl
  rw [h] at hd
  cases hd

theorem isDigit_not_space {c : Char} (h : c.isDigit = true) : isspace c = false := by
  unfold isspace
  simp only [Bool.or_eq_false_iff, decide_eq_false_iff_not]
  exact ⟨⟨⟨⟨⟨isDigit_ne h rfl, isDigit_ne h rfl⟩, isDigit_ne h rfl⟩, isDigit_ne h rfl⟩,
    isDigit_ne h rfl⟩, isDigit_ne h rfl⟩

section toDigits

variable (n : ℕ)

theorem toDigits_isDigit : ∀ c ∈ Nat.toDigits 10 n, c.isDigit = true :=
  fun _ hc => Nat.isDigit_of_mem_toDigits (by omega) (by omega) hc

theorem takeWhile_toDigits : (Nat.toDigits 10 n).takeWhile Char.isDigit = Nat.toDigits 10 n :=
  List.takeWhile_eq_self_iff.mpr (toDigits_isDigit n)

theorem toDigits_cons : ∃ c cs, Nat.toDigits 10 n = c :: cs ∧ c.isDigit = true := by
  cases h : Nat.toDigits 10 n with
  | nil => exact absurd h Nat.toDigits_ne_nil
  | cons c cs => exact ⟨c, cs, rfl, toDigits_isDigit n c (h ▸ List.mem_cons_self)⟩

end toDigits

/-- Reading back what was written. -/
theorem leadingNumber_to_string (n : ℤ) : leadingNumber (to_string n) = some n := by
  obtain ⟨c, cs, hcs, hc⟩ := toDigits_cons n.natAbs
  have hvalue : Nat.ofDigitChars 10 (Nat.toDigits 10 n.natAbs) 0 = n.natAbs :=
    Nat.ofDigitChars_ten_toDigits
  have hwhole := takeWhile_toDigits n.natAbs
  unfold leadingNumber to_string
  rw [hcs] at hvalue hwhole ⊢
  by_cases hn : n < 0
  · have hstart : ('-' :: c :: cs).dropWhile isspace = '-' :: c :: cs :=
      List.dropWhile_cons_of_neg (by decide)
    simp only [if_pos hn, hstart, List.head?_cons, true_or, if_true, List.drop_one, List.tail_cons,
      hwhole, hvalue, reduceCtorEq, if_false, Option.some.injEq]
    omega
  · have hstart : (c :: cs).dropWhile isspace = c :: cs :=
      List.dropWhile_cons_of_neg (by simp [isDigit_not_space hc])
    have hminus := isDigit_ne hc (show '-'.isDigit = false by decide)
    have hplus := isDigit_ne hc (show '+'.isDigit = false by decide)
    simp only [if_neg hn, hstart, List.head?_cons, Option.some.injEq, hminus, hplus, or_false,
      if_false, hwhole, hvalue, reduceCtorEq]
    omega

/-- The value of a text of digits and nothing else. -/
def decimal (s : Str) : Option ℕ :=
  if s ≠ [] ∧ s.all Char.isDigit = true then some (Nat.ofDigitChars 10 s 0) else none

/-- A complete numeral is read whole. -/
theorem leadingNumber_decimal {s : Str} {n : ℕ} (h : decimal s = some n) :
    leadingNumber s = some (n : ℤ) := by
  obtain ⟨⟨hne, hdigits⟩, rfl⟩ : (s ≠ [] ∧ ∀ c ∈ s, c.isDigit = true) ∧
      Nat.ofDigitChars 10 s 0 = n := by simpa [decimal] using h
  cases s with
  | nil => exact absurd rfl hne
  | cons c cs =>
    have hc := hdigits c List.mem_cons_self
    have hstart : (c :: cs).dropWhile isspace = c :: cs :=
      List.dropWhile_cons_of_neg (by simp [isDigit_not_space hc])
    have hwhole : (c :: cs).takeWhile Char.isDigit = c :: cs :=
      List.takeWhile_eq_self_iff.mpr hdigits
    have hminus := isDigit_ne hc (show '-'.isDigit = false by rfl)
    have hplus := isDigit_ne hc (show '+'.isDigit = false by rfl)
    simp [leadingNumber, hstart, hwhole, hminus, hplus]

theorem to_string_injective : Function.Injective to_string := by
  intro m n h
  have hm := leadingNumber_to_string m
  rw [h, leadingNumber_to_string] at hm
  exact (Option.some.inj hm).symm

theorem readInteger_to_string (name : Str) {least greatest n : ℤ} (h : least ≤ n)
    (h' : n ≤ greatest) : readInteger name least greatest (to_string n) = .ok n := by
  rw [readInteger, leadingNumber_to_string]
  exact if_pos ⟨h, h'⟩

theorem readInteger_beyond (name : Str) {least greatest n : ℤ} (h : n < least ∨ greatest < n) :
    readInteger name least greatest (to_string n) = .error name := by
  rw [readInteger, leadingNumber_to_string]
  exact if_neg (by omega)

end AdequateApi.StdString
