import AdequateApi.StdString

/-! `parse_pg_timestamp`: `std::get_time` on an `istringstream`, a fraction of a second, and
`timegm`. What follows the fraction is left unread. -/
namespace AdequateApi.DatetimeConverter
open StdString

/-- `std::tm`, as far as `timegm` reads it. -/
structure Tm where
  tm_year : ℤ := 0
  tm_mon : ℤ := 0
  tm_mday : ℤ := 0
  tm_hour : ℤ := 0
  tm_min : ℤ := 0
  tm_sec : ℤ := 0
  deriving DecidableEq, Repr

/-- The conversion specifiers the code uses. -/
inductive Specifier
  | Y
  | m
  | d
  | H
  | M
  | S
  deriving DecidableEq, Repr

inductive Item
  | specifier (f : Specifier)
  | literal (c : Char)
  | space
  deriving DecidableEq, Repr

/-- `%Y-%m-%d %H:%M:%S`. -/
def format : List Item :=
  [.specifier .Y, .literal '-', .specifier .m, .literal '-', .specifier .d, .space,
    .specifier .H, .literal ':', .specifier .M, .literal ':', .specifier .S]

namespace Specifier

def width : Specifier → ℕ
  | .Y => 4
  | _ => 2

def least : Specifier → ℤ
  | .m | .d => 1
  | _ => 0

def greatest : Specifier → ℤ
  | .Y => 9999
  | .m => 12
  | .d => 31
  | .H => 23
  | .M => 59
  | .S => 60

def store (tm : Tm) (value : ℤ) : Specifier → Tm
  | .Y => { tm with tm_year := value - 1900 }
  | .m => { tm with tm_mon := value - 1 }
  | .d => { tm with tm_mday := value }
  | .H => { tm with tm_hour := value }
  | .M => { tm with tm_min := value }
  | .S => { tm with tm_sec := value }

/-- libstdc++ skips one blank before a day. -/
def lead : Specifier → Str → Str
  | .d, c :: s => if isspace c then s else c :: s
  | _, s => s

/-- Up to `width` digits, whose number is in the range. -/
def extract (f : Specifier) (s : Str) : Option (ℤ × Str) :=
  let s := f.lead s
  let digits := (s.take f.width).takeWhile Char.isDigit
  let value : ℤ := Nat.ofDigitChars 10 digits 0
  if digits = [] ∨ value < f.least ∨ f.greatest < value then none
  else some (value, s.drop digits.length)

end Specifier

/-- `std::get_time`. Input that ends right after a field ends the reading without an error;
input that ends anywhere else before the format does is an error. -/
def get_time : List Item → Tm → Str → Option (Tm × Str)
  | [], tm, s => some (tm, s)
  | _ :: _, _, [] => none
  | .specifier f :: items, tm, c :: s =>
      (f.extract (c :: s)).bind fun r =>
        if r.2 = [] then some (f.store tm r.1, []) else get_time items (f.store tm r.1) r.2
  | .literal l :: items, tm, c :: s => if l = c then get_time items tm s else none
  | .space :: items, tm, c :: s => get_time items tm ((c :: s).dropWhile isspace)

/-- Leap years up to the end of year `y`. -/
def leaps (y : ℤ) : ℤ := y / 4 - y / 100 + y / 400

def isLeap (y : ℤ) : Bool := y % 4 = 0 ∧ (y % 100 ≠ 0 ∨ y % 400 = 0)

/-- Days of a common year before each month. -/
def mon_yday (mon : ℤ) : ℤ :=
  ([0, 31, 59, 90, 120, 151, 181, 212, 243, 273, 304, 334] : List ℤ).getD mon.toNat 0

/-- `timegm`, for a month in range. -/
def timegm (tm : Tm) : ℤ :=
  let year := tm.tm_year + 1900
  let days := 365 * (year - 1970) + (leaps (year - 1) - leaps 1969) + mon_yday tm.tm_mon +
    (if isLeap year ∧ 1 < tm.tm_mon then 1 else 0) + (tm.tm_mday - 1)
  ((days * 24 + tm.tm_hour) * 60 + tm.tm_min) * 60 + tm.tm_sec

/-- Microseconds of a fraction; digits beyond the sixth do not count. -/
def microseconds (s : Str) : ℤ :=
  match s with
  | '.' :: s =>
      let frac := (s.takeWhile Char.isDigit).take 6
      Nat.ofDigitChars 10 (frac ++ List.replicate (6 - frac.length) '0') 0
  | _ => 0

/-- Ticks of `system_clock`: nanoseconds since 1970 in 64 bits. -/
def ticks (seconds micros : ℤ) : ℤ :=
  (seconds * 1000000000 + micros * 1000).bmod 18446744073709551616

def parse_pg_timestamp (s : Str) : Except Str ℤ :=
  match get_time format {} (s.dropWhile isspace) with
  | none => .error ("Failed to parse timestamp: ".toList ++ s)
  | some (tm, rest) => .ok (ticks (timegm tm) (microseconds rest))

/-- The offset of the time zone is not read. -/
theorem parse_pg_timestamp_zone {c : Char} (hdot : c ≠ '.') (zone : Str) :
    parse_pg_timestamp ("2000-01-01 00:00:00".toList ++ c :: zone) =
      .ok 946684800000000000 := by
  have hread : get_time format {} ("2000-01-01 00:00:00".toList ++ c :: zone) =
      some (⟨100, 0, 1, 0, 0, 0⟩, c :: zone) := by
    simp [get_time, format, Specifier.extract, Specifier.lead, Specifier.width, Specifier.least,
      Specifier.greatest, Specifier.store, Nat.ofDigitChars, isspace]
  have hmicros : microseconds (c :: zone) = 0 := by
    unfold microseconds
    split
    · rename_i heq
      exact absurd (List.cons.inj heq).1 hdot
    · rfl
  have hstart : ("2000-01-01 00:00:00".toList ++ c :: zone).dropWhile isspace =
      "2000-01-01 00:00:00".toList ++ c :: zone := rfl
  rw [parse_pg_timestamp, hstart, hread]
  simp only [hmicros]
  rfl

example : parse_pg_timestamp "2025-09-04 18:32:53.123+00".toList = .ok 1757010773123000000 := by
  decide +kernel

example : parse_pg_timestamp "infinity".toList =
    .error "Failed to parse timestamp: infinity".toList := by decide +kernel

end AdequateApi.DatetimeConverter
