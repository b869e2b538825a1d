import Mathlib.Tactic.IntervalCases

/-! The Gregorian calendar in both directions of time: a date is a number of days, and a date
with a time of day is a number of seconds, both counted from 1 January 1970. -/
namespace AdequateApi.CivilCalendar

/-- A year with a 29 February. -/
def Leap (y : ℤ) : Prop := y % 4 = 0 ∧ (y % 100 ≠ 0 ∨ y % 400 = 0)

instance (y : ℤ) : Decidable (Leap y) := inferInstanceAs (Decidable (y % 4 = 0 ∧ _))

/-- Days before 1 January of a year. -/
def yearStart (y : ℤ) : ℤ :=
  365 * (y - 1970) + ((y - 1) / 4 - (y - 1) / 100 + (y - 1) / 400) - 477

theorem yearStart_succ (y : ℤ) : yearStart (y + 1) = yearStart y + if Leap y then 366 else 365 := by
  unfold yearStart
  by_cases h : Leap y
  · rw [if_pos h]
    unfold Leap at h
    omega
  · rw [if_neg h]
    unfold Leap at h
    omega

/-- Days of a year before a month. -/
def monthStart (y m : ℤ) : ℤ :=
  ([0, 31, 59, 90, 120, 151, 181, 212, 243, 273, 304, 334] : List ℤ).getD (m - 1).toNat 0 +
    if Leap y ∧ 2 < m then 1 else 0

def monthLength (y m : ℤ) : ℤ :=
  if m = 2 then if Leap y then 29 else 28
  else if m = 4 ∨ m = 6 ∨ m = 9 ∨ m = 11 then 30 else 31

theorem monthLength_range (y m : ℤ) : 28 ≤ monthLength y m ∧ monthLength y m ≤ 31 := by
  unfold monthLength
  split_ifs <;> omega

theorem monthStart_succ {y m : ℤ} (h : 1 ≤ m) (h' : m ≤ 11) :
    monthStart y (m + 1) = monthStart y m + monthLength y m := by
  unfold monthStart monthLength
  interval_cases m <;> by_cases hy : Leap y <;> simp [hy]

/-! ### Dates -/

structure Date where
  year : ℤ
  month : ℤ
  day : ℤ
  month_pos : 1 ≤ month
  month_le : month ≤ 12
  day_pos : 1 ≤ day
  day_le : day ≤ monthLength year month
  deriving DecidableEq

def Date.number (d : Date) : ℤ := yearStart d.year + monthStart d.year d.month + d.day - 1

/-! Years that begin in March end with the leap day. They come in eras of 400 years, the first
of them on 1 March of the year 0. -/

/-- Days of an era before a year. -/
def eraStart (y : ℤ) : ℤ := 365 * y + y / 4 - y / 100 + y / 400

theorem eraStart_succ (y : ℤ) :
    eraStart (y + 1) = eraStart y + if Leap (y + 1) then 366 else 365 := by
  unfold eraStart
  by_cases h : Leap (y + 1)
  · rw [if_pos h]
    unfold Leap at h
    omega
  · rw [if_neg h]
    unfold Leap at h
    omega

theorem leap_add_eras (y e : ℤ) : Leap (y + e * 400) ↔ Leap y := by
  unfold Leap
  omega

/-- The number of a day in its era when leap days are not counted. -/
def leapless (day : ℤ) : ℤ := day - day / 1460 + day / 36524 - day / 146096

def yearOfEra (day : ℤ) : ℤ := leapless day / 365

theorem leapless_mono {a b : ℤ} (h : a ≤ b) : leapless a ≤ leapless b := by
  have hfour : a - a / 1460 ≤ b - b / 1460 := by omega
  have hera : ∀ x : ℤ, x / 146096 = x / 36524 / 4 := by omega
  have hcentury : a / 36524 ≤ b / 36524 := by omega
  have hcenturies : a / 36524 - a / 146096 ≤ b / 36524 - b / 146096 := by
    rw [hera, hera]
    omega
  unfold leapless
  omega

theorem leapless_eraStart {y : ℤ} (h : 0 ≤ y) (h' : y ≤ 399) : leapless (eraStart y) = 365 * y := by
  unfold leapless eraStart
  have hfour : (365 * y + y / 4 - y / 100 + y / 400) / 1460 = y / 4 := by omega
  have hcentury : (365 * y + y / 4 - y / 100 + y / 400) / 36524 = y / 100 := by omega
  have hera : (365 * y + y / 4 - y / 100 + y / 400) / 146096 = 0 := by omega
  omega

theorem leapless_before {y : ℤ} (h : 1 ≤ y) (h' : y ≤ 400) :
    leapless (eraStart y - 1) < 365 * y := by
  unfold leapless eraStart
  have hfour : y ≤ 399 → y / 4 ≤ (365 * y + y / 4 - y / 100 + y / 400 - 1) / 1460 := by omega
  have hcentury : (365 * y + y / 4 - y / 100 + y / 400 - 1) / 36524 ≤ y / 100 := by omega
  have hera : 0 ≤ (365 * y + y / 4 - y / 100 + y / 400 - 1) / 146096 := by omega
  omega

section era
variable {day : ℤ} (h : 0 ≤ day) (h' : day < 146097)
include h h'

theorem yearOfEra_range : 0 ≤ yearOfEra day ∧ yearOfEra day ≤ 399 := by
  have hlast := leapless_mono (show day ≤ 146096 by omega)
  have hfirst := leapless_mono h
  have hzero : leapless 0 = 0 := by decide
  have hend : leapless 146096 = 145999 := by decide
  unfold yearOfEra
  omega

/-- The day lies in the year that is computed for it. -/
theorem yearOfEra_spec :
    eraStart (yearOfEra day) ≤ day ∧ day < eraStart (yearOfEra day + 1) := by
  obtain ⟨hy, hy'⟩ := yearOfEra_range h h'
  have hyear : 365 * yearOfEra day ≤ leapless day ∧
      leapless day < 365 * (yearOfEra day + 1) := by
    unfold yearOfEra
    omega
  constructor
  · by_contra hlt
    have hpos : 1 ≤ yearOfEra day := by
      by_contra hzero
      have : yearOfEra day = 0 := by omega
      rw [this] at hlt
      exact hlt h
    have hbefore := leapless_before hpos (by omega)
    have hmono := leapless_mono (show day ≤ eraStart (yearOfEra day) - 1 by omega)
    omega
  · by_contra hge
    by_cases hend : yearOfEra day = 399
    · rw [hend] at hge
      exact hge h'
    · have hstart := leapless_eraStart (y := yearOfEra day + 1) (by omega) (by omega)
      have hmono := leapless_mono (show eraStart (yearOfEra day + 1) ≤ day by omega)
      omega

end era

/-- The year that began on the last 1 March. -/
def marchYear (n : ℤ) : ℤ :=
  yearOfEra ((n + 719468) % 146097) + (n + 719468) / 146097 * 400

/-- Days since the last 1 March. -/
def dayOfYear (n : ℤ) : ℤ :=
  (n + 719468) % 146097 - eraStart (yearOfEra ((n + 719468) % 146097))

/-- Months since the last March. -/
def marchMonth (n : ℤ) : ℤ := (5 * dayOfYear n + 2) / 153

theorem dayOfYear_range (n : ℤ) :
    0 ≤ dayOfYear n ∧ dayOfYear n < if Leap (marchYear n + 1) then 366 else 365 := by
  have hpos : 0 ≤ (n + 719468) % 146097 := by omega
  have hlt : (n + 719468) % 146097 < 146097 := by omega
  obtain ⟨hstart, hend⟩ := yearOfEra_spec hpos hlt
  have hleap : Leap (marchYear n + 1) ↔ Leap (yearOfEra ((n + 719468) % 146097) + 1) := by
    rw [marchYear, add_right_comm, leap_add_eras]
  rw [eraStart_succ] at hend
  simp only [hleap]
  unfold dayOfYear
  omega

theorem marchMonth_range (n : ℤ) : 0 ≤ marchMonth n ∧ marchMonth n ≤ 11 := by
  obtain ⟨h, h'⟩ := dayOfYear_range n
  unfold marchMonth
  split at h' <;> omega

theorem civilMonth_range {m : ℤ} (h : 0 ≤ m) (h' : m ≤ 11) :
    1 ≤ (if m < 10 then m + 3 else m - 9) ∧ (if m < 10 then m + 3 else m - 9) ≤ 12 := by
  split <;> omega

theorem civilDay_pos (n : ℤ) : 1 ≤ dayOfYear n - (153 * marchMonth n + 2) / 5 + 1 := by
  unfold marchMonth
  omega

theorem civilDay_le (n : ℤ) : dayOfYear n - (153 * marchMonth n + 2) / 5 + 1 ≤
    monthLength (marchYear n + if marchMonth n < 10 then 0 else 1)
      (if marchMonth n < 10 then marchMonth n + 3 else marchMonth n - 9) := by
  obtain ⟨hm, hm'⟩ := marchMonth_range n
  obtain ⟨_, hday⟩ := dayOfYear_range n
  have hnext : dayOfYear n < (153 * (marchMonth n + 1) + 2) / 5 := by
    unfold marchMonth
    omega
  generalize marchMonth n = m at *
  unfold monthLength
  by_cases hlate : m < 10
  · rw [if_pos hlate, if_pos hlate]
    interval_cases m <;> simp <;> omega
  · rw [if_neg hlate, if_neg hlate]
    obtain rfl | rfl : m = 10 ∨ m = 11 := by omega
    · simp
      omega
    · -- the year that begins in March ends with February
      have hlength : (if Leap (marchYear n + 1) then (366 : ℤ) else 365) =
          (if Leap (marchYear n + 1) then 29 else 28) + 337 := by split <;> rfl
      rw [hlength] at hday
      simp
      omega

/-- The date of a day. -/
def Date.ofNumber (n : ℤ) : Date where
  year := marchYear n + if marchMonth n < 10 then 0 else 1
  month := if marchMonth n < 10 then marchMonth n + 3 else marchMonth n - 9
  day := dayOfYear n - (153 * marchMonth n + 2) / 5 + 1
  month_pos := (civilMonth_range (marchMonth_range n).1 (marchMonth_range n).2).1
  month_le := (civilMonth_range (marchMonth_range n).1 (marchMonth_range n).2).2
  day_pos := civilDay_pos n
  day_le := civilDay_le n

theorem eraStart_eq (y : ℤ) : eraStart y = yearStart (y + 1) + 719162 := by
  unfold eraStart yearStart
  omega

theorem monthStart_march {y m : ℤ} (h : 0 ≤ m) (h' : m < 10) :
    monthStart y (m + 3) = (153 * m + 2) / 5 + 59 + if Leap y then 1 else 0 := by
  unfold monthStart
  interval_cases m <;> simp

theorem number_ofNumber (n : ℤ) : (Date.ofNumber n).number = n := by
  obtain ⟨hm, hm'⟩ := marchMonth_range n
  have hn : n = eraStart (marchYear n) + dayOfYear n - 719468 := by
    unfold dayOfYear marchYear eraStart
    omega
  rw [eraStart_eq, yearStart_succ] at hn
  unfold Date.number Date.ofNumber
  dsimp only
  generalize marchMonth n = m at *
  by_cases hlate : m < 10
  · rw [if_pos hlate, if_pos hlate, add_zero, monthStart_march hm hlate]
    by_cases hy : Leap (marchYear n)
    · rw [if_pos hy] at hn ⊢
      omega
    · rw [if_neg hy] at hn ⊢
      omega
  · rw [if_neg hlate, if_neg hlate, yearStart_succ]
    obtain rfl | rfl : m = 10 ∨ m = 11 := by omega
    · have hjanuary : monthStart (marchYear n + 1) (10 - 9) = 0 := by simp [monthStart]
      omega
    · have hfebruary : monthStart (marchYear n + 1) (11 - 9) = 31 := by simp [monthStart]
      omega

/-! ### Each day has one date -/

theorem yearStart_mono {y y' : ℤ} (h : y ≤ y') : yearStart y ≤ yearStart y' := by
  obtain ⟨k, rfl⟩ := Int.le.dest h
  induction k with
  | zero => rw [Nat.cast_zero, add_zero]
  | succ k ih =>
    rw [Nat.cast_add, Nat.cast_one, ← add_assoc, yearStart_succ]
    exact (ih (by omega)).trans (by split <;> omega)

theorem monthStart_of_lt {y m m' : ℤ} (h : 1 ≤ m) (hlt : m < m') (h' : m' ≤ 12) :
    monthStart y m + monthLength y m ≤ monthStart y m' := by
  obtain ⟨k, rfl⟩ := Int.le.dest (Int.add_one_le_iff.mpr hlt)
  induction k with
  | zero =>
    rw [Nat.cast_zero, add_zero] at h' ⊢
    exact (monthStart_succ h (by omega)).ge
  | succ k ih =>
    have hstart := monthStart_succ (y := y) (m := m + 1 + k) (by omega) (by omega)
    have hlength := (monthLength_range y (m + 1 + k)).1
    rw [Nat.cast_add, Nat.cast_one, ← add_assoc, hstart]
    exact (ih (by omega) (by omega)).trans (by omega)

namespace Date
variable (d : Date)

/-- The day of the year. -/
theorem ordinal_range : 1 ≤ monthStart d.year d.month + d.day ∧
    monthStart d.year d.month + d.day ≤ if Leap d.year then 366 else 365 := by
  obtain ⟨year, month, day, hm, hm', hd, hd'⟩ := d
  dsimp only at *
  unfold monthLength at hd'
  unfold monthStart
  by_cases hy : Leap year
  · interval_cases month <;> simp [hy] at hd' ⊢ <;> omega
  · interval_cases month <;> simp [hy] at hd' ⊢ <;> omega

theorem number_range : yearStart d.year ≤ d.number ∧ d.number < yearStart (d.year + 1) := by
  obtain ⟨h, h'⟩ := d.ordinal_range
  rw [yearStart_succ]
  unfold number
  omega

theorem year_eq {d e : Date} (h : d.number = e.number) : d.year = e.year := by
  obtain ⟨hd, hd'⟩ := d.number_range
  obtain ⟨he, he'⟩ := e.number_range
  rcases lt_trichotomy d.year e.year with hlt | heq | hgt
  · have hmono := yearStart_mono (Int.add_one_le_iff.mpr hlt)
    omega
  · exact heq
  · have hmono := yearStart_mono (Int.add_one_le_iff.mpr hgt)
    omega

theorem number_injective : Function.Injective number := by
  intro d e h
  have hyear := year_eq h
  obtain ⟨year, month, day, hm, hm', hd, hd'⟩ := d
  obtain ⟨year', month', day', hn, hn', he, he'⟩ := e
  dsimp only at hyear
  subst hyear
  unfold number at h
  dsimp only at h
  rcases lt_trichotomy month month' with hlt | rfl | hgt
  · have hstart := monthStart_of_lt (y := year) hm hlt hn'
    omega
  · obtain rfl : day = day' := by omega
    rfl
  · have hstart := monthStart_of_lt (y := year) hn hgt hm'
    omega

/-- Dates are the days. -/
def equiv : Date ≃ ℤ where
  toFun := number
  invFun := ofNumber
  left_inv d := number_injective (number_ofNumber d.number)
  right_inv := number_ofNumber

end Date

/-! ### Seconds -/

structure DateTime extends Date where
  hour : ℤ
  minute : ℤ
  second : ℤ
  hour_pos : 0 ≤ hour
  hour_lt : hour < 24
  minute_pos : 0 ≤ minute
  minute_lt : minute < 60
  second_pos : 0 ≤ second
  second_lt : second < 60
  deriving DecidableEq

namespace DateTime

/-- Seconds since 1970. -/
def epoch (x : DateTime) : ℤ := ((x.number * 24 + x.hour) * 60 + x.minute) * 60 + x.second

def ofEpoch (t : ℤ) : DateTime where
  toDate := .ofNumber (t / 86400)
  hour := t % 86400 / 3600
  minute := t % 86400 / 60 % 60
  second := t % 86400 % 60
  hour_pos := by omega
  hour_lt := by omega
  minute_pos := by omega
  minute_lt := by omega
  second_pos := by omega
  second_lt := by omega

theorem epoch_ofEpoch (t : ℤ) : (ofEpoch t).epoch = t := by
  have hday : (ofEpoch t).number = t / 86400 := number_ofNumber _
  unfold epoch
  rw [hday]
  dsimp only [ofEpoch]
  omega

theorem ofEpoch_epoch (x : DateTime) : ofEpoch x.epoch = x := by
  obtain ⟨d, hour, minute, second, hh, hh', hm, hm', hs, hs'⟩ := x
  have hday : ((d.number * 24 + hour) * 60 + minute) * 60 + second =
      d.number * 86400 + (hour * 3600 + minute * 60 + second) := by omega
  have hdate : Date.ofNumber d.number = d := Date.equiv.left_inv d
  unfold ofEpoch epoch
  dsimp only
  rw [DateTime.mk.injEq, hday]
  refine ⟨?_, by omega, by omega, by omega⟩
  have hquotient : (d.number * 86400 + (hour * 3600 + minute * 60 + second)) / 86400 =
      d.number := by omega
  rw [hquotient, hdate]

/-- Seconds are the dates with a time of day. -/
def equiv : DateTime ≃ ℤ := ⟨epoch, ofEpoch, ofEpoch_epoch, epoch_ofEpoch⟩

/-- The fields of a date with a time of day, where they are in range. -/
def ofFields (year month day hour minute second : ℤ) : Option DateTime :=
  if h : (1 ≤ month ∧ month ≤ 12) ∧ (1 ≤ day ∧ day ≤ monthLength year month) ∧
      (0 ≤ hour ∧ hour < 24) ∧ (0 ≤ minute ∧ minute < 60) ∧ (0 ≤ second ∧ second < 60) then
    some ⟨⟨year, month, day, h.1.1, h.1.2, h.2.1.1, h.2.1.2⟩, hour, minute, second,
      h.2.2.1.1, h.2.2.1.2, h.2.2.2.1.1, h.2.2.2.1.2, h.2.2.2.2.1, h.2.2.2.2.2⟩
  else none

theorem ofFields_eq (x : DateTime) :
    ofFields x.year x.month x.day x.hour x.minute x.second = some x :=
  dif_pos ⟨⟨x.month_pos, x.month_le⟩, ⟨x.day_pos, x.day_le⟩, ⟨x.hour_pos, x.hour_lt⟩,
    ⟨x.minute_pos, x.minute_lt⟩, x.second_pos, x.second_lt⟩

/-- The seconds from the beginning of a year on. -/
theorem le_year_ofEpoch {first t : ℤ} :
    first ≤ (ofEpoch t).year ↔ yearStart first * 86400 ≤ t := by
  have hday : (ofEpoch t).number = t / 86400 := number_ofNumber _
  obtain ⟨hstart, hend⟩ := (ofEpoch t).number_range
  constructor
  · intro h
    have hmono := yearStart_mono h
    omega
  · intro h
    by_contra hlt
    have hmono := yearStart_mono (show (ofEpoch t).year + 1 ≤ first by omega)
    omega

end DateTime

end AdequateApi.CivilCalendar
