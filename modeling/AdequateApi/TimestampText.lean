import AdequateApi.CivilCalendar
import AdequateApi.UsersIndex

/-! `gmtime_r` and `timegm` are the calendar, and `std::get_time` on the texts that it shows. -/
namespace AdequateApi.TimestampText
open StdString DatetimeConverter UsersIndex CivilCalendar

/-! ### Numbers of a fixed width -/

section padded
variable {w : ℕ} {n : ℤ} (h : 0 ≤ n)
include h

theorem to_string_of_nonneg : to_string n = Nat.toDigits 10 n.natAbs := if_neg (by omega)

theorem length_padded (hw : 0 < w) (h' : n < 10 ^ w) : (padded w n).length = w := by
  have hlt : n.natAbs < 10 ^ w := by
    obtain ⟨k, rfl⟩ := Int.eq_ofNat_of_zero_le h
    exact_mod_cast h'
  have hle := (Nat.length_toDigits_le_iff (by decide) hw).mpr hlt
  rw [padded, to_string_of_nonneg h, List.length_append, List.length_replicate]
  omega

theorem isDigit_padded : ∀ c ∈ padded w n, c.isDigit = true := by
  rw [padded, to_string_of_nonneg h]
  intro c hc
  rcases List.mem_append.mp hc with hzero | hdigit
  · rw [List.eq_of_mem_replicate hzero]
    rfl
  · exact toDigits_isDigit _ c hdigit

theorem value_padded : (Nat.ofDigitChars 10 (padded w n) 0 : ℤ) = n := by
  rw [padded, to_string_of_nonneg h, Nat.ofDigitChars_append, Nat.ofDigitChars_replicate_zero,
    Nat.mul_zero, Nat.ofDigitChars_ten_toDigits]
  omega

end padded

/-! ### The fields of the format -/

theorem lead_unblank (f : Specifier) {s : Str} (h : s.dropWhile isspace = s) : f.lead s = s := by
  cases s with
  | nil => cases f <;> rfl
  | cons c s =>
    have hc : isspace c = false := by
      cases hc : isspace c with
      | false => rfl
      | true =>
        rw [List.dropWhile_cons_of_pos hc] at h
        have hlength := (List.dropWhile_suffix isspace (l := s)).length_le
        rw [h, List.length_cons] at hlength
        omega
    cases f with
    | d => rw [Specifier.lead, hc, if_neg Bool.false_ne_true]
    | _ => rfl

section fields
variable {f : Specifier} {n : ℤ} (h : f.least ≤ n) (h' : n ≤ f.greatest)
include h h'

theorem field_range : 0 ≤ n ∧ n < 10 ^ f.width := by
  cases f <;> simp only [Specifier.least, Specifier.greatest, Specifier.width] at * <;> omega

theorem length_field : (padded f.width n).length = f.width :=
  length_padded (field_range h h').1 (by cases f <;> decide) (field_range h h').2

theorem field_ne_nil (rest : Str) : padded f.width n ++ rest ≠ [] := by
  intro hnil
  have hlength := length_field h h'
  rw [(List.append_eq_nil_iff.mp hnil).1] at hlength
  cases f <;> cases hlength

/-- A number is no blank. -/
theorem dropWhile_field (rest : Str) :
    (padded f.width n ++ rest).dropWhile isspace = padded f.width n ++ rest := by
  have hlength := length_field h h'
  have hdigits := isDigit_padded (w := f.width) (field_range h h').1
  cases hs : padded f.width n with
  | nil =>
    rw [hs] at hlength
    cases f <;> cases hlength
  | cons c s =>
    rw [hs] at hdigits
    have hc := isDigit_not_space (hdigits c List.mem_cons_self)
    exact List.dropWhile_cons_of_neg (by rw [hc]; exact Bool.false_ne_true)

/-- A number of the width of its field is read, whatever follows. -/
theorem extract_padded (rest : Str) : f.extract (padded f.width n ++ rest) = some (n, rest) := by
  have hlength := length_field h h'
  have htake : (padded f.width n ++ rest).take f.width = padded f.width n :=
    List.take_left' hlength
  have hdigits : (padded f.width n).takeWhile Char.isDigit = padded f.width n :=
    List.takeWhile_eq_self_iff.mpr (isDigit_padded (field_range h h').1)
  have hne : padded f.width n ≠ [] := by
    simpa using field_ne_nil h h' []
  unfold Specifier.extract
  simp only [lead_unblank f (dropWhile_field h h' rest), htake, hdigits,
    value_padded (field_range h h').1]
  rw [if_neg (by simp only [hne, false_or]; omega)]
  rw [List.drop_left]

theorem get_time_blank (items : List Item) (tm : Tm) (rest : Str) :
    get_time (.space :: items) tm (' ' :: (padded f.width n ++ rest)) =
      get_time items tm (padded f.width n ++ rest) := by
  rw [get_time, List.dropWhile_cons_of_pos rfl, dropWhile_field h h']

theorem get_time_last (tm : Tm) (rest : Str) :
    get_time [.specifier f] tm (padded f.width n ++ rest) = some (f.store tm n, rest) := by
  have hextract := extract_padded h h' rest
  have hne := field_ne_nil h h' rest
  cases hs : padded f.width n ++ rest with
  | nil => exact absurd hs hne
  | cons c s =>
    rw [hs] at hextract
    rw [get_time, hextract, Option.bind_some]
    dsimp only
    split
    · rename_i hnil
      rw [hnil]
    · rfl

theorem get_time_field (items : List Item) (tm : Tm) {rest : Str} (hrest : rest ≠ []) :
    get_time (.specifier f :: items) tm (padded f.width n ++ rest) =
      get_time items (f.store tm n) rest := by
  have hextract := extract_padded h h' rest
  have hne := field_ne_nil h h' rest
  cases hs : padded f.width n ++ rest with
  | nil => exact absurd hs hne
  | cons c s =>
    rw [hs] at hextract
    rw [get_time, hextract, Option.bind_some, if_neg hrest]

end fields

theorem get_time_literal (c : Char) (items : List Item) (tm : Tm) (s : Str) :
    get_time (.literal c :: items) tm (c :: s) = get_time items tm s := by
  rw [get_time, if_pos rfl]

/-! ### Times of the calendar -/

def toTm (x : DateTime) : Tm := ⟨x.year - 1900, x.month - 1, x.day, x.hour, x.minute, x.second⟩

theorem isLeap_iff (y : ℤ) : isLeap y = true ↔ Leap y := decide_eq_true_iff

theorem gmtime_eq (t : ℤ) : gmtime t = toTm (.ofEpoch t) := by
  obtain ⟨hpos, hlast⟩ := yearOfEra_range (show 0 ≤ (t / 86400 + 719468) % 146097 by omega)
    (by omega)
  have hday : dayOfYear (t / 86400) = (t / 86400 + 719468) % 146097 -
      (365 * yearOfEra ((t / 86400 + 719468) % 146097) +
        yearOfEra ((t / 86400 + 719468) % 146097) / 4 -
        yearOfEra ((t / 86400 + 719468) % 146097) / 100) := by
    unfold dayOfYear eraStart
    omega
  have hmonth : ∀ m : ℤ, (if m < 10 then m + 3 else m - 9) - 1 =
      if m < 10 then m + 2 else m - 10 := by
    intro m
    split <;> omega
  unfold toTm DateTime.ofEpoch Date.ofNumber
  dsimp only
  rw [hmonth, marchMonth, hday]
  rfl

theorem timegm_toTm (x : DateTime) : timegm (toTm x) = x.epoch := by
  have hmonth : mon_yday (x.month - 1) + (if isLeap x.year = true ∧ 1 < x.month - 1 then 1 else 0) =
      monthStart x.year x.month := by
    have hiff : (isLeap x.year = true ∧ 1 < x.month - 1) ↔ (Leap x.year ∧ 2 < x.month) :=
      and_congr (isLeap_iff _) (by omega)
    simp only [hiff]
    rfl
  have hyear : 365 * (x.year - 1970) + (leaps (x.year - 1) - leaps 1969) = yearStart x.year := by
    unfold leaps yearStart
    omega
  unfold timegm toTm DateTime.epoch Date.number
  dsimp only
  rw [sub_add_cancel, ← hyear, ← hmonth]
  omega

/-- Both functions are the calendar, so one undoes the other. -/
theorem gmtime_timegm (x : DateTime) : gmtime (timegm (toTm x)) = toTm x := by
  rw [timegm_toTm, gmtime_eq, DateTime.ofEpoch_epoch]

def dateText (x : DateTime) : Str :=
  padded 4 x.year ++ '-' :: padded 2 x.month ++ '-' :: padded 2 x.day

def timeText (x : DateTime) : Str :=
  padded 2 x.hour ++ ':' :: padded 2 x.minute ++ ':' :: padded 2 x.second

theorem strftime_toTm (x : DateTime) : strftime (toTm x) = dateText x ++ 'T' :: timeText x := by
  simp only [strftime, toTm, dateText, timeText, sub_add_cancel, List.append_assoc,
    List.cons_append]

section reading
variable (x : DateTime) (h : 0 ≤ x.year) (h' : x.year ≤ 9999)
include h h'

/-- The date is read from its text. -/
theorem get_time_date (items : List Item) (rest : Str) (hrest : rest ≠ []) :
    get_time ([.specifier .Y, .literal '-', .specifier .m, .literal '-', .specifier .d] ++ items)
      {} (dateText x ++ rest) =
      get_time items ⟨x.year - 1900, x.month - 1, x.day, 0, 0, 0⟩ rest := by
  have hday : x.day ≤ 31 := x.day_le.trans (monthLength_range _ _).2
  simp only [dateText, List.append_assoc, List.cons_append, List.nil_append]
  refine (get_time_field (f := .Y) h h' _ _ (by simp)).trans ?_
  rw [get_time_literal]
  refine (get_time_field (f := .m) x.month_pos x.month_le _ _ (by simp)).trans ?_
  rw [get_time_literal]
  exact get_time_field (f := .d) x.day_pos hday _ _ hrest

/-- The date and the time are read from their texts with a blank between them. -/
theorem get_time_text (rest : Str) :
    get_time format {} (dateText x ++ ' ' :: (timeText x ++ rest)) = some (toTm x, rest) := by
  have hhour : x.hour ≤ 23 := by have := x.hour_lt; omega
  have hminute : x.minute ≤ 59 := by have := x.minute_lt; omega
  have hsecond : x.second ≤ 60 := by have := x.second_lt; omega
  refine (get_time_date x h h' [.space, .specifier .H, .literal ':', .specifier .M,
    .literal ':', .specifier .S] _ (by simp)).trans ?_
  simp only [timeText, List.append_assoc, List.cons_append]
  refine (get_time_blank (f := .H) x.hour_pos hhour _ _ _).trans ?_
  refine (get_time_field (f := .H) x.hour_pos hhour _ _ (by simp)).trans ?_
  rw [get_time_literal]
  refine (get_time_field (f := .M) x.minute_pos hminute _ _ (by simp)).trans ?_
  rw [get_time_literal]
  exact get_time_last (f := .S) x.second_pos hsecond _ _

/-- A letter is not a blank, and no number either. -/
theorem get_time_letter (rest : Str) : get_time format {} (dateText x ++ 'T' :: rest) = none := by
  refine (get_time_date x h h' [.space, .specifier .H, .literal ':', .specifier .M,
    .literal ':', .specifier .S] _ (by simp)).trans ?_
  have hletter : Specifier.extract .H ('T' :: rest) = none := by
    unfold Specifier.extract
    rfl
  rw [get_time, List.dropWhile_cons_of_neg (by decide), get_time, hletter]
  rfl

end reading

end AdequateApi.TimestampText
