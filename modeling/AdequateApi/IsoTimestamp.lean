import AdequateApi.TimestampText

/-! Which instant the text of `to_iso_string` denotes, and what `UserSerializer::toEntity` makes
of it. -/
namespace AdequateApi.IsoTimestamp
open StdString DatetimeConverter UsersListing UsersIndex CivilCalendar TimestampText

/-! ### ISO 8601 -/

/-- A number of exactly this many digits. -/
def readDigits (w : ℕ) (s : Str) : Option (ℤ × Str) :=
  if (s.take w).length = w ∧ (s.take w).all Char.isDigit then
    some (Nat.ofDigitChars 10 (s.take w) 0, s.drop w)
  else none

def expect (c : Char) : Str → Option Str
  | [] => none
  | d :: s => if d = c then some s else none

/-- Three numbers with a separator between them, the first of its own width. -/
def readFields (w : ℕ) (sep : Char) (s : Str) : Option ((ℤ × ℤ × ℤ) × Str) := do
  let (a, s) ← readDigits w s
  let s ← expect sep s
  let (b, s) ← readDigits 2 s
  let s ← expect sep s
  let (c, s) ← readDigits 2 s
  return ((a, b, c), s)

/-- Nanoseconds of a decimal fraction of up to nine digits, if there is one. -/
def nanoseconds : Str → Option (ℤ × Str)
  | '.' :: s =>
      let frac := s.takeWhile Char.isDigit
      if frac = [] ∨ 9 < frac.length then none
      else some (Nat.ofDigitChars 10 (frac ++ List.replicate (9 - frac.length) '0') 0,
        s.drop frac.length)
  | s => some (0, s)

/-- A date and a time of day in UTC, in nanoseconds since 1970. -/
def readIso (s : Str) : Option ℤ := do
  let ((year, month, day), s) ← readFields 4 '-' s
  let s ← expect 'T' s
  let ((hour, minute, second), s) ← readFields 2 ':' s
  let (nanos, s) ← nanoseconds s
  let x ← DateTime.ofFields year month day hour minute second
  if s = ['Z'] then some (x.epoch * 1000000000 + nanos) else none

example : readIso "2025-09-04T18:32:53.123Z".toList = some 1757010773123000000 := by
  decide +kernel

theorem readDigits_padded {w : ℕ} {n : ℤ} (hw : 0 < w) (h : 0 ≤ n) (h' : n < 10 ^ w) (rest : Str) :
    readDigits w (padded w n ++ rest) = some (n, rest) := by
  have hlength := length_padded h hw h'
  have htake : (padded w n ++ rest).take w = padded w n := List.take_left' hlength
  have hdrop : (padded w n ++ rest).drop w = rest := List.drop_left' hlength
  have hall : (padded w n).all Char.isDigit = true := List.all_eq_true.mpr (isDigit_padded h)
  rw [readDigits, htake, hdrop, if_pos ⟨hlength, hall⟩, value_padded h]

theorem expect_cons (c : Char) (s : Str) : expect c (c :: s) = some s := if_pos rfl

theorem readFields_padded {w : ℕ} {a b c : ℤ} (hw : 0 < w) (ha : 0 ≤ a) (ha' : a < 10 ^ w)
    (hb : 0 ≤ b) (hb' : b < 100) (hc : 0 ≤ c) (hc' : c < 100) (sep : Char) (rest : Str) :
    readFields w sep (padded w a ++ sep :: padded 2 b ++ sep :: padded 2 c ++ rest) =
      some ((a, b, c), rest) := by
  have htwo : ∀ {n : ℤ}, 0 ≤ n → n < 100 → ∀ rest, readDigits 2 (padded 2 n ++ rest) =
      some (n, rest) := fun hn hn' => readDigits_padded (by decide) hn hn'
  simp only [List.append_assoc, List.cons_append]
  rw [readFields, readDigits_padded hw ha ha']
  simp only [Option.bind_eq_bind, Option.bind_some, expect_cons, htwo hb hb', htwo hc hc']
  rfl

/-- A fraction is written where there is one. -/
theorem nanoseconds_written {rep : ℤ} (h : rep < 1000000) :
    nanoseconds ((if 0 < rep then '.' :: padded 6 rep else []) ++ ['Z']) =
      some ((if 0 < rep then rep else 0) * 1000, ['Z']) := by
  split
  · rename_i hpos
    have hlength : (padded 6 rep).length = 6 := length_padded hpos.le (by decide) h
    have hfrac : (padded 6 rep ++ ['Z']).takeWhile Char.isDigit = padded 6 rep := by
      rw [List.takeWhile_append_of_pos (isDigit_padded hpos.le),
        List.takeWhile_cons_of_neg (by decide), List.append_nil]
    have hne : padded 6 rep ≠ [] := by
      intro hnil
      rw [hnil] at hlength
      cases hlength
    have hvalue : (Nat.ofDigitChars 10 (padded 6 rep ++ List.replicate 3 '0') 0 : ℤ) =
        rep * 1000 := by
      rw [Nat.ofDigitChars_append, Nat.ofDigitChars_replicate_zero, Nat.cast_mul,
        value_padded hpos.le]
      omega
    rw [List.cons_append, nanoseconds]
    simp only [hfrac, hlength, hne]
    rw [if_neg (by decide), hvalue, List.drop_left' hlength]
  · rfl

theorem readIso_text (x : DateTime) (h : 0 ≤ x.year) (h' : x.year ≤ 9999) {rep : ℤ}
    (hrep : rep < 1000000) :
    readIso (strftime (toTm x) ++ (if 0 < rep then '.' :: padded 6 rep else []) ++ ['Z']) =
      some (x.epoch * 1000000000 + (if 0 < rep then rep else 0) * 1000) := by
  have hday : x.day < 100 := (x.day_le.trans (monthLength_range _ _).2).trans_lt (by decide)
  have hmonth : 0 ≤ x.month ∧ x.month < 100 := by
    have hpos := x.month_pos
    have hle := x.month_le
    omega
  have hdate := readFields_padded (w := 4) (by decide) h (show x.year < 10 ^ 4 by omega) hmonth.1
    hmonth.2 (Int.le_of_lt x.day_pos) hday '-'
  have htime := readFields_padded (w := 2) (by decide) x.hour_pos
    (x.hour_lt.trans (by decide)) x.minute_pos (x.minute_lt.trans (by decide)) x.second_pos
    (x.second_lt.trans (by decide)) ':'
  rw [strftime_toTm, List.append_assoc, List.append_assoc, List.cons_append]
  rw [readIso, dateText, timeText, hdate]
  simp only [Option.bind_eq_bind, Option.bind_some, expect_cons, htime,
    nanoseconds_written hrep, DateTime.ofFields_eq, if_true]

/-- The year in UTC. -/
def utcYear (tp : ℤ) : ℤ := (DateTime.ofEpoch (tp / 1000000000)).year

/-! ### `to_iso_string` -/

/-- Division that rounds towards zero: the remainder has the sign of the dividend. -/
theorem tdiv_remainder (a : ℤ) {b : ℤ} (hb : 0 < b) :
    (0 ≤ a → 0 ≤ a - a.tdiv b * b ∧ a - a.tdiv b * b < b) ∧
      (a ≤ 0 → -b < a - a.tdiv b * b ∧ a - a.tdiv b * b ≤ 0) := by
  have hrest : a - a.tdiv b * b = a.tmod b := by
    rw [Int.tdiv_mul_self]
    omega
  rw [hrest]
  constructor
  · intro ha
    exact ⟨Int.tmod_nonneg b ha, Int.tmod_lt_of_pos a hb⟩
  · intro ha
    have hpos := Int.tmod_nonneg b (show 0 ≤ -a by omega)
    have hlt := Int.tmod_lt_of_pos (-a) hb
    rw [Int.neg_tmod] at hpos hlt
    omega

/-- Before 1970 the fraction is lost. -/
theorem readIso_to_iso_string {tp : ℤ} (h : 1000 ≤ utcYear tp) (h' : utcYear tp ≤ 9999)
    (hmicros : tp % 1000 = 0) :
    readIso (to_iso_string tp) =
      some (if 0 ≤ tp then tp else tp.tdiv 1000000000 * 1000000000) := by
  have hthousand : yearStart 1000 = -354285 := by decide
  have hend : yearStart 10000 = 2932897 := by decide
  have hfirst := DateTime.le_year_ofEpoch.mp h
  have hlast := DateTime.le_year_ofEpoch.not.mp (show ¬ 10000 ≤ utcYear tp by omega)
  obtain ⟨hpos, hneg⟩ := tdiv_remainder tp (b := 1000000000) (by decide)
  obtain ⟨hpos', hneg'⟩ := tdiv_remainder (tp - tp.tdiv 1000000000 * 1000000000) (b := 1000)
    (by decide)
  unfold to_iso_string
  dsimp only
  generalize tp.tdiv 1000000000 = s at *
  generalize (tp - s * 1000000000).tdiv 1000 = rep at *
  have hyear : 1000 ≤ (DateTime.ofEpoch s).year := DateTime.le_year_ofEpoch.mpr (by omega)
  have hyear' : ¬ 10000 ≤ (DateTime.ofEpoch s).year :=
    DateTime.le_year_ofEpoch.not.mpr (by omega)
  rw [gmtime_eq]
  refine (readIso_text (.ofEpoch s) (by omega) (by omega)
    (show rep < 1000000 by omega)).trans ?_
  rw [DateTime.epoch_ofEpoch]
  by_cases htp : 0 ≤ tp
  · rw [if_pos htp]
    split <;> congr 1 <;> omega
  · rw [if_neg htp]
    split <;> congr 1 <;> omega

/-- The text denotes the instant from 1970 on, and before on whole seconds. -/
theorem iso_denotes_iff {tp : ℤ} (h : 1000 ≤ utcYear tp) (h' : utcYear tp ≤ 9999)
    (hmicros : tp % 1000 = 0) :
    readIso (to_iso_string tp) = some tp ↔ 0 ≤ tp ∨ tp % 1000000000 = 0 := by
  rw [readIso_to_iso_string h h' hmicros, Option.some.injEq]
  by_cases htp : 0 ≤ tp
  · rw [if_pos htp]
    exact iff_of_true rfl (.inl htp)
  · obtain ⟨_, hneg⟩ := tdiv_remainder tp (b := 1000000000) (by decide)
    rw [if_neg htp]
    constructor
    · intro heq
      exact .inr (by omega)
    · intro hwhole
      generalize tp.tdiv 1000000000 = s at *
      omega

theorem iso_denotes_september : readIso (to_iso_string 1757010773123000000) =
    some 1757010773123000000 :=
  (iso_denotes_iff (by decide +kernel) (by decide +kernel) (by decide)).mpr (.inl (by decide))

/-- Half a second before 1970. -/
theorem iso_rounds_up :
    to_iso_string (-500000000) = "1970-01-01T00:00:00Z".toList ∧
    utcYear (-500000000) = 1969 ∧
    readIso (to_iso_string (-500000000)) = some 0 := by
  decide +kernel

/-! ### `UserSerializer` -/

def toEntity (s : UserSerializer) : Except Str ListedUser := do
  let created_at ← parse_pg_timestamp s.created_at
  let updated_at ← parse_pg_timestamp s.updated_at
  return {
    id := s.id
    username := some s.username
    picture := s.picture
    email := some s.email
    password := none
    created_at := created_at
    updated_at := updated_at }

/-- The letter between the date and the time is where the reader expects a blank. -/
theorem parse_to_iso_string {tp : ℤ} (h : 1970 ≤ utcYear tp) (h' : utcYear tp ≤ 9999) :
    parse_pg_timestamp (to_iso_string tp) =
      .error ("Failed to parse timestamp: ".toList ++ to_iso_string tp) := by
  have hstart : yearStart 1970 = 0 := by decide
  have hpos := DateTime.le_year_ofEpoch.mp h
  have hyear : 0 ≤ (DateTime.ofEpoch (tp / 1000000000)).year := le_trans (by decide) h
  obtain ⟨rest, hrest⟩ : ∃ rest, to_iso_string tp =
      dateText (.ofEpoch (tp / 1000000000)) ++ 'T' :: rest := by
    unfold to_iso_string
    dsimp only
    rw [Int.tdiv_eq_ediv_of_nonneg (by omega), gmtime_eq, strftime_toTm]
    simp only [List.append_assoc, List.cons_append]
    exact ⟨_, rfl⟩
  have hblank : (to_iso_string tp).dropWhile isspace = to_iso_string tp := by
    rw [hrest]
    simp only [dateText, List.append_assoc]
    exact dropWhile_field (f := .Y) hyear h' _
  have hread : get_time format {} (to_iso_string tp) = none := by
    rw [hrest]
    exact get_time_letter _ hyear h' _
  rw [parse_pg_timestamp, hblank, hread]

/-- The members of an entity come back. -/
def RoundTrips (entity : ListedUser) : Prop :=
  ∃ back, toEntity (UserSerializer.fromEntity entity) = .ok back ∧ back.id = entity.id ∧
    back.username = entity.username ∧ back.email = entity.email ∧
    back.picture = entity.picture ∧ back.created_at = entity.created_at ∧
    back.updated_at = entity.updated_at

/-- No entity comes back. -/
theorem round_trip_throws (entity : ListedUser) (h : 1970 ≤ utcYear entity.created_at)
    (h' : utcYear entity.created_at ≤ 9999) :
    toEntity (UserSerializer.fromEntity entity) =
      .error ("Failed to parse timestamp: ".toList ++ to_iso_string entity.created_at) ∧
    ¬ RoundTrips entity := by
  have hthrown : toEntity (UserSerializer.fromEntity entity) =
      .error ("Failed to parse timestamp: ".toList ++ to_iso_string entity.created_at) := by
    unfold toEntity UserSerializer.fromEntity
    dsimp only
    rw [parse_to_iso_string h h']
    rfl
  refine ⟨hthrown, ?_⟩
  rintro ⟨back, hback, _⟩
  rw [hthrown] at hback
  cases hback

/-- A user of September 2025. -/
def ann : ListedUser where
  id := 1
  username := some "ann".toList
  email := some "ann@example.org".toList
  picture := none
  password := none
  created_at := 1757010773123000000
  updated_at := 1757010773123000000

theorem round_trip_throws_ann : toEntity (UserSerializer.fromEntity ann) =
      .error ("Failed to parse timestamp: ".toList ++ to_iso_string ann.created_at) ∧
    ¬ RoundTrips ann :=
  round_trip_throws ann (by decide +kernel) (by decide +kernel)

theorem ann_does_not_come_back :
    toEntity (UserSerializer.fromEntity ann) =
      .error "Failed to parse timestamp: 2025-09-04T18:32:53.123000Z".toList ∧
    ¬ RoundTrips ann := by
  have hthrown : toEntity (UserSerializer.fromEntity ann) =
      .error "Failed to parse timestamp: 2025-09-04T18:32:53.123000Z".toList := by
    decide +kernel
  refine ⟨hthrown, ?_⟩
  rintro ⟨back, hback, _⟩
  rw [hthrown] at hback
  cases hback

end AdequateApi.IsoTimestamp
