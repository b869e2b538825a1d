import AdequateApi.TimestampText
import Mathlib.Data.List.DropRight

/-! The text that PostgreSQL shows for a `TIMESTAMPTZ` in the time zone of the session, and what
`parse_pg_timestamp` reads from it. -/
namespace AdequateApi.SessionTimestamp
open StdString DatetimeConverter UsersIndex CivilCalendar TimestampText

/-! ### `timestamptz_out` -/

/-- How far the clocks of the session are ahead of UTC, in seconds. -/
structure Zone where
  offset : ℤ
  east : offset < 57600
  west : -57600 < offset
  deriving DecidableEq

/-- `EncodeTimezone`. -/
def Zone.text (zone : Zone) : Str :=
  let seconds : ℤ := zone.offset.natAbs
  (if 0 ≤ zone.offset then '+' else '-') :: padded 2 (seconds / 3600) ++
    (if seconds % 3600 = 0 then [] else ':' :: padded 2 (seconds / 60 % 60)) ++
    if seconds % 60 = 0 then [] else ':' :: padded 2 (seconds % 60)

/-- Six digits without the zeros at the end. -/
def fraction (micros : ℤ) : Str :=
  if micros = 0 then [] else '.' :: (padded 6 micros).rdropWhile (· = '0')

/-- The style `ISO`, for an instant in microseconds since 1970. A year before the year 1 is
counted backwards. -/
def timestamptz_out (zone : Zone) (t : ℤ) : Str :=
  let shown := t + zone.offset * 1000000
  let x := DateTime.ofEpoch (shown / 1000000)
  let year := if 0 < x.year then x.year else 1 - x.year
  padded 4 year ++ '-' :: padded 2 x.month ++ '-' :: padded 2 x.day ++ ' ' :: timeText x ++
    fraction (shown % 1000000) ++ zone.text ++ if 0 < x.year then [] else " BC".toList

example : timestamptz_out ⟨19800, by decide, by decide⟩ 1757010773120000 =
    "2025-09-05 00:02:53.12+05:30".toList := by decide +kernel

/-! ### The fraction -/

/-- The zeros that were dropped are put back. -/
theorem rdropWhile_append_zeros (s : Str) :
    s.rdropWhile (· = '0') ++
      List.replicate (s.length - (s.rdropWhile (· = '0')).length) '0' = s := by
  have hsplit := List.rdropWhile_append_rtakeWhile (p := fun c : Char => decide (c = '0')) (l := s)
  have hzeros : s.rtakeWhile (· = '0') =
      List.replicate (s.rtakeWhile (· = '0')).length '0' :=
    List.eq_replicate_of_mem fun c hc => by simpa using List.mem_rtakeWhile_imp hc
  have hlength := congrArg List.length hsplit
  rw [List.length_append] at hlength
  have hcount : s.length - (s.rdropWhile (· = '0')).length =
      (s.rtakeWhile (· = '0')).length := by omega
  rw [hcount, ← hzeros, hsplit]

theorem microseconds_fraction {micros : ℤ} (h : 0 ≤ micros) (h' : micros < 1000000) {c : Char}
    (hdot : c ≠ '.') (hc : c.isDigit = false) (rest : Str) :
    microseconds (fraction micros ++ c :: rest) = micros := by
  unfold fraction
  split
  · rename_i hzero
    rw [List.nil_append, hzero]
    unfold microseconds
    split
    · rename_i heq
      exact absurd (List.cons.inj heq).1 hdot
    · rfl
  · have hlength : (padded 6 micros).length = 6 := length_padded h (by decide) (by omega)
    have hdigits : ∀ d ∈ (padded 6 micros).rdropWhile (· = '0'), d.isDigit = true := fun d hd =>
      isDigit_padded h d ((List.rdropWhile_prefix _ _).subset hd)
    have hshort : ((padded 6 micros).rdropWhile (· = '0')).length ≤ 6 :=
      (List.rdropWhile_prefix _ _).length_le.trans_eq hlength
    have htake : ((padded 6 micros).rdropWhile (· = '0') ++ c :: rest).takeWhile Char.isDigit =
        (padded 6 micros).rdropWhile (· = '0') := by
      rw [List.takeWhile_append_of_pos hdigits, List.takeWhile_cons_of_neg (by simp [hc]),
        List.append_nil]
    have hzeros := rdropWhile_append_zeros (padded 6 micros)
    rw [hlength] at hzeros
    rw [List.cons_append, microseconds]
    simp only [htake, List.take_of_length_le hshort, hzeros]
    exact value_padded h

/-! ### What is read -/

theorem parse_shown (x : DateTime) (h : 0 ≤ x.year) (h' : x.year ≤ 9999) {micros : ℤ}
    (hm : 0 ≤ micros) (hm' : micros < 1000000) {c : Char} (hdot : c ≠ '.')
    (hc : c.isDigit = false) (rest : Str) :
    parse_pg_timestamp (dateText x ++ ' ' :: (timeText x ++ (fraction micros ++ c :: rest))) =
      .ok (ticks x.epoch micros) := by
  have hstart : (dateText x ++ ' ' :: (timeText x ++ (fraction micros ++ c :: rest))).dropWhile
      isspace = dateText x ++ ' ' :: (timeText x ++ (fraction micros ++ c :: rest)) := by
    simp only [dateText, List.append_assoc]
    exact dropWhile_field (f := .Y) h h' _
  rw [parse_pg_timestamp, hstart, get_time_text x h h']
  simp only [timegm_toTm, microseconds_fraction hm hm' hdot hc]

theorem zone_text (zone : Zone) :
    ∃ c rest, zone.text = c :: rest ∧ c ≠ '.' ∧ c.isDigit = false := by
  unfold Zone.text
  dsimp only
  split
  · exact ⟨'+', _, rfl, by decide, rfl⟩
  · exact ⟨'-', _, rfl, by decide, rfl⟩

theorem timestamptz_out_eq (zone : Zone) {t shown : ℤ} (h : t + zone.offset * 1000000 = shown)
    (hyear : 0 < (DateTime.ofEpoch (shown / 1000000)).year) :
    timestamptz_out zone t = dateText (.ofEpoch (shown / 1000000)) ++
      ' ' :: (timeText (.ofEpoch (shown / 1000000)) ++
        (fraction (shown % 1000000) ++ zone.text)) := by
  unfold timestamptz_out
  simp only [h, if_pos hyear, dateText, List.append_assoc, List.cons_append, List.append_nil]

/-- The clocks of the session are taken for UTC. -/
theorem parse_timestamptz_out (zone : Zone) {t shown : ℤ}
    (h : t + zone.offset * 1000000 = shown) (hfirst : yearStart 1 * 86400000000 ≤ shown)
    (hlast : shown < yearStart 10000 * 86400000000) :
    parse_pg_timestamp (timestamptz_out zone t) =
      .ok ((shown * 1000).bmod 18446744073709551616) := by
  have hyear : 1 ≤ (DateTime.ofEpoch (shown / 1000000)).year :=
    DateTime.le_year_ofEpoch.mpr (by omega)
  have hyear' : ¬ 10000 ≤ (DateTime.ofEpoch (shown / 1000000)).year :=
    DateTime.le_year_ofEpoch.not.mpr (by omega)
  obtain ⟨c, rest, htext, hdot, hc⟩ := zone_text zone
  have hticks : shown / 1000000 * 1000000000 + shown % 1000000 * 1000 = shown * 1000 := by omega
  rw [timestamptz_out_eq zone h (by omega), htext,
    parse_shown _ (by omega) (by omega) (by omega) (by omega) hdot hc, DateTime.epoch_ofEpoch,
    ticks, hticks]

/-! ### The instant -/

/-- `system_clock` can hold the instant. -/
def Representable (t : ℤ) : Prop :=
  -9223372036854775808 ≤ t * 1000 ∧ t * 1000 < 9223372036854775808

theorem parse_range {s : Str} {tp : ℤ} (h : parse_pg_timestamp s = .ok tp) :
    -9223372036854775808 ≤ tp ∧ tp < 9223372036854775808 := by
  unfold parse_pg_timestamp at h
  split at h
  · cases h
  · cases h
    unfold ticks
    exact ⟨Int.le_bmod (by decide), Int.bmod_lt (by decide)⟩

/-- What wraps around is off by a multiple. -/
theorem bmod_multiple {x y : ℤ} (h : x.bmod 18446744073709551616 = y) :
    ∃ k, x = y + 18446744073709551616 * k := by
  obtain ⟨k, hk⟩ := Int.dvd_self_sub_bmod (x := x) (m := 18446744073709551616)
  exact ⟨k, by omega⟩

/-- No zone is as far from UTC as the clock can count. -/
theorem Zone.offset_eq_zero (zone : Zone) {k : ℤ} :
    zone.offset * 1000000000 = 18446744073709551616 * k → zone.offset = 0 := by
  have heast := zone.east
  have hwest := zone.west
  have hbounds : -57600000000000 < zone.offset * 1000000000 ∧
      zone.offset * 1000000000 < 57600000000000 := by omega
  intro h
  have hk : k = 0 := by
    generalize zone.offset * 1000000000 = shift at *
    omega
  rw [hk] at h
  omega

theorem bmod_of_range {x : ℤ} (h : -9223372036854775808 ≤ x) (h' : x < 9223372036854775808) :
    x.bmod 18446744073709551616 = x :=
  Int.bmod_eq_of_le (by omega) (by omega)

/-- The offset of the zone moves what is read away from the instant. -/
theorem read_instant_iff (zone : Zone) (t : ℤ) :
    parse_pg_timestamp (timestamptz_out zone t) = .ok (t * 1000) ↔
      zone.offset = 0 ∧ Representable t := by
  have hfirst : yearStart 1 = -719162 := by decide
  have hlast : yearStart 10000 = 2932897 := by decide
  have heast := zone.east
  have hwest := zone.west
  constructor
  · intro h
    have hrange : Representable t := parse_range h
    refine ⟨?_, hrange⟩
    unfold Representable at hrange
    have hread := parse_timestamptz_out zone (t := t) rfl (by omega) (by omega)
    obtain ⟨k, hk⟩ := bmod_multiple (Except.ok.inj (hread.symm.trans h))
    have hshift : zone.offset * 1000000000 =
        (t + zone.offset * 1000000) * 1000 - t * 1000 := by omega
    exact zone.offset_eq_zero (k := k) (by rw [hshift, hk, add_sub_cancel_left])
  · rintro ⟨hzero, hrange⟩
    unfold Representable at hrange
    have hshown : t + zone.offset * 1000000 = t := by omega
    rw [parse_timestamptz_out zone hshown (by omega) (by omega),
      bmod_of_range hrange.1 hrange.2]

/-- An evening two hours ahead of UTC. -/
theorem read_two_hours_late :
    timestamptz_out ⟨7200, by decide, by decide⟩ 1757010773123456 =
      "2025-09-04 20:32:53.123456+02".toList ∧
    parse_pg_timestamp (timestamptz_out ⟨7200, by decide, by decide⟩ 1757010773123456) =
      .ok ((1757010773123456 + 7200000000) * 1000) ∧
    parse_pg_timestamp (timestamptz_out ⟨7200, by decide, by decide⟩ 1757010773123456) ≠
      .ok (1757010773123456 * 1000) := by
  decide +kernel

end AdequateApi.SessionTimestamp
