import Mathlib.Data.List.TakeWhile

/-! UTF-8 in strings of bytes, each byte written as the character with that code. A byte below
128 never is part of a longer sequence, so texts may be cut and joined there. -/
namespace AdequateApi.Utf8Text

/-- The bytes of one character. -/
def encoded (c : Char) : List Char := (String.utf8EncodeChar c).map fun b => Char.ofNat b.toNat

/-- The bytes of some text. -/
def Utf8 (s : List Char) : Prop := ∃ text : List Char, s = text.flatMap encoded

/-! ### The bytes of a character -/

theorem toNat_ofNat_byte (b : UInt8) : (Char.ofNat b.toNat).toNat = b.toNat := by
  have hb : b.toNat < 256 := b.toNat_lt
  have hvalid : b.toNat.isValidChar := .inl (by omega)
  rw [Char.ofNat, dif_pos hvalid]
  rfl

theorem encoded_of_lt {c : Char} (hc : c.toNat < 128) : encoded c = [c] := by
  have hval : c.val.toNat = c.toNat := rfl
  have hbyte : (UInt8.ofNat c.toNat).toNat = c.toNat := by
    rw [UInt8.toNat_ofNat']
    omega
  rw [encoded, String.utf8EncodeChar, hval, if_pos (by omega), List.map_singleton, hbyte,
    Char.ofNat_toNat]

theorem le_of_mem_encoded {c d : Char} (hc : 128 ≤ c.toNat) (hd : d ∈ encoded c) :
    128 ≤ d.toNat := by
  have hval : c.val.toNat = c.toNat := rfl
  obtain ⟨b, hb, rfl⟩ := List.mem_map.mp hd
  rw [toNat_ofNat_byte]
  rw [String.utf8EncodeChar, hval, if_neg (by omega)] at hb
  split at hb
  · simp only [List.mem_cons, List.not_mem_nil, or_false] at hb
    rcases hb with rfl | rfl <;> rw [UInt8.toNat_ofNat'] <;> omega
  split at hb
  · simp only [List.mem_cons, List.not_mem_nil, or_false] at hb
    rcases hb with rfl | rfl | rfl <;> rw [UInt8.toNat_ofNat'] <;> omega
  · simp only [List.mem_cons, List.not_mem_nil, or_false] at hb
    rcases hb with rfl | rfl | rfl | rfl <;> rw [UInt8.toNat_ofNat'] <;> omega

/-! ### Joining and cutting -/

namespace Utf8

theorem nil : Utf8 [] := ⟨[], rfl⟩

theorem char (c : Char) : Utf8 (encoded c) := ⟨[c], (List.flatMap_singleton _ _).symm⟩

theorem append {s t : List Char} (hs : Utf8 s) (ht : Utf8 t) : Utf8 (s ++ t) := by
  obtain ⟨a, rfl⟩ := hs
  obtain ⟨b, rfl⟩ := ht
  exact ⟨a ++ b, List.flatMap_append.symm⟩

theorem cons {c : Char} {s : List Char} (hc : c.toNat < 128) (hs : Utf8 s) : Utf8 (c :: s) := by
  have happend := (char c).append hs
  rwa [encoded_of_lt hc] at happend

theorem ascii {s : List Char} (h : ∀ c ∈ s, c.toNat < 128) : Utf8 s := by
  induction s with
  | nil => exact nil
  | cons c s ih =>
    exact cons (h c List.mem_cons_self) (ih fun d hd => h d (List.mem_cons_of_mem c hd))

end Utf8

/-- A byte below 128 stands between two texts. -/
theorem utf8_append_cons {c : Char} (hc : c.toNat < 128) (s t : List Char) :
    Utf8 (s ++ c :: t) ↔ Utf8 s ∧ Utf8 t := by
  constructor
  · rintro ⟨text, h⟩
    induction text generalizing s with
    | nil => simp at h
    | cons d text ih =>
      rw [List.flatMap_cons] at h
      rcases List.append_eq_append_iff.mp h with ⟨r, hr, hrest⟩ | ⟨r, rfl, hrest⟩
      · cases r with
        | nil =>
          rw [List.append_nil] at hr
          obtain ⟨_, ht⟩ := ih [] hrest
          exact ⟨hr ▸ Utf8.char d, ht⟩
        | cons x r =>
          -- the byte is one of the character's, which is that byte alone
          obtain ⟨rfl, rfl⟩ := List.cons.inj hrest
          have hd : d.toNat < 128 := by
            by_contra hle
            have hmem : c ∈ encoded d := by simp [hr]
            have := le_of_mem_encoded (Nat.le_of_not_lt hle) hmem
            omega
          rw [encoded_of_lt hd] at hr
          have hlen := congrArg List.length hr
          rw [List.length_singleton, List.length_append, List.length_cons] at hlen
          obtain rfl : s = [] := List.length_eq_zero_iff.mp (by omega)
          obtain rfl : r = [] := List.length_eq_zero_iff.mp (by omega)
          exact ⟨.nil, text, rfl⟩
      · obtain ⟨hr, ht⟩ := ih r hrest.symm
        exact ⟨(Utf8.char d).append hr, ht⟩
  · rintro ⟨hs, ht⟩
    exact hs.append (ht.cons hc)

/-- The part of a text before a byte below 128. -/
theorem Utf8.takeWhile_ne {c : Char} (hc : c.toNat < 128) {s : List Char} (h : Utf8 s) :
    Utf8 (s.takeWhile (· ≠ c)) := by
  have hsplit := List.takeWhile_append_dropWhile (p := (· ≠ c)) (l := s)
  cases hrest : s.dropWhile (· ≠ c) with
  | nil =>
    rw [hrest, List.append_nil] at hsplit
    rwa [hsplit]
  | cons d rest =>
    have hd := List.head?_dropWhile_not (· ≠ c) s
    rw [hrest] at hsplit hd
    obtain rfl : d = c := by simpa using hd
    rw [← hsplit] at h
    exact ((utf8_append_cons hc _ _).mp h).1

/-! ### Deciding -/

def byte (c : Char) : UInt8 := UInt8.ofNat c.toNat

theorem byte_ofNat (b : UInt8) : byte (Char.ofNat b.toNat) = b := by
  rw [byte, toNat_ofNat_byte, UInt8.ofNat_toNat]

theorem ofNat_byte {c : Char} (hc : c.toNat < 256) : Char.ofNat (byte c).toNat = c := by
  rw [byte, UInt8.toNat_ofNat', Nat.mod_eq_of_lt hc, Char.ofNat_toNat]

theorem utf8_iff (s : List Char) :
    Utf8 s ↔ (∀ c ∈ s, c.toNat < 256) ∧ (s.map byte).toByteArray.IsValidUTF8 := by
  constructor
  · rintro ⟨text, rfl⟩
    constructor
    · intro c hc
      obtain ⟨d, _, hd⟩ := List.mem_flatMap.mp hc
      obtain ⟨b, _, rfl⟩ := List.mem_map.mp hd
      rw [toNat_ofNat_byte]
      exact b.toNat_lt
    · refine ⟨text, ?_⟩
      have hchar : ∀ c, (encoded c).map byte = String.utf8EncodeChar c := by
        intro c
        rw [encoded, List.map_map]
        exact (List.map_congr_left fun b _ => byte_ofNat b).trans (List.map_id _)
      rw [List.map_flatMap, List.utf8Encode]
      simp only [hchar]
  · rintro ⟨hbytes, ⟨text, htext⟩⟩
    refine ⟨text, ?_⟩
    rw [List.utf8Encode, List.toByteArray_inj] at htext
    calc s = (s.map byte).map fun b => Char.ofNat b.toNat := by
          rw [List.map_map]
          exact ((List.map_congr_left fun c hc => ofNat_byte (hbytes c hc)).trans
            (List.map_id s)).symm
      _ = (text.flatMap String.utf8EncodeChar).map fun b => Char.ofNat b.toNat := by rw [htext]
      _ = text.flatMap encoded := List.map_flatMap

-- one byte after the other, not over all characters
instance : DecidablePred Utf8 := fun s =>
  have (s : List Char) : Decidable (∀ c ∈ s, c.toNat < 256) := List.decidableBAll _ s
  decidable_of_iff _ (utf8_iff s).symm

/-- A byte that starts no character. -/
example : ¬ Utf8 [Char.ofNat 255] := by decide +kernel

end AdequateApi.Utf8Text
