import Mathlib.Data.Int.Order.Basic
import Mathlib.Data.List.Infix
import Mathlib.Data.List.TakeWhile

/-! Byte strings. A `std::string` is the list of its bytes, each written as the character
with that code; the helpers are the `std::string` and `<cctype>` operations the code uses. -/
namespace AdequateApi.StdString

abbrev Str := List Char

/-- `hay.find(needle) != npos`. -/
def contains (hay needle : Str) : Bool := hay.tails.any fun t => needle.isPrefixOf t

/-- `hay.rfind(needle, 0) == 0`. -/
def startsWith (hay needle : Str) : Bool := needle.isPrefixOf hay

theorem startsWith_iff (hay needle : Str) : startsWith hay needle = true ↔ needle <+: hay := by
  simp [startsWith]

/-- The text a C function reads from `s.c_str()`: up to the first NUL byte. -/
def c_str (s : Str) : Str := s.takeWhile (· ≠ '\x00')

theorem c_str_eq_self {s : Str} (h : '\x00' ∉ s) : c_str s = s := by
  apply List.takeWhile_eq_self_iff.mpr
  intro c hc
  have hne : c ≠ '\x00' := fun e => h (e ▸ hc)
  simpa using hne

/-- `std::isspace` in the C locale. -/
def isspace (c : Char) : Bool :=
  c = ' ' || c = '\t' || c = '\n' || c = '\x0b' || c = '\x0c' || c = '\r'

/-- `std::tolower` on every byte, in the C locale. -/
def toLower (s : Str) : Str := s.map Char.toLower

/-- `std::to_string`. -/
def to_string (n : ℤ) : Str :=
  if n < 0 then '-' :: Nat.toDigits 10 n.natAbs else Nat.toDigits 10 n.natAbs

/-- `std::stoi`: blanks, a sign and digits; what follows is ignored. -/
def stoi (s : Str) : Except Str ℤ :=
  let t := s.dropWhile isspace
  let digits := (if t.head? = some '-' ∨ t.head? = some '+' then t.drop 1 else t).takeWhile
    Char.isDigit
  let n : ℤ := Nat.ofDigitChars 10 digits 0
  let value := if t.head? = some '-' then -n else n
  -- std::invalid_argument and std::out_of_range have the same text
  if digits = [] ∨ value < -2147483648 ∨ 2147483647 < value then .error "stoi".toList else .ok value

theorem toLower_of_lt {c : Char} (h : c.val < 'A'.val) : c.toLower = c := by
  unfold Char.toLower
  rw [dif_neg]
  rintro ⟨hA, _⟩
  exact UInt32.lt_irrefl _ (UInt32.lt_of_lt_of_le h hA)

theorem toLower_ne {c d : Char} (hd : d.val < 'a'.val) (h : c ≠ d) : c.toLower ≠ d := by
  unfold Char.toLower
  split
  · rename_i hc
    rintro rfl
    have h1 := hc.1
    have h2 := hc.2
    simp only [ge_iff_le, UInt32.le_iff_toNat_le, UInt32.lt_iff_toNat_lt] at *
    rw [UInt32.toNat_add] at hd
    have : 'A'.val.toNat = 65 := rfl
    have : 'Z'.val.toNat = 90 := rfl
    have : 'a'.val.toNat = 97 := rfl
    have : ('a'.val - 'A'.val).toNat = 32 := rfl
    omega
  · exact h

theorem to_string_ne_nil (n : ℤ) : to_string n ≠ [] := by
  unfold to_string
  split
  · exact List.cons_ne_nil _ _
  · exact Nat.toDigits_ne_nil

theorem to_string_chars {n : ℤ} {c : Char} (h : c ∈ to_string n) : c.isDigit = true ∨ c = '-' := by
  unfold to_string at h
  split at h
  · rcases List.mem_cons.mp h with rfl | h
    · exact .inr rfl
    · exact .inl (Nat.isDigit_of_mem_toDigits (by omega) (by omega) h)
  · exact .inl (Nat.isDigit_of_mem_toDigits (by omega) (by omega) h)

theorem toLower_numeral {s : Str} (h : ∀ c ∈ s, c.isDigit = true ∨ c = '-') : toLower s = s := by
  have hfix : ∀ c ∈ s, c.toLower = c := by
    intro c hc
    apply toLower_of_lt
    rcases h c hc with hd | rfl
    · have hnine : '9'.val < 'A'.val := by decide
      simp only [Char.isDigit, Bool.and_eq_true, decide_eq_true_eq] at hd
      exact UInt32.lt_of_le_of_lt hd.2 hnine
    · decide
  unfold toLower
  rw [List.map_congr_left hfix, List.map_id']

theorem toLower_to_string (n : ℤ) : toLower (to_string n) = to_string n :=
  toLower_numeral fun _ hc => to_string_chars hc

theorem not_mem_of_mem_splitOn {c : Char} {p n : List Char} (h : n ∈ p.splitOn c) : c ∉ n := by
  induction p generalizing n with
  | nil =>
    rw [List.splitOn_nil, List.mem_singleton] at h
    simp [h]
  | cons d p ih =>
    rw [List.splitOn_cons_eq_if_modifyHead] at h
    split at h
    · rcases List.mem_cons.mp h with rfl | h
      · exact List.not_mem_nil
      · exact ih h
    · rename_i hd
      have hne : c ≠ d := fun e => hd (by simp [e])
      cases hs : p.splitOn c with
      | nil => simp at hs
      | cons m ms =>
        rw [hs, List.modifyHead_cons] at h
        rw [hs] at ih
        rcases List.mem_cons.mp h with rfl | h
        · simp [hne, ih List.mem_cons_self]
        · exact ih (List.mem_cons_of_mem m h)

/-- The text before and after the first `c`, which is `find` and two `substr`. -/
def cut (c : Char) (s : Str) : Option (Str × Str) :=
  match s.dropWhile (· ≠ c) with
  | [] => none
  | _ :: rest => some (s.takeWhile (· ≠ c), rest)

/-- `std::unordered_map<std::string, β>`; each key occurs at most once. -/
abbrev Dict (β : Type) := List (Str × β)

namespace Dict

variable {β : Type}

def find (m : Dict β) (k : Str) : Option β := (List.find? (fun e => e.1 = k) m).map Prod.snd

/-- `m[k] = v`. -/
def set (m : Dict β) (k : Str) (v : β) : Dict β := (k, v) :: List.filter (fun e => e.1 ≠ k) m

@[simp] theorem find_nil (k : Str) : find ([] : Dict β) k = none := rfl

@[simp] theorem find_set_self (m : Dict β) (k : Str) (v : β) : (set m k v).find k = some v := by
  simp [find, set]

theorem find_set_ne (m : Dict β) {k l : Str} (v : β) (h : l ≠ k) :
    (set m k v).find l = find m l := by
  have hne : ¬ k = l := fun e => h e.symm
  simp only [find, set, List.find?_cons, hne, decide_false]
  rw [List.find?_filter]
  congr 2
  funext e
  by_cases he : e.1 = l
  · simp [he, h]
  · simp [he]

end Dict
end AdequateApi.StdString
