import Mathlib.Data.Char
import Mathlib.Data.List.Lex
import Mathlib.Data.List.Sort
import AdequateApi.HttpMessages
import AdequateApi.Utf8Text

/-! The texts in a JSON value, which nlohmann::json writes only if they are UTF-8, and the text
that it writes. -/
namespace AdequateApi.JsonText
open StdString MultipartForm HttpMessages Utf8Text

/-! ### Texts of a value -/

mutual
/-- The texts in a value, keys included. -/
def texts : Json → List Str
  | .str s => [s]
  | .arr xs => textsOfItems xs
  | .obj ms => textsOfMembers ms
  | .null | .bool _ | .int _ | .float _ => []

def textsOfItems : List Json → List Str
  | [] => []
  | x :: xs => texts x ++ textsOfItems xs

def textsOfMember : Str × Json → List Str
  | (k, v) => k :: texts v

def textsOfMembers : List (Str × Json) → List Str
  | [] => []
  | m :: ms => textsOfMember m ++ textsOfMembers ms
end

/-- All texts of the value are UTF-8. -/
def Written (j : Json) : Prop := ∀ s ∈ texts j, Utf8 s

instance : DecidablePred Written := fun j => inferInstanceAs (Decidable (∀ s ∈ texts j, Utf8 s))

/-- What nlohmann::json promises: it reads UTF-8 only, and throws when it should write
anything else. -/
structure JsonLibrary (lib : Library) : Prop where
  parse : ∀ text j, lib.parse_json text = .ok j → Written j
  dump : ∀ j indent, (∃ text, lib.dump j indent = .ok text) ↔ Written j

theorem written_null : Written .null := by
  intro s hs
  simp [texts] at hs

theorem written_int (n : ℤ) : Written (.int n) := by
  intro s hs
  simp [texts] at hs

theorem written_str {s : Str} : Written (.str s) ↔ Utf8 s := by simp [Written, texts]

theorem written_items {xs : List Json} : Written (.arr xs) ↔ ∀ x ∈ xs, Written x := by
  unfold Written
  rw [texts]
  induction xs with
  | nil => simp [textsOfItems]
  | cons x xs ih => rw [textsOfItems, List.forall_mem_append, ih, List.forall_mem_cons]

theorem written_members {ms : List (Str × Json)} :
    Written (.obj ms) ↔ ∀ m ∈ ms, Utf8 m.1 ∧ Written m.2 := by
  unfold Written
  rw [texts]
  induction ms with
  | nil => simp [textsOfMembers]
  | cons m ms ih =>
    rw [textsOfMembers, List.forall_mem_append, ih, List.forall_mem_cons, textsOfMember,
      List.forall_mem_cons]

theorem utf8_literal {s : Str} (h : s.all (fun c => c.toNat < 128) = true) : Utf8 s :=
  Utf8.ascii fun c hc => by simpa using List.all_eq_true.mp h c hc

/-- The body of an error. -/
theorem written_error {message : Str} :
    Written (.obj [("error".toList, .str message)]) ↔ Utf8 message := by
  have hkey : Utf8 "error".toList := utf8_literal (by decide)
  rw [written_members, List.forall_mem_singleton, written_str]
  exact and_iff_right hkey

/-! ### The text of a value -/

/-- A character between quotation marks. -/
def escaped (c : Char) : Str :=
  if c = '"' then "\\\"".toList
  else if c = '\\' then "\\\\".toList
  else if c = '\x08' then "\\b".toList
  else if c = '\x0c' then "\\f".toList
  else if c = '\n' then "\\n".toList
  else if c = '\r' then "\\r".toList
  else if c = '\t' then "\\t".toList
  else if c.toNat < 32 then
    "\\u00".toList ++ [Nat.digitChar (c.toNat / 16), Nat.digitChar (c.toNat % 16)]
  else [c]

def quoted (s : Str) : Str := '"' :: (s.flatMap escaped ++ ['"'])

/-- An object is a `std::map`, which lists its members by their keys. -/
def byKey (ms : List (Str × Str)) : List (Str × Str) :=
  ms.insertionSort fun m n => m.1 ≤ n.1

mutual
/-- `dump()`. -/
def compact : Json → Str
  | .null => "null".toList
  | .bool b => if b then "true".toList else "false".toList
  | .int n => to_string n
  | .float text => text
  | .str s => quoted s
  | .arr xs => '[' :: (",".toList.intercalate (compactItems xs) ++ [']'])
  | .obj ms => "\x7b".toList ++ ",".toList.intercalate ((byKey (compactMembers ms)).map
      fun m => quoted m.1 ++ ':' :: m.2) ++ "\x7d".toList

def compactItems : List Json → List Str
  | [] => []
  | x :: xs => compact x :: compactItems xs

def compactMember : Str × Json → Str × Str
  | (k, v) => (k, compact v)

def compactMembers : List (Str × Json) → List (Str × Str)
  | [] => []
  | m :: ms => compactMember m :: compactMembers ms
end

/-- nlohmann::json as far as the texts of a table go: every other text is refused. Poco reads
nothing. -/
def readingOnly (table : Dict Json) : Library where
  parse_json := fun text =>
    match table.find text with
    | some j => .ok j
    | none => .error "parse error".toList
  dump := fun j _ => if Written j then .ok (compact j) else .error "invalid UTF-8 byte".toList
  poco := ⟨fun _ => .error [], fun _ _ => ([], none)⟩
  allow_field := 0

theorem readingOnly_library {table : Dict Json} (h : ∀ e ∈ table, Written e.2) :
    JsonLibrary (readingOnly table) where
  parse := by
    intro text j hj
    unfold readingOnly at hj
    dsimp only at hj
    split at hj
    · rename_i j' hfind
      cases hj
      obtain ⟨e, he, rfl⟩ := Option.map_eq_some_iff.mp hfind
      exact h e (List.mem_of_find?_eq_some he)
    · cases hj
  dump := by
    intro j indent
    unfold readingOnly
    dsimp only
    split
    · rename_i hj
      exact iff_of_true ⟨_, rfl⟩ hj
    · rename_i hj
      refine iff_of_false ?_ hj
      rintro ⟨_, h⟩
      cases h

/-- Members by key, and a quotation mark in a text. -/
example : compact (.obj [("b".toList, .arr [.int 1, .null]), ("a".toList, .str "x\"y".toList)]) =
    "\x7b\"a\":\"x\\\"y\",\"b\":[1,null]\x7d".toList := by decide

end AdequateApi.JsonText
