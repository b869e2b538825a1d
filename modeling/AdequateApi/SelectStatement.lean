import AdequateApi.Numerals
import Mathlib.Data.List.Sort

/-! `SELECT a,b FROM t WHERE c AND d ORDER BY e LIMIT n OFFSET m` with numbered placeholders:
the text of such a statement, and the statement it is read as. Keywords are in capitals and
words one blank apart. -/
namespace AdequateApi.SelectStatement
open StdString

inductive SqlType
  | bigint
  | text
  | citext
  | timestamptz
  deriving DecidableEq, Repr

/-- Values that are not NULL; a `text` is also a value of type citext. -/
inductive Value
  | bigint (n : ℤ)
  | text (s : Str)
  | timestamptz (t : ℤ)
  deriving DecidableEq, Repr

/-- `$n`, or `ANY($n::element[])`. -/
inductive Operand
  | param (n : ℕ)
  | any (n : ℕ) (element : SqlType)
  deriving DecidableEq, Repr

/-- `column = operand`. -/
structure Condition where
  column : Str
  operand : Operand
  deriving DecidableEq, Repr

/-- `limit` and `offset` are the numbers of their placeholders. -/
structure Select where
  columns : List Str
  table : Str
  conditions : List Condition
  order : Option Str
  limit : Option ℕ
  offset : Option ℕ
  deriving DecidableEq, Repr

/-! ### The text -/

def SqlType.all : List SqlType := [.bigint, .text, .citext, .timestamptz]

def SqlType.name : SqlType → Str
  | .bigint => "bigint".toList
  | .text => "text".toList
  | .citext => "citext".toList
  | .timestamptz => "timestamptz".toList

def dollar (n : ℕ) : Str := '$' :: to_string n

/-- What follows the placeholder inside `ANY(..)`. -/
def SqlType.arrayCast (t : SqlType) : Str := "::".toList ++ t.name ++ "[])".toList

def Operand.word : Operand → Str
  | .param n => dollar n
  | .any n t => "ANY(".toList ++ (dollar n ++ t.arrayCast)

def Condition.words (c : Condition) : List Str := [c.column, "=".toList, c.operand.word]

def whereWords : List Condition → List Str
  | [] => []
  | c :: cs => "WHERE".toList :: (c.words ++ cs.flatMap fun d => "AND".toList :: d.words)

def orderWords : Option Str → List Str
  | none => []
  | some column => ["ORDER".toList, "BY".toList, column]

def countWords (keyword : Str) : Option ℕ → List Str
  | none => []
  | some n => [keyword, dollar n ++ "::int".toList]

def Select.words (q : Select) : List Str :=
  ["SELECT".toList, [','].intercalate q.columns, "FROM".toList, q.table] ++
    (whereWords q.conditions ++ (orderWords q.order ++
      (countWords "LIMIT".toList q.limit ++ countWords "OFFSET".toList q.offset)))

def Select.text (q : Select) : Str := [' '].intercalate q.words

/-! ### Reading it -/

def parseDollar : Str → Option (ℕ × Str)
  | '$' :: s =>
      if s.takeWhile Char.isDigit = [] then none
      else some (Nat.ofDigitChars 10 (s.takeWhile Char.isDigit) 0, s.dropWhile Char.isDigit)
  | _ => none

def parseOperand (w : Str) : Option Operand :=
  if "ANY(".toList.isPrefixOf w then
    (parseDollar (w.drop 4)).bind fun r =>
      (SqlType.all.find? fun t => r.2 = t.arrayCast).map fun t => .any r.1 t
  else (parseDollar w).bind fun r => if r.2 = [] then some (.param r.1) else none

def parseCondition (column eq operand : Str) : Option Condition :=
  if eq = "=".toList then (parseOperand operand).map fun o => ⟨column, o⟩ else none

def parseConditions : List Str → Option (List Condition × List Str)
  | column :: eq :: operand :: [] => (parseCondition column eq operand).map fun c => ([c], [])
  | column :: eq :: operand :: w :: rest =>
      if w = "AND".toList then
        (parseCondition column eq operand).bind fun c =>
          (parseConditions rest).map fun r => (c :: r.1, r.2)
      else (parseCondition column eq operand).map fun c => ([c], w :: rest)
  | _ => none

def parseWhere : List Str → Option (List Condition × List Str)
  | w :: rest => if w = "WHERE".toList then parseConditions rest else some ([], w :: rest)
  | [] => some ([], [])

def parseOrder : List Str → Option Str × List Str
  | w :: v :: column :: rest =>
      if w = "ORDER".toList ∧ v = "BY".toList then (some column, rest)
      else (none, w :: v :: column :: rest)
  | ws => (none, ws)

def parseCount (keyword : Str) : List Str → Option (Option ℕ × List Str)
  | w :: v :: rest =>
      if w = keyword then
        (parseDollar v).bind fun r => if r.2 = "::int".toList then some (some r.1, rest) else none
      else some (none, w :: v :: rest)
  | ws => some (none, ws)

def parse : List Str → Option Select
  | s :: columns :: f :: table :: rest =>
      if s = "SELECT".toList ∧ f = "FROM".toList then do
        let (conditions, rest) ← parseWhere rest
        let (order, rest) := parseOrder rest
        let (limit, rest) ← parseCount "LIMIT".toList rest
        let (offset, rest) ← parseCount "OFFSET".toList rest
        if rest = [] then
          some ⟨columns.splitOn ',', table, conditions, order, limit, offset⟩
        else none
      else none
  | _ => none

/-! ### What was written is read back -/

theorem to_string_natCast (n : ℕ) : to_string n = Nat.toDigits 10 n := by
  simp [to_string]

theorem parseDollar_append (n : ℕ) (rest : Str) (h : rest.head?.any Char.isDigit = false) :
    parseDollar (dollar n ++ rest) = some (n, rest) := by
  have hdigits := toDigits_isDigit n
  have htake : rest.takeWhile Char.isDigit = [] ∧ rest.dropWhile Char.isDigit = rest := by
    cases rest with
    | nil => exact ⟨rfl, rfl⟩
    | cons c cs =>
      have hc : ¬ c.isDigit = true := by simpa using h
      exact ⟨List.takeWhile_cons_of_neg hc, List.dropWhile_cons_of_neg hc⟩
  have hvalue : Nat.ofDigitChars 10 (Nat.toDigits 10 n) 0 = n := Nat.ofDigitChars_ten_toDigits
  unfold dollar parseDollar
  simp only [List.cons_append, to_string_natCast]
  rw [List.takeWhile_append_of_pos hdigits, List.dropWhile_append_of_pos hdigits, htake.1,
    htake.2, List.append_nil, if_neg Nat.toDigits_ne_nil, hvalue]

theorem arrayCast_head (t : SqlType) : t.arrayCast.head?.any Char.isDigit = false := by
  cases t <;> decide

theorem find_arrayCast (t : SqlType) :
    SqlType.all.find? (fun u => t.arrayCast = u.arrayCast) = some t := by
  cases t <;> decide

theorem parseOperand_word (o : Operand) : parseOperand o.word = some o := by
  cases o with
  | param n =>
    have hread := parseDollar_append n [] (by simp)
    rw [List.append_nil] at hread
    have hany : "ANY(".toList.isPrefixOf (Operand.param n).word = false := rfl
    unfold parseOperand
    rw [hany]
    simp [Operand.word, hread]
  | any n t =>
    have hany : "ANY(".toList.isPrefixOf (Operand.any n t).word = true := rfl
    have hdrop : (Operand.any n t).word.drop 4 = dollar n ++ t.arrayCast := rfl
    unfold parseOperand
    rw [hany, hdrop, parseDollar_append n _ (arrayCast_head t)]
    simp [find_arrayCast]

theorem parseCondition_words (c : Condition) :
    parseCondition c.column "=".toList c.operand.word = some c := by
  simp [parseCondition, parseOperand_word]

/-- Conditions end where a word other than `AND` stands. -/
theorem parseConditions_words (c : Condition) (cs : List Condition) (rest : List Str)
    (h : rest.head? ≠ some "AND".toList) :
    parseConditions ((c.words ++ cs.flatMap fun d => "AND".toList :: d.words) ++ rest) =
      some (c :: cs, rest) := by
  induction cs generalizing c with
  | nil =>
    rw [List.flatMap_nil, List.append_nil]
    cases rest with
    | nil =>
      rw [List.append_nil, Condition.words, parseConditions, parseCondition_words]
      rfl
    | cons w rest =>
      have hw : w ≠ "AND".toList := fun e => h (congrArg some e)
      rw [Condition.words, List.cons_append, List.cons_append, List.cons_append, List.nil_append,
        parseConditions, if_neg hw, parseCondition_words]
      rfl
  | cons d ds ih =>
    have hrest := ih d
    simp only [List.flatMap_cons, Condition.words, List.cons_append, List.nil_append]
      at hrest ⊢
    rw [parseConditions, if_pos rfl, parseCondition_words, hrest]
    rfl

theorem parseWhere_words (cs : List Condition) (rest : List Str)
    (hw : rest.head? ≠ some "WHERE".toList) (ha : rest.head? ≠ some "AND".toList) :
    parseWhere (whereWords cs ++ rest) = some (cs, rest) := by
  cases cs with
  | nil =>
    cases rest with
    | nil => rfl
    | cons w rest =>
      have hne : w ≠ "WHERE".toList := fun e => hw (congrArg some e)
      rw [whereWords, List.nil_append, parseWhere, if_neg hne]
  | cons c cs =>
    simp only [whereWords, List.cons_append, parseWhere, if_true]
    exact parseConditions_words c cs rest ha

theorem parseOrder_words (order : Option Str) (rest : List Str)
    (h : rest.head? ≠ some "ORDER".toList) :
    parseOrder (orderWords order ++ rest) = (order, rest) := by
  cases order with
  | none =>
    rcases rest with _ | ⟨w, _ | ⟨v, _ | ⟨u, rest⟩⟩⟩
    · rfl
    · rfl
    · rfl
    · have hne : ¬ (w = "ORDER".toList ∧ v = "BY".toList) := fun e => h (congrArg some e.1)
      rw [orderWords, List.nil_append, parseOrder, if_neg hne]
  | some column => rfl

theorem parseCount_words (keyword : Str) (count : Option ℕ) (rest : List Str)
    (h : rest.head? ≠ some keyword) :
    parseCount keyword (countWords keyword count ++ rest) = some (count, rest) := by
  cases count with
  | none =>
    rcases rest with _ | ⟨w, _ | ⟨v, rest⟩⟩
    · rfl
    · rfl
    · have hne : w ≠ keyword := fun e => h (congrArg some e)
      rw [countWords, List.nil_append, parseCount, if_neg hne]
  | some n =>
    have hread := parseDollar_append n "::int".toList (by decide)
    rw [countWords, List.cons_append, List.cons_append, List.nil_append, parseCount, if_pos rfl,
      hread]
    rfl

/-- Names of tables and columns: no blank, comma or NUL byte. -/
def Name (s : Str) : Prop := ' ' ∉ s ∧ ',' ∉ s ∧ '\x00' ∉ s

instance (s : Str) : Decidable (Name s) :=
  inferInstanceAs (Decidable (' ' ∉ s ∧ ',' ∉ s ∧ '\x00' ∉ s))

structure Select.WellFormed (q : Select) : Prop where
  listed : q.columns ≠ []
  columns : ∀ c ∈ q.columns, Name c
  table : Name q.table
  conditions : ∀ c ∈ q.conditions, Name c.column
  order : ∀ c ∈ q.order, Name c

theorem parse_words {q : Select} (h : q.WellFormed) : parse q.words = some q := by
  obtain ⟨columns, table, conditions, order, limit, offset⟩ := q
  have hcolumns : ([','].intercalate columns).splitOn ',' = columns :=
    List.splitOn_intercalate ',' (fun c hc => (h.columns c hc).2.1) h.listed
  have hoffset := parseCount_words "OFFSET".toList offset [] (by simp)
  have hlimit := parseCount_words "LIMIT".toList limit
    (countWords "OFFSET".toList offset) (by cases offset <;> simp [countWords])
  have horder := parseOrder_words order
    (countWords "LIMIT".toList limit ++ countWords "OFFSET".toList offset)
    (by cases limit <;> cases offset <;> simp [countWords])
  have hwhere := parseWhere_words conditions
    (orderWords order ++
      (countWords "LIMIT".toList limit ++ countWords "OFFSET".toList offset))
    (by cases order <;> cases limit <;> cases offset <;> simp [orderWords, countWords])
    (by cases order <;> cases limit <;> cases offset <;> simp [orderWords, countWords])
  rw [List.append_nil] at hoffset
  simp only [Select.words, List.cons_append, List.nil_append, parse, and_self, if_true, hwhere,
    horder, hlimit, hoffset, hcolumns, Option.bind_eq_bind, Option.bind_some]

theorem mem_intercalate {d c : Char} {ls : List Str} (h : c ∈ [d].intercalate ls) :
    c = d ∨ ∃ l ∈ ls, c ∈ l := by
  induction ls with
  | nil => cases h
  | cons l ls ih =>
    cases ls with
    | nil =>
      rw [List.intercalate_singleton] at h
      exact .inr ⟨l, List.mem_cons_self, h⟩
    | cons m ms =>
      rw [List.intercalate_cons_cons, List.mem_append, List.mem_append,
        List.mem_singleton] at h
      rcases h with (h | h) | h
      · exact .inr ⟨l, List.mem_cons_self, h⟩
      · exact .inl h
      · rcases ih h with h | ⟨k, hk, h⟩
        · exact .inl h
        · exact .inr ⟨k, List.mem_cons_of_mem _ hk, h⟩

/-- A word of a statement: no blank and no NUL byte. -/
def Word (w : Str) : Prop := ∀ c ∈ w, c ≠ ' ' ∧ c ≠ '\x00'

instance (w : Str) : Decidable (Word w) :=
  List.decidableBAll _ w

theorem Word.append {v w : Str} (hv : Word v) (hw : Word w) : Word (v ++ w) := by
  intro c hc
  rcases List.mem_append.mp hc with hc | hc
  · exact hv c hc
  · exact hw c hc

theorem Name.word {s : Str} (h : Name s) : Word s := by
  refine fun c hc => ⟨?_, ?_⟩
  · rintro rfl
    exact h.1 hc
  · rintro rfl
    exact h.2.2 hc

theorem word_dollar (n : ℕ) : Word (dollar n) := by
  intro c hc
  rcases List.mem_cons.mp hc with rfl | hc
  · decide
  · rw [to_string_natCast] at hc
    have hd := toDigits_isDigit n c hc
    exact ⟨isDigit_ne hd rfl, isDigit_ne hd rfl⟩

theorem Operand.word_word (o : Operand) : Word o.word := by
  cases o with
  | param n => exact word_dollar n
  | any n t =>
    refine Word.append (by decide) ((word_dollar n).append ?_)
    cases t <;> decide

theorem word_countWords {keyword : Str} (h : Word keyword) (count : Option ℕ) :
    ∀ w ∈ countWords keyword count, Word w := by
  cases count with
  | none => simp [countWords]
  | some n =>
    intro w hw
    rcases List.mem_pair.mp hw with rfl | rfl
    · exact h
    · exact (word_dollar n).append (by decide)

theorem Condition.words_word {c : Condition} (h : Name c.column) : ∀ w ∈ c.words, Word w := by
  simp only [Condition.words, List.mem_cons, List.not_mem_nil, or_false, forall_eq_or_imp,
    forall_eq]
  exact ⟨h.word, by decide, c.operand.word_word⟩

theorem whereWords_word {cs : List Condition} (h : ∀ c ∈ cs, Name c.column) :
    ∀ w ∈ whereWords cs, Word w := by
  cases cs with
  | nil => simp [whereWords]
  | cons c cs =>
    intro w hw
    rcases List.mem_cons.mp hw with rfl | hw
    · decide
    rcases List.mem_append.mp hw with hw | hw
    · exact Condition.words_word (h c List.mem_cons_self) w hw
    obtain ⟨d, hd, hw⟩ := List.mem_flatMap.mp hw
    rcases List.mem_cons.mp hw with rfl | hw
    · decide
    · exact Condition.words_word (h d (List.mem_cons_of_mem _ hd)) w hw

theorem Select.words_word {q : Select} (h : q.WellFormed) : ∀ w ∈ q.words, Word w := by
  have hcolumns : Word ([','].intercalate q.columns) := by
    intro c hc
    rcases mem_intercalate hc with rfl | ⟨l, hl, hc⟩
    · decide
    · exact (h.columns l hl).word c hc
  have horder : ∀ w ∈ orderWords q.order, Word w := by
    cases ho : q.order with
    | none => simp [orderWords]
    | some column =>
      simp only [orderWords, List.mem_cons, List.not_mem_nil, or_false, forall_eq_or_imp,
        forall_eq]
      exact ⟨by decide, by decide, (h.order column ho).word⟩
  intro w hw
  simp only [Select.words, List.mem_append, List.mem_cons, List.not_mem_nil, or_false] at hw
  rcases hw with (rfl | rfl | rfl | rfl) | hw | hw | hw | hw
  · decide
  · exact hcolumns
  · decide
  · exact h.table.word
  · exact whereWords_word h.conditions w hw
  · exact horder w hw
  · exact word_countWords (by decide) _ w hw
  · exact word_countWords (by decide) _ w hw

/-- The text of a statement reaches the server whole, and is read as the statement. -/
theorem parse_text {q : Select} (h : q.WellFormed) :
    parse ((c_str q.text).splitOn ' ') = some q := by
  have hword := q.words_word h
  have hnul : '\x00' ∉ q.text := by
    intro hc
    rcases mem_intercalate hc with hc | ⟨w, hw, hc⟩
    · exact absurd hc (by decide)
    · exact (hword w hw _ hc).2 rfl
  rw [c_str_eq_self hnul, Select.text, List.splitOn_intercalate ' ' _ (by simp [Select.words]),
    parse_words h]
  intro w hw hc
  exact (hword w hw _ hc).1 rfl

end AdequateApi.SelectStatement
