import AdequateApi.Numerals

/-! `BaseFilter` and `UserListFilter`: the filters of a listing, as read from a query. -/
namespace AdequateApi.UserFilters
open StdString

/-- `std::stoull`: a number with a minus sign is read modulo `2 ^ 64`. -/
def stoull (s : Str) : Except Str ℕ :=
  match leadingNumber s with
  | none => .error "stoull".toList
  | some n =>
      if n.natAbs < 18446744073709551616 then .ok (n % 18446744073709551616).toNat
      else .error "stoull".toList

/-- Tokens between commas; empty ones do not count. -/
def tokens (input : Str) : List Str := (input.splitOn ',').filter (· ≠ [])

/-- A token that `stoull` refuses is skipped. -/
def parseIds (input : Str) : List Int64 :=
  (tokens input).filterMap fun token =>
    match stoull token with
    | .ok n => some (Int64.ofNat n)
    | .error _ => none

def parseStrings (input : Str) : List Str := tokens input

structure UserListFilter where
  id : Option Int64
  id__in : Option (List Int64)
  username : Option Str
  username__in : Option (List Str)
  email : Option Str
  limit : Option ℕ
  offset : Option ℕ
  deriving DecidableEq, Repr

/-- A number among the query parameters. -/
def number (query : Dict Str) (key : Str) : Except Str (Option ℕ) :=
  match query.find key with
  | none => .ok none
  | some value => (stoull value).map some

def parseRequestQuery (filter : UserListFilter) (query : Dict Str) : Except Str UserListFilter := do
  let limit ← number query "limit".toList
  let offset ← number query "offset".toList
  let id ← number query "id".toList
  .ok
    { id := (id.map Int64.ofNat).or filter.id
      id__in := ((query.find "id__in".toList).map parseIds).or filter.id__in
      username := (query.find "username".toList).or filter.username
      username__in := ((query.find "username__in".toList).map parseStrings).or filter.username__in
      email := (query.find "email".toList).or filter.email
      limit := limit.or filter.limit
      offset := offset.or filter.offset }

/-- A query whose ids are all malformed asks for the empty list. -/
example : parseIds "abc,,x1".toList = [] := by decide +kernel

end AdequateApi.UserFilters
