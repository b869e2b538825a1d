import AdequateApi.StdString

/-! `SQLBuilder`: statement text with numbered placeholders beside the list of parameters. -/
namespace AdequateApi.SqlBuilder
open StdString

structure SQLBuilder where
  tableName : Str
  sql : Str
  hasWhere : Bool
  params : List (Option Str)
  index : ℕ
  deriving DecidableEq, Repr

/-- `boost::algorithm::join(parts, ",")`. -/
def join (parts : List Str) : Str := [','].intercalate parts

def placeholder (i : ℕ) : Str := '$' :: to_string i

/-- The elements stand in the literal as they are, without quotes. -/
def arrayToPg (vec : List Str) : Str := '{' :: (join vec ++ ['}'])

namespace SQLBuilder

def create (tableName : Str) : SQLBuilder := ⟨tableName, [], false, [], 0⟩

def select (qb : SQLBuilder) (fields : List Str) : SQLBuilder :=
  if fields = [] then { qb with sql := qb.sql ++ "SELECT * FROM ".toList ++ qb.tableName }
  else { qb with
    sql := qb.sql ++ "SELECT ".toList ++ join fields ++ " FROM ".toList ++ qb.tableName }

def exists_ (qb : SQLBuilder) : SQLBuilder :=
  { qb with sql := "SELECT EXISTS(".toList ++ qb.sql ++ ")".toList }

/-- No fields throw `std::invalid_argument`, here and in `update`. -/
def insert (qb : SQLBuilder) (fields : List Str) : Except Str SQLBuilder :=
  if fields = [] then .error "Fields must be provided for INSERT".toList
  else
    let placeholders := fields.zipIdx.map fun f => placeholder (qb.index + f.2 + 1)
    .ok { qb with
      sql := qb.sql ++ "INSERT INTO ".toList ++ qb.tableName ++ "(".toList ++ join fields ++
        ") VALUES (".toList ++ join placeholders ++ ")".toList
      index := qb.index + fields.length }

def update (qb : SQLBuilder) (fields : List Str) : Except Str SQLBuilder :=
  if fields = [] then .error "Fields must be provided for UPDATE".toList
  else
    let sets := fields.zipIdx.map fun f => f.1 ++ " = ".toList ++ placeholder (qb.index + f.2 + 1)
    .ok { qb with
      sql := qb.sql ++ "UPDATE ".toList ++ qb.tableName ++ " SET ".toList ++ join sets
      index := qb.index + fields.length }

def remove (qb : SQLBuilder) : SQLBuilder :=
  { qb with sql := "DELETE FROM ".toList ++ qb.tableName }

def returning (qb : SQLBuilder) (field : Str) : SQLBuilder :=
  { qb with sql := qb.sql ++ " RETURNING ".toList ++ field }

/-- `value` is already the text `toString` makes of it. -/
def where_ (qb : SQLBuilder) (expr value : Str) : SQLBuilder :=
  { qb with
    sql := qb.sql ++ (if qb.hasWhere then " AND ".toList else " WHERE ".toList) ++ expr ++
      " = ".toList ++ placeholder (qb.index + 1)
    hasWhere := true
    params := qb.params ++ [some value]
    index := qb.index + 1 }

/-- `values` are already texts. No values, no condition. -/
def whereAny (qb : SQLBuilder) (expr cast : Str) (values : List Str) : SQLBuilder :=
  if values = [] then qb
  else { qb with
    sql := qb.sql ++ (if qb.hasWhere then " AND ".toList else " WHERE ".toList) ++ expr ++
      " = ANY(".toList ++ placeholder (qb.index + 1) ++ "::".toList ++ cast ++ "[])".toList
    hasWhere := true
    params := qb.params ++ [some (arrayToPg values)]
    index := qb.index + 1 }

def limit (qb : SQLBuilder) (n : Option ℕ) : SQLBuilder :=
  match n with
  | none => qb
  | some n => { qb with
      sql := qb.sql ++ " LIMIT ".toList ++ placeholder (qb.index + 1) ++ "::int".toList
      params := qb.params ++ [some (to_string n)]
      index := qb.index + 1 }

def offset (qb : SQLBuilder) (n : Option ℕ) : SQLBuilder :=
  match n with
  | none => qb
  | some n => { qb with
      sql := qb.sql ++ " OFFSET ".toList ++ placeholder (qb.index + 1) ++ "::int".toList
      params := qb.params ++ [some (to_string n)]
      index := qb.index + 1 }

def orderBy (qb : SQLBuilder) (fieldName : Str) : SQLBuilder :=
  { qb with sql := qb.sql ++ " ORDER BY ".toList ++ fieldName }

end SQLBuilder
end AdequateApi.SqlBuilder
