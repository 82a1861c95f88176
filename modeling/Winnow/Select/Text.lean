import Winnow.Select.Naming
import Winnow.Sql.Keyword
import Winnow.Store.Binding

namespace Winnow

def reservedWords : List String :=
  ["all", "analyse", "analyze", "and", "any", "array", "as", "asc", "asymmetric", "authorization",
    "between", "binary", "both", "case", "cast", "check", "collate", "column", "constraint",
    "create", "cross", "current_date", "current_role", "current_time", "current_timestamp",
    "current_user", "default", "deferrable", "desc", "distinct", "do", "else", "end", "except",
    "false", "for", "foreign", "freeze", "from", "full", "grant", "group", "having", "ilike", "in",
    "initially", "inner", "intersect", "into", "is", "isnull", "join", "leading", "left", "like",
    "limit", "localtime", "localtimestamp", "natural", "new", "not", "notnull", "null", "off",
    "offset", "old", "on", "only", "or", "order", "outer", "overlaps", "placing", "primary",
    "references", "right", "select", "session_user", "set", "similar", "some", "symmetric", "table",
    "then", "to", "trailing", "true", "union", "unique", "user", "using", "verbose", "when",
    "where"]

def isIdentifierChar (c : Char) : Bool :=
  c.isAlphanum || c = '_' || c = '$' || c = 'ı' || c = 'ſ'

/-- Whether every character may stand in an identifier without quotes; a line break at the end is
passed over. -/
def isPlainIdentifier (cs : List Char) : Bool :=
  let cs := if cs.getLast? = some '\n' then cs.dropLast else cs
  !cs.isEmpty && cs.all isIdentifierChar

def needsQuotes (name : String) : Bool :=
  match name.toList with
  | [] => true
  | c :: cs =>
    let small := lower name
    reservedWords.contains small || c.isDigit || c = '$' || !isPlainIdentifier (c :: cs) ||
      small != name

def inQuotes (quote : Char) (s : String) : String :=
  String.ofList (quote :: (s.toList.flatMap fun c => if c = quote then [c, c] else [c]) ++ [quote])

def identifier (name : String) : String := if needsQuotes name then inQuotes '"' name else name

def ColumnRef.sql (c : ColumnRef) : String := identifier c.table ++ "." ++ identifier c.column

namespace Value

def plainText : Value → String
  | text s => s
  | moment m => m.spelled " "
  | v => v.shown

def literal? (t : ColumnType) (v : Value) : Option String :=
  match v, t with
  | null, _ => some "NULL"
  | v, .int => v.asInteger?.map toString
  | v, .float => some v.plainText
  | text s, .str => some (inQuotes '\'' s)
  | v, .bool => v.asTruth?.map fun b => if b then "true" else "false"
  | moment m, .datetime => some (inQuotes '\'' (m.spelled " "))
  | _, _ => none

def literal (t : ColumnType) (v : Value) : Except Failure String :=
  match v.literal? t with
  | some s => .ok s
  | none => .error .noLiteral

def literals (t : ColumnType) : List Value → Except Failure (List String)
  | [] => .ok []
  | v :: vs => do return (← v.literal t) :: (← literals t vs)

end Value

inductive SqlStyle where
  | placeholders
  | literals
  | marks
  deriving DecidableEq, Repr

def bindText (style : SqlStyle) (t : ColumnType) (column : ColumnRef) (v : Value)
    (numbers : Numbering) : Except Failure (String × Numbering) :=
  match style with
  | .placeholders =>
    let (name, numbers) := bindName column.column numbers
    .ok (":" ++ name, numbers)
  | .literals => (v.literal (v.typeBeside t)).map (·, numbers)
  | .marks => .ok ("?", numbers)

def memberText (style : SqlStyle) (t : ColumnType) (column : ColumnRef) (values : List Value)
    (negated : Bool) (numbers : Numbering) : Except Failure (String × Numbering) := do
  let wrap (inner after : String) : String :=
    if negated then "(" ++ column.sql ++ " NOT IN (" ++ inner ++ ")" ++ after ++ ")"
    else column.sql ++ " IN (" ++ inner ++ ")" ++ after
  match style with
  | .placeholders =>
    let (name, numbers) := bindName column.column numbers
    return (wrap ("__[POSTCOMPILE_" ++ name ++ "]") "", numbers)
  | .literals =>
    if values.isEmpty then
      return (wrap "NULL" (if negated then " OR (1 = 1)" else " AND (1 != 1)"), numbers)
    let written ← Value.literals (Value.listType t values) values
    return (wrap (String.intercalate ", " written) "", numbers)
  | .marks =>
    let inner :=
      if values.isEmpty then "SELECT 1 FROM (SELECT 1) WHERE 1!=1"
      else String.intercalate ", " (values.map fun _ => "?")
    return (wrap inner "", numbers)

/-- A truth in a comparison; the database itself knows only numbers. -/
def truthText (style : SqlStyle) (b : Bool) : String :=
  match style with
  | .marks => if b then "1" else "0"
  | _ => if b then "true" else "false"

def Test.sql (style : SqlStyle) (schema : Schema) (test : Test) (numbers : Numbering) :
    Except Failure (String × Numbering) := do
  let t := schema.columnType test.column.table test.column.column
  match test with
  | .compare column comparison (.bool b) =>
    return (column.sql ++ " " ++ comparison.symbol ++ " " ++ truthText style b, numbers)
  | .compare column comparison value =>
    let (v, numbers) ← bindText style t column value numbers
    return (column.sql ++ " " ++ comparison.symbol ++ " " ++ v, numbers)
  | .null column negated =>
    return (column.sql ++ (if negated then " IS NOT NULL" else " IS NULL"), numbers)
  | .between column low high negated =>
    let (l, numbers) ← bindText style t column low numbers
    let (h, numbers) ← bindText style t column high numbers
    return (column.sql ++ (if negated then " NOT BETWEEN " else " BETWEEN ") ++ l ++ " AND " ++ h,
      numbers)
  | .member column values negated => memberText style t column values negated numbers

def testsSql (style : SqlStyle) (schema : Schema) (numbers : Numbering) :
    List Test → Except Failure (List String × Numbering)
  | [] => .ok ([], numbers)
  | t :: ts => do
    let (s, numbers) ← t.sql style schema numbers
    let (rest, numbers) ← testsSql style schema numbers ts
    return (s :: rest, numbers)

/-- The elements of a `WHERE` list. Alternatives stand in parentheses when `grouped`. -/
def clausesSql (style : SqlStyle) (schema : Schema) (grouped : Bool) (numbers : Numbering) :
    List Clause → Except Failure (List String × Numbering)
  | [] => .ok ([], numbers)
  | c :: cs => do
    let (tests, numbers) ← testsSql style schema numbers c.tests
    let s := String.intercalate " OR " tests
    let (rest, numbers) ← clausesSql style schema grouped numbers cs
    return ((if grouped && 1 < tests.length then "(" ++ s ++ ")" else s) :: rest, numbers)

namespace Source

def isJoin : Source → Bool
  | table _ => false
  | join .. => true

def sql : Source → String
  | table t => identifier t.name
  | join left right on outer =>
    left.sql ++ (if outer then " LEFT OUTER JOIN " else " JOIN ") ++
      (if right.isJoin then "(" ++ right.sql ++ ")" else right.sql) ++ " ON " ++ on.left.sql ++
      " " ++ on.comparison.symbol ++ " " ++ on.right.sql

end Source

def labelText (style : SqlStyle) (label : String) : String :=
  if style = .marks && Sql.isReserved label then inQuotes '"' label else identifier label

def NamedOutput.sql (style : SqlStyle) (o : NamedOutput) : String :=
  let source :=
    match o.expr with
    | .column c => c.sql
    | .raw text => text
  match o.label with
  | some label => source ++ " AS " ++ labelText style label
  | none => source

/-- Items with a text before them and one between them; no items, no text. -/
def listed (lead separator : String) (items : List String) : String :=
  if items.isEmpty then "" else lead ++ String.intercalate separator items

namespace Select

def outputsSql (q : Select) (style : SqlStyle) : String :=
  String.intercalate ", " (q.named.1.map (·.sql style))

def restSql (q : Select) (style : SqlStyle) : Except Failure String := do
  let (clauses, _) ← clausesSql style q.schema (1 < q.clauses.length) q.named.2 q.clauses
  let tables := q.source.sql :: q.beside.map (identifier ·.name)
  return listed " \nFROM " ", " tables ++ listed " \nWHERE " " AND " clauses ++
    listed " ORDER BY " ", " (q.orders.map fun o => o.1.sql ++ " " ++ o.2.name)

def sql (q : Select) (style : SqlStyle) : Except Failure String := do
  return "SELECT " ++ q.outputsSql style ++ (← q.restSql style)

end Select

end Winnow
