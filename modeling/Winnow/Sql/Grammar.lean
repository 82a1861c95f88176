import Winnow.Sql.Operation
import Winnow.Sql.Parse
import Winnow.Text.Percent

namespace Winnow.Sql

/-- The readers for nested expressions, whose operators bind at least that strongly, and queries.
-/
structure Nested where
  expr : Nat → Parse Expr
  query : Parse Query

namespace Grammar

open Parse

def orLevel : Nat := 1
def andLevel : Nat := 2
def notLevel : Nat := 3
def equalLevel : Nat := 4
def orderLevel : Nat := 5
def bitLevel : Nat := 7
def sumLevel : Nat := 8
def productLevel : Nat := 9
def concatLevel : Nat := 10
def collateLevel : Nat := 11
def signLevel : Nat := 12

def operators : List (String × Nat × Operator) :=
  [("=", equalLevel, .eq), ("==", equalLevel, .eq), ("!=", equalLevel, .ne),
    ("<>", equalLevel, .ne), ("<", orderLevel, .lt), ("<=", orderLevel, .le),
    (">", orderLevel, .gt), (">=", orderLevel, .ge), ("&", bitLevel, .bitAnd),
    ("|", bitLevel, .bitOr), ("<<", bitLevel, .shiftLeft), (">>", bitLevel, .shiftRight),
    ("+", sumLevel, .add), ("-", sumLevel, .subtract), ("*", productLevel, .multiply),
    ("/", productLevel, .divide), ("%", productLevel, .remainder), ("||", concatLevel, .concat),
    ("->", concatLevel, .extract), ("->>", concatLevel, .extractText)]

/-- The number that a token writes; whole numbers are kept as they are written. -/
def number (raw : String) : Expr :=
  if raw.toList.all Char.isDigit then .whole raw else .literal (.real (Numeral.ofText raw).real)

/-- The value of a number in hexadecimal digits, with a sign in 64 bits. -/
def hexNumber? (raw : String) : Option Int :=
  match raw.toList with
  | '0' :: x :: cs =>
    if x = 'x' || x = 'X' then
      let n : Int := cs.foldl (fun n c => 16 * n + (hexDigit? c).getD 0) 0
      some (if n < int64Bound then n else n - 2 * int64Bound)
    else none
  | _ => none

def atQuery : Parse Bool := do
  return (← atWord "select") || (← atWord "values") || (← atWord "with")

def path (first : String) : Parse (List String) := do
  if ← mark? "." then
    let second ← name
    if ← mark? "." then return [first, second, ← name]
    return [first, second]
  return [first]

def sortTerm (r : Nested) : Parse (Expr × Bool) := do
  let e ← r.expr 0
  let direction ← oneOf? ["asc", "desc"]
  if ← word? "nulls" then
    if (← oneOf? ["first", "last"]).isNone then refuse
  return (e, direction = some "desc")

/-- The rows that a call goes over: those with the same values, and their order. -/
def window (r : Nested) : Parse (List Expr × List (Expr × Bool)) := do
  let parts ← if ← word? "partition" then do word "by"; list (r.expr 0) else pure []
  let orders ← if ← word? "order" then do word "by"; list (sortTerm r) else pure []
  return (parts, orders)

/-- The arguments of a call, behind the opening parenthesis, and the filter after it. -/
def call (r : Nested) (function : String) : Parse Expr := do
  if ← mark? "*" then
    mark ")"
    return ← rest false true []
  let distinct ← word? "distinct"
  if !distinct then let _ ← word? "all"
  let args ← if ← atMark ")" then pure [] else list (r.expr 0)
  if ← word? "order" then
    word "by"
    let _ ← list (sortTerm r)
  mark ")"
  rest distinct false args
where
  rest (distinct star : Bool) (args : List Expr) : Parse Expr := do
    let test ← filter
    if (← atWord "over") && (← peekSecond) = some (.mark "(") then
      skip
      let (parts, orders) ← parens (window r)
      return .over function distinct args test parts orders
    return .call function distinct star args test
  filter : Parse (Option Expr) := do
    if (← atWord "filter") && (← peekSecond) = some (.mark "(") then
      skip
      return some (← parens do word "where"; r.expr 0)
    return none

def named (r : Nested) (s : String) (double : Bool) : Parse Expr := do
  skip
  if ← mark? "(" then call r s
  else return .name (← path s) double

/-- The name of a type, as far as it is written before the closing parenthesis. -/
def typeName : Parse String := do
  let names ← all do
    match (← peek).bind Token.name? with
    | some s => skip; return some s
    | none => return none
  if ← mark? "(" then
    let _ ← list signed
    mark ")"
  return String.intercalate " " names
where
  signed : Parse Unit := do
    if !(← mark? "-") then let _ ← mark? "+"
    match ← peek with
    | some (.number _) => skip
    | _ => refuse

def whenThen (r : Nested) : Parse (Option (Expr × Expr)) := do
  if ← word? "when" then
    let test ← r.expr 0
    word "then"
    return some (test, ← r.expr 0)
  return none

def cases (r : Nested) : Parse Expr := do
  let base ← if ← atWord "when" then pure none else some <$> r.expr 0
  let whens ← all (whenThen r)
  if whens.isEmpty then refuse
  let otherwise ← if ← word? "else" then some <$> r.expr 0 else pure none
  word "end"
  return .cases base whens otherwise

/-- What stands in parentheses: a query, an expression or a row of expressions. -/
def group (r : Nested) : Parse Expr := do
  mark "("
  let e ← if ← atQuery then Expr.scalar <$> r.query else do
    match ← list (r.expr 0) with
    | [e] => pure e
    | es => pure (.row es)
  mark ")"
  return e

def wordExpr (r : Nested) (s : String) : Parse Expr := do
  match small s with
  | "null" => skip; return .literal .null
  | "not" => skip; return .unary .not (← r.expr notLevel)
  | "case" => skip; cases r
  | "exists" => skip; return .exist (← parens r.query)
  | "cast" =>
    skip
    parens do
      let e ← r.expr 0
      word "as"
      return .cast e (← typeName)
  | small => if reservedWords.contains small then refuse else named r s false

def primary (r : Nested) : Parse Expr := do
  match ← peek with
  | some (.number raw) =>
    skip
    return match hexNumber? raw with
      | some n => .literal (.int n)
      | none => number raw
  | some (.text _ s) =>
    skip
    if ← atMark "." then return .name (← path s) false else return .literal (.text s)
  | some (.blob raw) => skip; return .blob raw
  | some (.parameter _) => skip; return .parameter
  | some (.quotedName _ s double) => named r s double
  | some (.word s) => wordExpr r s
  | some (.mark "(") => group r
  | some (.mark "-") => skip; return .unary .minus (← r.expr signLevel)
  | some (.mark "+") => skip; return .unary .plus (← r.expr signLevel)
  | some (.mark "~") => skip; return .unary .complement (← r.expr signLevel)
  | _ => refuse

def negatedIf (negated : Bool) (e : Expr) : Expr := if negated then .unary .not e else e

/-- The rest of a match with a pattern; the operator is a function of the pattern and the text. -/
def pattern (r : Nested) (e : Expr) (operator : String) (negated : Bool) : Parse Expr := do
  let p ← r.expr orderLevel
  let escape ← if ← word? "escape" then pure [← r.expr orderLevel] else pure []
  return negatedIf negated (.call operator false false (p :: e :: escape) none)

def between (r : Nested) (e : Expr) (negated : Bool) : Parse Expr := do
  let low ← r.expr notLevel
  word "and"
  return .between e low (← r.expr orderLevel) negated

def among (r : Nested) (e : Expr) (negated : Bool) : Parse Expr := do
  if ← atMark "(" then
    parens do
      if ← atQuery then return .inQuery e (← r.query) negated
      if ← atMark ")" then return .inList e [] negated
      return .inList e (← list (r.expr 0)) negated
  else
    let first ← name
    let (database, table) ←
      if ← mark? "." then do pure (some first, ← name) else pure (none, first)
    return .inQuery e
      (.select false [.all] [.mk {} (.table database table) none none []] none [] none) negated

def identity (r : Nested) (e : Expr) : Parse Expr := do
  let negated ← word? "not"
  let distinct ← word? "distinct"
  if distinct then word "from"
  return .binary (if negated = distinct then .is else .isNot) e (← r.expr orderLevel)

def test? (r : Nested) (e : Expr) (negated : Bool) : Parse (Option Expr) := do
  match ← peek with
  | some (.word s) =>
    if small s = "between" then skip; return some (← between r e negated)
    if small s = "in" then skip; return some (← among r e negated)
    if patternWords.contains (small s) then skip; return some (← pattern r e s negated)
    return none
  | _ => return none

/-- One more operator after an expression, if one of that strength at least follows. -/
def operator? (r : Nested) (level : Nat) (e : Expr) : Parse (Option Expr) := do
  let binary (strength : Nat) (o : Operator) : Parse (Option Expr) := do
    if strength < level then return none
    skip
    return some (.binary o e (← r.expr (strength + 1)))
  match ← peek with
  | some (.mark m) =>
    match operators.lookup m with
    | some (strength, o) => binary strength o
    | none => return none
  | some (.word s) =>
    match small s with
    | "or" => binary orLevel .or
    | "and" => binary andLevel .and
    | "collate" =>
      if collateLevel < level then return none
      skip
      return some (.collate e (← name))
    | small =>
      if equalLevel < level then return none
      match small with
      | "isnull" => skip; return some (.isNull e false)
      | "notnull" => skip; return some (.isNull e true)
      | "is" => skip; return some (← identity r e)
      | "not" =>
        skip
        if ← word? "null" then return some (.isNull e true)
        match ← test? r e true with
        | some e => return some e
        | none => refuse
      | _ => test? r e false
  | _ => return none

/-- All operators after an expression, at most as many as there are tokens. -/
def operatorsAfter (r : Nested) (level : Nat) : Nat → Expr → Parse Expr
  | 0, e => return e
  | fuel + 1, e => do
    match ← operator? r level e with
    | some e => operatorsAfter r level fuel e
    | none => return e

def expr (r : Nested) (level : Nat) : Parse Expr := do
  let e ← primary r
  operatorsAfter r level ((← get).length + 1) e

end Grammar

end Winnow.Sql
