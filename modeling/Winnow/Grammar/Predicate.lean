import Winnow.Grammar.Condition

namespace Winnow

inductive FilterKind where
  | equal | notEqual
  | like | notLike
  | between | notBetween
  | oneOf | notOneOf
  | isNull | isNotNull
  | above | below
  | notAbove | notBelow
  deriving DecidableEq, Repr

namespace FilterKind

def all : List FilterKind :=
  [equal, notEqual, like, notLike, between, notBetween, oneOf, notOneOf, isNull, isNotNull,
    above, below, notAbove, notBelow]

def name : FilterKind → String
  | equal => "equal"
  | notEqual => "not_equal"
  | like => "like"
  | notLike => "not_like"
  | between => "between"
  | notBetween => "not_between"
  | oneOf => "in"
  | notOneOf => "not_in"
  | isNull => "is_null"
  | isNotNull => "is_not_null"
  | above => "upper"
  | below => "lower"
  | notAbove => "not_upper"
  | notBelow => "not_lower"

def ofName? (s : String) : Option FilterKind :=
  all.find? (·.name = s)

/-- The words of a filter expression for a kind, joined by underscores. -/
def keyword : FilterKind → String
  | isNotNull => "is_not-null"
  | kind => kind.name

end FilterKind

/-- What a condition asks of a column. A range has two operands, an absent bound being empty. -/
structure Predicate where
  column : String
  kind : FilterKind
  operands : List String := []
  deriving DecidableEq, Repr

namespace Predicate

/-- The two bounds of a range; a bound that is not written is empty. -/
def bounds (operand : String) : List String :=
  match splitAt ',' operand with
  | low :: high :: _ => [low, high]
  | [low] => [low, ""]
  | [] => ["", ""]

def plain? (keyword operand : String) : Option (FilterKind × List String) :=
  if operand = "" then none
  else match keyword with
    | "equal" => some (.equal, [operand])
    | "like" => some (.like, [operand])
    | "upper" => some (.above, [operand])
    | "lower" => some (.below, [operand])
    | "between" => some (.between, bounds operand)
    | "in" => some (.oneOf, splitAt ',' operand)
    | _ => none

def negated? (keyword operand : String) : Option (FilterKind × List String) :=
  if operand = "" then none
  else match keyword with
    | "equal" => some (.notEqual, [operand])
    | "like" => some (.notLike, [operand])
    | "upper" => some (.notAbove, [operand])
    | "lower" => some (.notBelow, [operand])
    | "between" => some (.notBetween, bounds operand)
    | "in" => some (.notOneOf, splitAt ',' operand)
    | _ => none

def null? : String → Option (FilterKind × List String)
  | "null" => some (.isNull, [])
  | "not-null" => some (.isNotNull, [])
  | _ => none

/-- The kind and the operands of a run of tokens; a token that is not there is empty. -/
def ofTokens? (tokens : List String) : Option (FilterKind × List String) :=
  let token i := tokens.getD i ""
  match token 0 with
  | "not" => negated? (token 1) (token 2)
  | "is" => null? (token 1)
  | keyword => plain? keyword (token 1)

def compile (column expression : String) : Option Predicate :=
  (ofTokens? (splitAt '_' expression)).map fun p => ⟨column, p.1, p.2⟩

def written (p : Predicate) : String :=
  match p.kind with
  | .isNull | .isNotNull => p.kind.keyword
  | kind => kind.keyword ++ "_" ++ String.intercalate "," p.operands

end Predicate

end Winnow
