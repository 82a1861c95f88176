import Winnow.Store.Binding
import Winnow.Text.Case

namespace Winnow

structure ColumnRef where
  table : String
  column : String
  deriving DecidableEq, Repr

inductive Comparison where
  | eq | ne | lt | le | gt | ge | like | notLike
  deriving DecidableEq, Repr

namespace Comparison

def ofLower? : String → Option Comparison
  | "=" => some eq
  | "!=" | "<>" => some ne
  | "<" => some lt
  | "<=" => some le
  | ">" => some gt
  | ">=" => some ge
  | "like" => some like
  | "not like" => some notLike
  | _ => none

def ofText? (operator : String) : Option Comparison := ofLower? (lower operator)

def symbol : Comparison → String
  | eq => "="
  | ne => "!="
  | lt => "<"
  | le => "<="
  | gt => ">"
  | ge => ">="
  | like => "LIKE"
  | notLike => "NOT LIKE"

def negate : Comparison → Comparison
  | eq => ne
  | ne => eq
  | lt => ge
  | ge => lt
  | gt => le
  | le => gt
  | like => notLike
  | notLike => like

end Comparison

inductive Test where
  | compare (column : ColumnRef) (comparison : Comparison) (value : Value)
  | null (column : ColumnRef) (negated : Bool)
  | between (column : ColumnRef) (low high : Value) (negated : Bool)
  | member (column : ColumnRef) (values : List Value) (negated : Bool)
  deriving Repr

namespace Test

/-- The test of a comparison. Null can only be equal or not, and so can true and false. -/
def ofComparison (column : ColumnRef) (comparison : Comparison) (value : Value) :
    Except Failure Test :=
  match value, comparison with
  | .null, .eq => .ok (null column false)
  | .null, .ne => .ok (null column true)
  | .bool _, .eq | .bool _, .ne => .ok (compare column comparison value)
  | .null, _ | .bool _, _ => .error .incomparable
  | _, _ => .ok (compare column comparison value)

def negate : Test → Test
  | compare column comparison value => compare column comparison.negate value
  | null column negated => null column !negated
  | between column low high negated => between column low high !negated
  | member column values negated => member column values !negated

def column : Test → ColumnRef
  | compare column _ _ | null column _ | between column _ _ _ | member column _ _ => column

/-- The values of a test of a column of type `t`, as they are bound. True and false are not bound
in a comparison. -/
def bindings (t : ColumnType) : Test → Bindings
  | compare _ _ (.bool _) | null .. => []
  | compare _ _ v => [(v.typeBeside t, v)]
  | between _ low high _ => [(low.typeBeside t, low), (high.typeBeside t, high)]
  | member _ values _ => values.map (Value.listType t values, ·)

end Test

/-- An element of a `WHERE` list: one test or one of several. -/
structure Clause where
  first : Test
  others : List Test := []
  deriving Repr

namespace Clause

def tests (c : Clause) : List Test := c.first :: c.others

def orElse (c : Clause) (t : Test) : Clause := { c with others := c.others ++ [t] }

end Clause

end Winnow
