import Winnow.Input.Checked
import Winnow.Grammar.Order
import Winnow.Grammar.Predicate
import Winnow.Relation.Basic

namespace Winnow

open Checked Reader

def Condition.read (fields : List (String × Value)) : Checked Condition :=
  (both (field fields "column" none string) (field fields "expr" none string)).map fun p =>
    ⟨p.1, p.2⟩

def Predicate.read (fields : List (String × Value)) : Checked Predicate :=
  (both (field fields "column" none string)
    (both (field fields "kind" none (oneOf FilterKind.name FilterKind.all))
      (field fields "operands" (some []) (Reader.list string)))).map fun p =>
    ⟨p.1, p.2.1, p.2.2⟩

def Order.read (fields : List (String × Value)) : Checked Order :=
  (both (field fields "column" none string)
    (field fields "direction" (some .ascending)
      (oneOf Direction.name [.ascending, .descending]))).map fun p => ⟨p.1, p.2⟩

/-- Whether two keys are the same: numbers are by their value, and true and false are numbers. -/
def isSameKey (a b : Value) : Bool :=
  match a, b with
  | .text s, .text t => s = t
  | .null, .null => true
  | .moment m, .moment n => m = n
  | .real x, .real y => x.compare y == .eq && x != .nan
  | .real x, b => b.asTruthNumber?.any fun n => Binary64.compareInt n x == .eq
  | a, .real y => a.asTruthNumber?.any fun n => Binary64.compareInt n y == .eq
  | a, b =>
    match a.asTruthNumber?, b.asTruthNumber? with
    | some m, some n => m = n
    | _, _ => false

def putKey (key value : Value) : List (Value × Value) → List (Value × Value)
  | [] => [(key, value)]
  | (k, v) :: rest =>
    if isSameKey k key then (k, value) :: rest else (k, v) :: putKey key value rest

def mapEntries : List (Value × Value) → List (Value × Value) → Except Failure (List (Value × Value))
  | entries, [] => .ok entries
  | entries, (key, value) :: rest =>
    if key.isKey then mapEntries (putKey key value entries) rest
    else .error (.unnameable key.kindName)

/-- The chain of a relation: pairs, or a record with the left side as the key. -/
def readChain : Reader (List (String × String)) := fun place v =>
  match v with
  | .record fields =>
    Reader.list pair place (.list (fields.map fun f => .list [.text f.1, f.2]))
  | v => Reader.list pair place v

def readJoinKind : Reader JoinKind := fun place v =>
  match v with
  | .text s => oneOf JoinKind.name JoinKind.all place (.text (lower s))
  | v => oneOf JoinKind.name JoinKind.all place v

def Relation.read (fields : List (String × Value)) : Checked Relation :=
  (both (field fields "chain" (some []) readChain)
    (both (field fields "select" (some []) (Reader.list string))
      (both (field fields "filterable" (some []) stringSet)
        (both (field fields "sortable" (some []) stringSet)
          (both (field fields "soft_delete" (some []) stringSet)
            (field fields "join_type" (some .inner) readJoinKind)))))).map fun p =>
    ⟨p.1, p.2.1, p.2.2.1, p.2.2.2.1, p.2.2.2.2.1, p.2.2.2.2.2⟩

end Winnow
