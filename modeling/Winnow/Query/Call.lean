import Winnow.Relation.Basic

namespace Winnow

inductive Call where
  | filter (column operator : String) (value : Value)
  | orFilter (column operator : String) (value : Value)
  | filterNot (column operator : String) (value : Value)
  /-- What is listed may be a value without elements. -/
  | filterIn (column : String) (values : Except Value (List Value))
  | filterNotIn (column : String) (values : Except Value (List Value))
  | filterNull (column : String)
  | filterNotNull (column : String)
  | filterBetween (column : String) (bounds : Except Value (List Value))
  | filterNotBetween (column : String) (bounds : Except Value (List Value))
  /-- The join type may be a value that names none. -/
  | join (table first operator second : String) (joinKind : Except Value JoinKind)
  | select (entries : List String)
  | orderBy (column direction : String)

namespace Call

def name : Call → String
  | filter .. => "where"
  | orFilter .. => "or_where"
  | filterNot .. => "where_not"
  | filterIn .. => "where_in"
  | filterNotIn .. => "where_not_in"
  | filterNull _ => "where_null"
  | filterNotNull _ => "where_not_null"
  | filterBetween .. => "where_between"
  | filterNotBetween .. => "where_not_between"
  | join .. => "join"
  | select _ => "select"
  | orderBy .. => "order_by"

end Call

/-- A query that accepts calls. A call that fails may leave the query changed. -/
class QueryTarget (Q : Type) where
  call : Call → EStateM Failure Q Unit

/-- A query that keeps the calls it received. It refuses those with a name in `refused`, after
taking them down. -/
structure Recorder where
  calls : List Call := []
  refused : List String := []

instance : QueryTarget Recorder where
  call c := fun r =>
    let r := { r with calls := r.calls ++ [c] }
    if r.refused.contains c.name then .error (.refusedCall c.name) r else .ok () r

def JoinKind.ofValue : Value → Except Value JoinKind
  | .text s => match ofName? s with
    | some joinKind => .ok joinKind
    | none => .error (.text s)
  | v => .error v

end Winnow
