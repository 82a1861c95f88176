import Winnow.Failure
import Winnow.Number.Typed
import Winnow.Store.Cell

namespace Winnow

namespace Value

/-- The type of a value beside a column: its own. Null, lists and records take the column's. -/
def typeBeside (column : ColumnType) : Value → ColumnType
  | bool _ => .bool
  | int _ => .int
  | real _ => .float
  | text _ => .str
  | moment _ => .datetime
  | null | list _ | record _ => column

/-- The type of all values of a list beside a column: that of the first one. -/
def listType (column : ColumnType) : List Value → ColumnType
  | [] => column
  | v :: _ => v.typeBeside column

def asReal? : Value → Option Binary64
  | bool b => some (Binary64.ofInt (if b then 1 else 0))
  | int n =>
    match Binary64.ofInt n with
    | .infinite _ => none
    | x => some x
  | real x => some x
  | text s => typedReal? s
  | _ => none

def asInteger? : Value → Option Int
  | bool b => some (if b then 1 else 0)
  | int n => some n
  | real x => x.truncated?
  | text s => if mostDigits < typedSize s then none else typedInteger? s
  | _ => none

/-- The truth that a value is taken for: only zero and one are truths. -/
def asTruth? : Value → Option Bool
  | bool b => some b
  | int n => if n = 0 then some false else if n = 1 then some true else none
  | real x =>
    match x.toInt? with
    | some n => if n = 0 then some false else if n = 1 then some true else none
    | none => none
  | _ => none

def passed? (t : ColumnType) (v : Value) : Option Value :=
  match v, t with
  | null, _ => some null
  | moment m, .datetime => some (text m.stored)
  | _, .datetime => none
  | v, .float => v.asReal?.map real
  | v, .bool => v.asTruth?.map bool
  | moment m, _ => some (text (m.spelled " "))
  | v, _ => some v

def checkPassed (t : ColumnType) (v : Value) : Except Failure Unit :=
  if (v.passed? t).isSome then .ok () else .error .unconvertible

def checkStorable : Value → Except Failure Unit
  | int n => if isInt64 n then .ok () else .error .integerTooLarge
  | list _ | record _ => .error .unstorable
  | _ => .ok ()

end Value

/-- Values with the types under which they are bound. -/
abbrev Bindings := List (ColumnType × Value)

namespace Bindings

def checkPassed : Bindings → Except Failure Unit
  | [] => .ok ()
  | (t, v) :: rest => do v.checkPassed t; checkPassed rest

def checkStorable : Bindings → Except Failure Unit
  | [] => .ok ()
  | (_, v) :: rest => do v.checkStorable; checkStorable rest

end Bindings

namespace Cell

def ofPassed : Value → Cell
  | .bool b => int (if b then 1 else 0)
  | .int n => int n
  | .real x => if x = .nan then null else real x
  | .text s => text s
  | .null | .moment _ | .list _ | .record _ => null

def ofValue (t : ColumnType) (v : Value) : Cell := ((v.passed? t).map ofPassed).getD null

end Cell

end Winnow
