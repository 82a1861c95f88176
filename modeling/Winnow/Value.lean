import Winnow.Number.Shortest
import Winnow.Text.Quoted

namespace Winnow

/-- A point in time; `zoned` when it names universal time. -/
structure Moment where
  year : Nat
  month : Nat
  day : Nat
  hour : Nat := 0
  minute : Nat := 0
  second : Nat := 0
  micro : Nat := 0
  zoned : Bool := false
  deriving DecidableEq, Repr

inductive Value where
  | null
  | bool (b : Bool)
  | int (n : Int)
  | real (x : Binary64)
  | text (s : String)
  | moment (m : Moment)
  | list (items : List Value)
  | record (fields : List (String × Value))
  deriving Repr, Inhabited

def digits (width n : Nat) : String :=
  let all := Nat.toDigits 10 n
  String.ofList (List.replicate (width - all.length) '0' ++ all)

namespace Moment

def date (m : Moment) : String :=
  digits 4 m.year ++ "-" ++ digits 2 m.month ++ "-" ++ digits 2 m.day

def clock (m : Moment) : String :=
  digits 2 m.hour ++ ":" ++ digits 2 m.minute ++ ":" ++ digits 2 m.second

/-- Date and clock around `gap`; microseconds and the zone only when there are any. -/
def spelled (gap : String) (m : Moment) : String :=
  m.date ++ gap ++ m.clock ++ (if m.micro = 0 then "" else "." ++ digits 6 m.micro) ++
    (if m.zoned then "+00:00" else "")

def stored (m : Moment) : String :=
  m.date ++ " " ++ m.clock ++ "." ++ digits 6 m.micro

end Moment

namespace Value

def kindName : Value → String
  | null => "NoneType"
  | bool _ => "bool"
  | int _ => "int"
  | real _ => "float"
  | text _ => "str"
  | moment _ => "datetime.datetime"
  | list _ => "list"
  | record _ => "dict"

/-- The elements of a list, the characters of a text or the keys of a record; any other value has
no elements. -/
def elements : Value → Except Value (List Value)
  | list items => .ok items
  | text s => .ok (s.toList.map fun c => text (String.singleton c))
  | record fields => .ok (fields.map fun field => text field.1)
  | v => .error v

def asTruthNumber? : Value → Option Int
  | bool b => some (if b then 1 else 0)
  | int n => some n
  | _ => none

def isKey : Value → Bool
  | list _ | record _ => false
  | _ => true

mutual

def shown : Value → String
  | null => "None"
  | bool b => if b then "True" else "False"
  | int n => toString n
  | real x => plainStyle.write x
  | text s => quoted s
  | moment m => quoted (m.spelled " ")
  | list items => "[" ++ String.intercalate ", " (shownAll items) ++ "]"
  | record fields => "\x7b" ++ String.intercalate ", " (shownFields fields) ++ "\x7d"

def shownAll : List Value → List String
  | [] => []
  | v :: vs => shown v :: shownAll vs

def shownFields : List (String × Value) → List String
  | [] => []
  | (key, v) :: fields => (quoted key ++ ": " ++ shown v) :: shownFields fields

end

end Value

end Winnow
