import Winnow.Number.Integer
import Winnow.Number.Rounding
import Winnow.Failure

namespace Winnow

/-- A value, or all that is wrong with the input. -/
abbrev Checked (α : Type) := Except (List Problem) α

namespace Checked

def both {α β : Type} (a : Checked α) (b : Checked β) : Checked (α × β) :=
  match a, b with
  | .ok x, .ok y => .ok (x, y)
  | .error ps, .ok _ => .error ps
  | .ok _, .error qs => .error qs
  | .error ps, .error qs => .error (ps ++ qs)

def all {α : Type} : List (Checked α) → Checked (List α)
  | [] => .ok []
  | a :: rest => (both a (all rest)).map fun p => p.1 :: p.2

def fault {α : Type} (place : List Step) (rule : Rule) : Checked α := .error [⟨place, rule⟩]

def answer {α : Type} : Checked α → Except Failure α
  | .ok a => .ok a
  | .error problems => .error (.invalid problems)

end Checked

abbrev Reader (α : Type) := List Step → Value → Checked α

namespace Reader

open Checked

def string : Reader String
  | _, .text s => .ok s
  | place, _ => fault place .string

def optionalString : Reader (Option String)
  | _, .null => .ok none
  | place, v => (string place v).map some

def filledString : Reader String := fun place v =>
  match string place v with
  | .ok s => if s = "" then fault place .notEmpty else .ok s
  | .error ps => .error ps

def items {α : Type} (read : Reader α) (place : List Step) (values : List Value) :
    Checked (List α) :=
  all (values.mapIdx fun i v => read (place ++ [.index i]) v)

def list {α : Type} (read : Reader α) : Reader (List α)
  | place, .list values => items read place values
  | place, _ => fault place .list

def stringSet : Reader (List String)
  | place, .list values =>
    (items string place values).map fun all =>
      (all.mergeSort fun a b => !decide (b < a)).eraseDups
  | place, _ => fault place .set

def pair : Reader (String × String)
  | place, .list [a, b] => both (string (place ++ [.index 0]) a) (string (place ++ [.index 1]) b)
  | place, .list [a] =>
    both (string (place ++ [.index 0]) a) (fault (place ++ [.index 1]) .required)
  | place, .list [] =>
    both (fault (place ++ [.index 0]) .required) (fault (place ++ [.index 1]) .required)
  | place, .list values => fault place (.atMostTwo values.length)
  | place, _ => fault place .pair

def oneOf {α : Type} (name : α → String) (options : List α) : Reader α := fun place v =>
  let refused := fault place (.oneOf (options.map name))
  match v with
  | .text s => match options.find? (name · = s) with
    | some a => .ok a
    | none => refused
  | _ => refused

def integer : Reader Int
  | _, .bool b => .ok (if b then 1 else 0)
  | _, .int n => .ok n
  | place, .real (.infinite _) | place, .real .nan => fault place .finite
  | place, .real x =>
    match x.toInt? with
    | none => fault place .whole
    | some n => if -int64Bound < n ∧ n < int64Bound then .ok n else fault place .integerSize
  | place, .text s =>
    match readInteger s with
    | .ok n => .ok n
    | .error .tooLong => fault place .integerSize
    | .error .unreadable => fault place .integerText
  | place, _ => fault place .integer

def integerFrom (bound : Int) : Reader Int := fun place v =>
  match integer place v with
  | .ok n => if n < bound then fault place (.atLeast bound) else .ok n
  | .error ps => .error ps

def isYes (s : String) : Bool := ["1", "true", "t", "yes", "y", "on"].contains s

def isNo (s : String) : Bool := ["0", "false", "f", "no", "n", "off"].contains s

def integerBoolean (place : List Step) (n : Int) : Checked Bool :=
  if n = 1 then .ok true else if n = 0 then .ok false else fault place .booleanText

def boolean : Reader Bool
  | _, .bool b => .ok b
  | place, .int n =>
    if -int64Bound ≤ n ∧ n < int64Bound then integerBoolean place n else fault place .boolean
  | place, .real x =>
    match x.toInt? with
    | some n =>
      if -int64Bound < n ∧ n < int64Bound then integerBoolean place n else fault place .boolean
    | none => fault place .boolean
  | place, .text s =>
    let small := s.map Char.toLower
    if isYes small then .ok true else if isNo small then .ok false else fault place .booleanText
  | place, _ => fault place .boolean

def record : Reader (List (String × Value))
  | _, .record fields => .ok fields
  | place, _ => fault place .dictionary

def field {α : Type} (fields : List (String × Value)) (name : String) (default : Option α)
    (read : Reader α) (place : List Step := []) : Checked α :=
  match fields.lookup name, default with
  | some v, _ => read (place ++ [.field name]) v
  | none, some a => .ok a
  | none, none => fault (place ++ [.field name]) .required

end Reader

end Winnow
