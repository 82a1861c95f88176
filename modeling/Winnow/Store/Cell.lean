import Winnow.Text.Split
import Winnow.Value

namespace Winnow

inductive Cell where
  | null
  | int (n : Int)
  | real (x : Binary64)
  | text (s : String)
  deriving DecidableEq, Repr, Inhabited

inductive ColumnType where
  | int
  | str
  | float
  | bool
  | datetime
  deriving DecidableEq, Repr

namespace ColumnType

def ofName? : String → Option ColumnType
  | "int" => some int
  | "str" => some str
  | "float" => some float
  | "bool" => some bool
  | "datetime" => some datetime
  | _ => none

/-- Columns of texts turn numbers into text, all others turn texts into numbers where they can. -/
def isTextual (t : ColumnType) : Bool := t = str

end ColumnType

/-- Truth with an unknown: `none` is neither true nor false. -/
abbrev Truth := Option Bool

namespace Truth

def not : Truth → Truth := Option.map (!·)

def and : Truth → Truth → Truth
  | some false, _ => some false
  | _, some false => some false
  | some true, t => t
  | none, _ => none

def or : Truth → Truth → Truth
  | some true, _ => some true
  | _, some true => some true
  | some false, t => t
  | none, _ => none

def isTrue (t : Truth) : Bool := t = some true

theorem isTrue_and (s t : Truth) : (and s t).isTrue = (s.isTrue && t.isTrue) := by
  cases s with
  | none => cases t with
    | none => rfl
    | some b => cases b <;> rfl
  | some a => cases t with
    | none => cases a <;> rfl
    | some b => cases a <;> cases b <;> rfl

theorem isTrue_or (s t : Truth) : (or s t).isTrue = (s.isTrue || t.isTrue) := by
  cases s with
  | none => cases t with
    | none => rfl
    | some b => cases b <;> rfl
  | some a => cases t with
    | none => cases a <;> rfl
    | some b => cases a <;> cases b <;> rfl

end Truth

def digitsValue (cs : List Char) : Nat :=
  cs.foldl (fun n c => 10 * n + (c.toNat - '0'.toNat)) 0

def isInt64 (n : Int) : Bool := decide (-int64Bound ≤ n) && decide (n < int64Bound)

namespace Cell

def whole (x : Binary64) : Cell :=
  match x.toInt? with
  | some n => if -int64Bound < n ∧ n < int64Bound - 1 then int n else real x
  | none => real x

/-- The exponent of a number, and what follows it; a number without one has exponent zero. -/
def readExponent : List Char → Option (Bool × Int × List Char)
  | c :: cs =>
    if c = 'e' || c = 'E' then
      let (negative, cs) :=
        match cs with
        | '-' :: cs => (true, cs)
        | '+' :: cs => (false, cs)
        | cs => (false, cs)
      match cs.takeWhile Char.isDigit with
      | [] => none
      | ds =>
        let n : Int := digitsValue ds
        some (true, if negative then -n else n, cs.dropWhile Char.isDigit)
    else some (false, 0, c :: cs)
  | [] => some (false, 0, [])

def number? (s : String) : Option Cell :=
  let cs := s.toList.dropWhile isNumberBlank
  let (negative, cs) :=
    match cs with
    | '-' :: cs => (true, cs)
    | '+' :: cs => (false, cs)
    | cs => (false, cs)
  let wholePart := cs.takeWhile Char.isDigit
  let cs := cs.dropWhile Char.isDigit
  let (pointed, fraction, cs) :=
    match cs with
    | '.' :: cs => (true, cs.takeWhile Char.isDigit, cs.dropWhile Char.isDigit)
    | cs => (false, [], cs)
  if wholePart.isEmpty && fraction.isEmpty then none
  else match readExponent cs with
    | none => none
    | some (scaled, exponent, rest) =>
      if !rest.all isNumberBlank then none
      else
        let all := digitsValue (wholePart ++ fraction)
        let n : Int := if negative then -(all : Int) else all
        if !pointed && !scaled && isInt64 n then some (int n)
        else some (whole (Binary64.ofDecimal negative all (exponent - fraction.length)))

def text? : Cell → Option String
  | null => none
  | int n => some (toString n)
  | real (.finite negative m e) => some (storedStyle.write (.finite (negative && m != 0) m e))
  | real x => some (storedStyle.write x)
  | text s => some s

def numeric : Cell → Cell
  | text s => (number? s).getD (text s)
  | c => c

def textual (c : Cell) : Cell :=
  match c.text? with
  | some s => text s
  | none => null

def store (t : ColumnType) (c : Cell) : Cell :=
  if t.isTextual then c.textual
  else match c.numeric with
    | real x => if t = .float then real x else whole x
    | int n => if t = .float then real (Binary64.ofInt n) else int n
    | c => c

def compareNonNull : Cell → Cell → Ordering
  | int m, int n => compare m n
  | int m, real y => Binary64.compareInt m y
  | real x, int n => (Binary64.compareInt n x).swap
  | real x, real y => x.compare y
  | text s, text t => compareOfLessAndEq s t
  | text _, _ => .gt
  | _, _ => .lt

def order (a b : Cell) : Option Ordering :=
  if a = null ∨ b = null then none else some (compareNonNull a b)

/-- Whether the database takes two cells for the same. Null is the same as nothing. -/
def same (a b : Cell) : Bool := a.order b = some .eq

def sortOrder (a b : Cell) : Ordering :=
  match a, b with
  | null, null => .eq
  | null, _ => .lt
  | _, null => .gt
  | a, b => compareNonNull a b

def met (t : ColumnType) (c : Cell) : Cell :=
  if t.isTextual then c.textual else c.numeric

def moment? (s : String) : Option Moment :=
  let cs := s.toList
  let part (start count : Nat) : Nat := digitsValue ((cs.drop start).take count)
  if cs.length < 19 then none
  else
    let micro := (cs.drop 20).takeWhile Char.isDigit
    some { year := part 0 4, month := part 5 2, day := part 8 2, hour := part 11 2,
           minute := part 14 2, second := part 17 2,
           micro := digitsValue (micro ++ List.replicate (6 - micro.length) '0') }

def value : Cell → Value
  | null => .null
  | int n => .int n
  | real x => .real x
  | text s => .text s

def valueAs (t : ColumnType) (c : Cell) : Value :=
  match c with
  | text s =>
    if t = .datetime then
      match moment? s with
      | some m => .moment m
      | none => .text s
    else .text s
  | c => c.value

end Cell

end Winnow
