import Winnow.Text.Split

namespace Winnow

def natOfDigits (n : Nat) : List Char → Option Nat
  | [] => some n
  | c :: cs => if c.isDigit then natOfDigits (10 * n + (c.toNat - '0'.toNat)) cs else none

def readSign : List Char → Bool × List Char
  | '-' :: cs => (true, cs)
  | '+' :: cs => (false, cs)
  | cs => (false, cs)

inductive IntegerFault where
  | unreadable
  | tooLong
  deriving DecidableEq, Repr

def mostDigits : Nat := 4300

/-- Reads an integer that is written plainly. Too many digits are noticed before what follows
them. -/
def readPlain (cs : List Char) : Except IntegerFault Int :=
  let (negative, body) :=
    match cs with
    | '-' :: rest => (true, rest)
    | _ => (false, cs)
  let ds := body.takeWhile Char.isDigit
  if ds.isEmpty || (ds.head? = some '0' && 1 < ds.length) then .error .unreadable
  else if mostDigits < ds.length then .error .tooLong
  else match natOfDigits 0 body with
    | some n => .ok (if negative then -(n : Int) else n)
    | none => .error .unreadable

/-- Drops zeros, and underscores after them, from the start: up to a digit or a minus sign, but not
beyond the last character or the one before a point. -/
def dropZeros (last : Char) : List Char → Option (List Char)
  | [] => some [last]
  | c :: cs =>
    if c = '0' || c = '_' then dropZeros c cs
    else if c.isDigit || c = '-' then some (c :: cs)
    else if c = '.' then some (last :: c :: cs)
    else none

/-- A number starts with a digit or a minus sign; zeros at its start are dropped. -/
def dropLeadingZeros : List Char → Option (List Char)
  | '0' :: cs => dropZeros '0' cs
  | c :: cs => if c.isDigit || c = '-' then some (c :: cs) else none
  | [] => none

def dropZeroFraction (cs : List Char) : List Char :=
  let whole := cs.takeWhile (· != '.')
  match cs.dropWhile (· != '.') with
  | '.' :: z :: zeros => if (z :: zeros).all (· == '0') then whole else cs
  | _ => cs

/-- Drops single underscores; they stand neither at an end nor side by side. -/
def dropUnderscores (cs : List Char) : Option (List Char) :=
  let isDouble (pair : Char × Char) : Bool := pair.1 = '_' && pair.2 = '_'
  if cs.head? = some '_' || cs.getLast? = some '_' || (cs.zip cs.tail).any isDouble then none
  else some (cs.filter (· != '_'))

def dropSign : List Char → Option (Bool × List Char)
  | '+' :: '-' :: _ => none
  | cs => some (readSign cs)

def cleanedNumber? (cs : List Char) : Option (List Char) := do
  let (negative, body) ← dropSign (trimOf isSpace cs)
  let plain ← dropUnderscores (dropZeroFraction (← dropLeadingZeros body))
  return if negative then '-' :: plain else plain

/-- The integer that a text writes. Too many digits are told apart only where the text is plain as
it stands. -/
def readInteger (text : String) : Except IntegerFault Int :=
  match readPlain text.toList with
  | .error .unreadable =>
    match cleanedNumber? text.toList with
    | some cs => (readPlain cs).mapError fun _ => .unreadable
    | none => .error .unreadable
  | answer => answer

end Winnow
