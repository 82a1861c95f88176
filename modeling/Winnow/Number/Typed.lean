import Winnow.Number.Binary64
import Winnow.Number.Integer

namespace Winnow

/-- The zeros of the runs of decimal digits beyond ASCII, in ascending order. -/
def digitZeros : List Nat := [
  0x660, 0x6F0, 0x7C0, 0x966, 0x9E6, 0xA66, 0xAE6, 0xB66, 0xBE6, 0xC66, 0xCE6, 0xD66, 0xDE6,
  0xE50, 0xED0, 0xF20, 0x1040, 0x1090, 0x17E0, 0x1810, 0x1946, 0x19D0, 0x1A80, 0x1A90, 0x1B50,
  0x1BB0, 0x1C40, 0x1C50, 0xA620, 0xA8D0, 0xA900, 0xA9D0, 0xA9F0, 0xAA50, 0xABF0, 0xFF10,
  0x104A0, 0x10D30, 0x11066, 0x110F0, 0x11136, 0x111D0, 0x112F0, 0x11450, 0x114D0, 0x11650,
  0x116C0, 0x11730, 0x118E0, 0x11950, 0x11C50, 0x11D50, 0x11DA0, 0x16A60, 0x16AC0, 0x16B50,
  0x1D7CE, 0x1D7D8, 0x1D7E2, 0x1D7EC, 0x1D7F6, 0x1E140, 0x1E2F0, 0x1E950, 0x1FBF0]

def decimalDigit? (c : Char) : Option Nat :=
  if c.isDigit then some (c.toNat - '0'.toNat)
  else (digitZeros.find? fun first => first ≤ c.toNat && c.toNat < first + 10).map (c.toNat - ·)

/-- A decimal digit as a digit of ASCII and a blank beyond ASCII as a space; any other character
beyond ASCII becomes one that no number holds. -/
def plainChar (c : Char) : Char :=
  if c.toNat < 0x80 then c
  else match decimalDigit? c with
    | some d => Nat.digitChar d
    | none => if isBlank c then ' ' else '?'

/-- A typed number in characters of ASCII, without the blanks around it. -/
def typedChars (text : String) : List Char := trimOf isNumberBlank (text.toList.map plainChar)

/-- The digits and single underscores of a number, without the underscores. -/
def typedDigits? (cs : List Char) : Option (List Char) :=
  (dropUnderscores cs).filter fun ds => !ds.isEmpty && ds.all Char.isDigit

def typedInteger? (text : String) : Option Int :=
  let (negative, body) := readSign (typedChars text)
  ((typedDigits? body).bind (natOfDigits 0)).map fun n => if negative then -(n : Int) else n

/-- The number of digits that a text starts with after its sign. Digits with misplaced underscores
do not count. -/
def typedSize (text : String) : Nat :=
  let body := (readSign (typedChars text)).2
  ((dropUnderscores (body.takeWhile fun c => c.isDigit || c = '_')).getD []).length

/-- The digits of a number before its exponent, and how many of them stand behind the point:
digits, a point and digits, with one digit at least. -/
def typedMantissa? (cs : List Char) : Option (List Char × Nat) :=
  let part (ds : List Char) : Option (List Char) := if ds.isEmpty then some [] else typedDigits? ds
  match cs.dropWhile (· != '.') with
  | '.' :: fraction => do
    let whole ← part (cs.takeWhile (· != '.'))
    let fraction ← part fraction
    if whole.isEmpty && fraction.isEmpty then none
    return (whole ++ fraction, fraction.length)
  | _ => (typedDigits? cs).map (·, 0)

def typedExponent? : List Char → Option Int
  | 'e' :: cs => do
    let (negative, body) := readSign cs
    let n ← natOfDigits 0 (← typedDigits? body)
    return if negative then -(n : Int) else n
  | _ => some 0

/-- The real number that a text types; infinities and the value that is no number are among
them. -/
def typedReal? (text : String) : Option Binary64 :=
  let (negative, cs) := readSign (typedChars text)
  let body := cs.map Char.toLower
  if body = "inf".toList || body = "infinity".toList then some (.infinite negative)
  else if body = "nan".toList then some .nan
  else do
    let (ds, places) ← typedMantissa? (body.takeWhile (· != 'e'))
    let exponent ← typedExponent? (body.dropWhile (· != 'e'))
    return Binary64.ofDecimal negative (← natOfDigits 0 ds) (exponent - places)

end Winnow
