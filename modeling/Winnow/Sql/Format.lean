import Winnow.Number.Binary64
import Winnow.Sql.Operation
import Winnow.Text.Percent

namespace Winnow.Binary64

def inUnits (places : Nat) (m : Nat) (e : Int) : Nat :=
  if 0 ≤ e then m * twoTo e.toNat * tenTo places
  else
    let den := twoTo (-e).toNat
    (2 * m * tenTo places + den) / (2 * den)

/-- The digits of a number of units, with a point before the last `places`. -/
def placed (places units : Nat) : List Char :=
  let digits := Nat.toDigits 10 units
  let digits := List.replicate (places + 1 - digits.length) '0' ++ digits
  let whole := digits.take (digits.length - places)
  if places = 0 then whole else whole ++ '.' :: digits.drop whole.length

def rounded (places : Nat) : Binary64 → Binary64
  | finite s m e => ofDecimal s (inUnits places m e) (-(places : Int))
  | x => x

end Winnow.Binary64

namespace Winnow.Sql

structure FormatSpec where
  flags : List Char := []
  width : Nat := 0
  precision : Option Nat := none
  letter : Char

namespace FormatSpec

def has (s : FormatSpec) (flag : Char) : Bool := s.flags.contains flag

def filled (s : FormatSpec) (cs : List Char) : List Char :=
  let gap := List.replicate (s.width - cs.length) ' '
  if s.has '-' then cs ++ gap else gap ++ cs

/-- A sign and digits, with zeros between them if the flag asks for it. -/
def number (s : FormatSpec) (negative : Bool) (digits : List Char) : List Char :=
  let sign :=
    if negative then ['-'] else if s.has '+' then ['+'] else if s.has ' ' then [' '] else []
  let zeros :=
    if s.has '0' && !s.has '-' then
      List.replicate (s.width - sign.length - digits.length) '0'
    else []
  s.filled (sign ++ zeros ++ digits)

def digits (s : FormatSpec) (base n : Nat) : List Char :=
  let all := Nat.toDigits base n
  List.replicate (s.precision.getD 0 - all.length) '0' ++ all

def doubled (quote : Char) (cs : List Char) : List Char :=
  cs.flatMap fun c => if c = quote then [c, c] else [c]

/-- A double with the places that the precision says, six if it says none. -/
def places (s : FormatSpec) (x : Binary64) : List Char :=
  match x with
  | .finite negative m e =>
    let n := s.precision.getD 6
    s.number (negative && m != 0) (Binary64.placed n (Binary64.inUnits n m e))
  | .infinite negative => s.number negative "Inf".toList
  | .nan => s.filled "NaN".toList

def write (s : FormatSpec) (c : Cell) : Option (List Char) :=
  let text := (c.text?.getD "").toList
  let cut := match s.precision with
    | some n => text.take n
    | none => text
  match s.letter with
  | 'd' | 'i' => some (s.number (c.toInteger < 0) (s.digits 10 c.toInteger.natAbs))
  | 'u' => some (s.number false (s.digits 10 (bits c.toInteger)))
  | 'x' => some (s.number false (s.digits 16 (bits c.toInteger)))
  | 'X' => some (s.number false ((s.digits 16 (bits c.toInteger)).map Char.toUpper))
  | 'o' => some (s.number false (s.digits 8 (bits c.toInteger)))
  | 'f' => some (s.places c.toReal)
  | 's' | 'z' => some (s.filled cut)
  | 'c' => some (s.filled (text.take 1))
  | 'q' => some (s.filled (if c = .null then "(NULL)".toList else doubled '\'' cut))
  | 'Q' =>
    some (s.filled (if c = .null then "NULL".toList else '\'' :: doubled '\'' cut ++ ['\'']))
  | 'w' => some (s.filled (if c = .null then "(NULL)".toList else doubled '"' cut))
  | _ => none

end FormatSpec

namespace Format

def flagChars : List Char := ['-', '+', ' ', '#', '!', '0', ',']

def amount (cs : List Char) (args : List Cell) : Option Int × List Char × List Cell :=
  match cs with
  | '*' :: rest => (some (args.head?.getD .null).toInteger, rest, args.drop 1)
  | cs =>
    let ds := cs.takeWhile Char.isDigit
    (if ds.isEmpty then none else some (digitsValue ds), cs.drop ds.length, args)

def spec (cs : List Char) (args : List Cell) : Option (FormatSpec × List Char × List Cell) :=
  let flags := cs.takeWhile flagChars.contains
  let (width, cs, args) := amount (cs.drop flags.length) args
  let (precision, cs, args) := match cs with
    | '.' :: rest =>
      let (n, cs, args) := amount rest args
      (some (n.getD 0).natAbs, cs, args)
    | cs => (none, cs, args)
  match cs.dropWhile (· = 'l') with
  | [] => none
  | letter :: rest =>
    let width := width.getD 0
    let flags := if width < 0 then '-' :: flags else flags
    let precision := precision.map (min 1000 ·)
    some ({ flags, width := min width.natAbs 1000, precision, letter }, rest, args)

/-- A format with its arguments; it ends at a letter that means nothing. -/
def run : Nat → List Char → List Cell → List Char
  | 0, _, _ => []
  | _ + 1, [], _ => []
  | fuel + 1, '%' :: cs, args =>
    match cs with
    | [] => ['%']
    | '%' :: rest => '%' :: run fuel rest args
    | cs =>
      match spec cs args with
      | none => []
      | some (s, rest, args) =>
        match s.write (args.head?.getD .null) with
        | some written => written ++ run fuel rest (args.drop 1)
        | none => []
  | fuel + 1, c :: cs, args => c :: run fuel cs args

end Format

def formatted (format : String) (args : List Cell) : String :=
  String.ofList (Format.run (format.length + 1) format.toList args)

end Winnow.Sql
