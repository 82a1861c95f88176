import Winnow.Number.Arithmetic
import Winnow.Sql.Expr
import Winnow.Sql.Scope
import Winnow.Text.Split

namespace Winnow.Sql

structure Numeral where
  negative : Bool
  whole : List Char
  fraction : List Char
  exponent : Int
  /-- Whether there is neither a point nor an exponent. -/
  plain : Bool

def clampInt64 (n : Int) : Int := max (-int64Bound) (min (int64Bound - 1) n)

namespace Numeral

def ofText (s : String) : Numeral :=
  let cs := s.toList.dropWhile isNumberBlank
  let negative := cs.head? = some '-'
  let cs := if negative || cs.head? = some '+' then cs.drop 1 else cs
  let whole := cs.takeWhile Char.isDigit
  let cs := cs.drop whole.length
  let (pointed, fraction, cs) :=
    match cs with
    | '.' :: cs => (true, cs.takeWhile Char.isDigit, cs.dropWhile Char.isDigit)
    | cs => (false, [], cs)
  let (scaled, exponent) :=
    match Cell.readExponent cs with
    | some (scaled, exponent, _) => (scaled, exponent)
    | none => (false, 0)
  if whole.isEmpty && fraction.isEmpty then ⟨negative, [], [], 0, true⟩
  else ⟨negative, whole, fraction, exponent, !pointed && !scaled⟩

def real (n : Numeral) : Binary64 :=
  Binary64.ofDecimal n.negative (digitsValue (n.whole ++ n.fraction))
    (n.exponent - n.fraction.length)

def integer (n : Numeral) : Int := Binary64.signed n.negative (digitsValue n.whole)

end Numeral

end Winnow.Sql

namespace Winnow.Cell

open Sql

def toReal : Cell → Binary64
  | null => Binary64.zero
  | int n => Binary64.ofInt n
  | real x => x
  | text s => (Numeral.ofText s).real

def toInteger : Cell → Int
  | null => 0
  | int n => n
  | real x =>
    match x.truncated? with
    | some n => clampInt64 n
    | none => if x.isNegative then -int64Bound else if x = .nan then 0 else int64Bound - 1
  | text s => clampInt64 (Numeral.ofText s).integer

def toNumber : Cell → Cell
  | text s =>
    let n := Numeral.ofText s
    if n.plain && isInt64 n.integer then int n.integer else real n.real
  | c => c

def ofReal (x : Binary64) : Cell := if x = .nan then null else real x

def ofTruth : Truth → Cell
  | some b => int (if b then 1 else 0)
  | none => null

def truth : Cell → Truth
  | null => none
  | int n => some (n != 0)
  | c => some (!c.toReal.isZero)

def kind : Cell → String
  | null => "null"
  | int _ => "integer"
  | real _ => "real"
  | text _ => "text"

def isText : Cell → Bool
  | text _ => true
  | _ => false

end Winnow.Cell

namespace Winnow.Sql

inductive Collation where
  | binary
  /-- Letters of ASCII count in either case. -/
  | nocase
  /-- Spaces at the end do not count. -/
  | rtrim
  deriving DecidableEq, Repr

namespace Collation

def ofName? (s : String) : Option Collation :=
  match small s with
  | "binary" => some binary
  | "nocase" => some nocase
  | "rtrim" => some rtrim
  | _ => none

/-- The form of a cell whose texts are compared character by character. -/
def key : Collation → Cell → Cell
  | nocase, .text s => .text (small s)
  | rtrim, .text s => .text (String.ofList (s.toList.reverse.dropWhile (· = ' ')).reverse)
  | _, c => c

end Collation

namespace Affinity

def meet : Affinity → Affinity → Affinity
  | none, b => b
  | a, none => a
  | text, text => none
  | _, _ => number

def apply : Affinity → Cell → Cell
  | none, c => c
  | text, c => c.textual
  | number, c => c.numeric

end Affinity

/-- The order of two cells that meet with an affinity, unknown when one is null. Numbers become
texts only beside a text. -/
def orderWith (meeting : Affinity) (order : Collation) (a b : Cell) : Option Ordering :=
  let apply (c : Cell) : Cell :=
    if meeting = .text && !(a.isText || b.isText) then c else meeting.apply c
  (order.key (apply a)).order (order.key (apply b))

/-- The sum, difference or product of two integers, as a double if it is too large. -/
def fitted (exact : Int) (otherwise : Binary64) : Cell :=
  if isInt64 exact then .int exact else Cell.ofReal otherwise

def arithmetic (o : Operator) (a b : Cell) : Cell :=
  let x := a.toReal
  let y := b.toReal
  match o, a.toNumber, b.toNumber with
  | .add, .int m, .int n => fitted (m + n) (x.add y)
  | .subtract, .int m, .int n => fitted (m - n) (x.sub y)
  | .multiply, .int m, .int n => fitted (m * n) (x.mul y)
  | .divide, .int m, .int n => if n = 0 then .null else fitted (m.tdiv n) (x.div y)
  | .remainder, .int m, .int n => if n = 0 then .null else .int (m.tmod n)
  | .add, _, _ => Cell.ofReal (x.add y)
  | .subtract, _, _ => Cell.ofReal (x.sub y)
  | .multiply, _, _ => Cell.ofReal (x.mul y)
  | .divide, _, _ => if y.isZero then .null else Cell.ofReal (x.div y)
  | .remainder, _, _ =>
    let n := b.toInteger
    if n = 0 then .null else Cell.ofReal (Binary64.ofInt (a.toInteger.tmod n))
  | _, _, _ => .null

def bits (n : Int) : Nat := (n % (2 * int64Bound)).toNat

def ofBits (w : Nat) : Int := if (w : Int) < int64Bound then w else w - 2 * int64Bound

/-- A shift to the left; one by a negative number goes to the right and keeps the sign. -/
def shifted (n amount : Int) : Int :=
  if 0 ≤ amount then
    if 64 ≤ amount then 0 else ofBits ((bits n * twoTo amount.toNat) % (2 * int64Bound).toNat)
  else if amount ≤ -64 then (if n < 0 then -1 else 0)
  else Int.fdiv n (twoTo (-amount).toNat)

def bitwise (o : Operator) (m n : Int) : Int :=
  match o with
  | .bitAnd => ofBits (bits m &&& bits n)
  | .bitOr => ofBits (bits m ||| bits n)
  | .shiftLeft => shifted m n
  | .shiftRight => shifted m (-n)
  | _ => 0

/-- An operator on two cells, apart from comparisons and connectives. -/
def operate (o : Operator) (a b : Cell) : Cell :=
  if a = .null || b = .null then .null
  else match o with
    | .add | .subtract | .multiply | .divide | .remainder => arithmetic o a b
    | .bitAnd | .bitOr | .shiftLeft | .shiftRight => .int (bitwise o a.toInteger b.toInteger)
    | .concat => .text ((a.text?.getD "") ++ (b.text?.getD ""))
    | _ => .null

def admitted (o : Operator) (order : Ordering) : Bool :=
  match o with
  | .eq | .is => order == .eq
  | .ne | .isNot => order != .eq
  | .lt => order == .lt
  | .le => order != .gt
  | .gt => order == .gt
  | .ge => order != .lt
  | _ => false

/-- Whether a comparison holds; those with the word `IS` also compare null. -/
def comparison (o : Operator) (meeting : Affinity) (order : Collation) (a b : Cell) : Truth :=
  let same := a = .null && b = .null
  match o, orderWith meeting order a b with
  | .is, none => some same
  | .isNot, none => some !same
  | o, some ordering => some (admitted o ordering)
  | _, none => none

def unary (o : Unary) (c : Cell) : Cell :=
  match o with
  | .plus => c
  | .minus => operate .subtract (.int 0) c
  | .complement => if c = .null then .null else .int (-1 - c.toInteger)
  | .not => Cell.ofTruth c.truth.not

def castTo (type : String) (c : Cell) : Cell :=
  let holds (piece : String) : Bool := occursIn piece (small type)
  if c = .null then .null
  else if holds "int" then .int c.toInteger
  else if holds "char" || holds "clob" || holds "text" then c.textual
  else if holds "blob" || type = "" then c.textual
  else if holds "real" || holds "floa" || holds "doub" then .real c.toReal
  else match c with
    | .text _ =>
      match c.toNumber with
      | .real x => Cell.whole x
      | n => n
    | c => c

end Winnow.Sql
