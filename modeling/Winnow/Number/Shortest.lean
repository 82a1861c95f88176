import Winnow.Number.Binary64

namespace Winnow

/-- The number `0.d₁d₂… * 10 ^ point` for the decimal digits `d₁d₂…` of `digits`. -/
structure Digits where
  digits : List Char
  point : Int
  deriving DecidableEq, Repr

structure Fraction where
  num : Nat
  den : Nat
  deriving DecidableEq, Repr

namespace Fraction

def ofScaled (m : Nat) (e : Int) : Fraction :=
  if 0 ≤ e then ⟨m * twoTo e.toNat, 1⟩ else ⟨m, twoTo (-e).toNat⟩

def shift (v : Fraction) (k : Int) : Fraction :=
  if 0 ≤ k then ⟨v.num, v.den * tenTo k.toNat⟩ else ⟨v.num * tenTo (-k).toNat, v.den⟩

/-- The first `j` of `places` places after the start where `v * 10 ^ j` reaches one. -/
def leading (v : Fraction) : Nat → Nat → Nat
  | 0, j => j
  | places + 1, j => if v.den ≤ v.num * tenTo j then j else leading v places (j + 1)

def point (v : Fraction) : Int :=
  if v.den ≤ v.num then (Nat.toDigits 10 (v.num / v.den)).length
  else 1 - (v.leading 330 1 : Int)

def le (v w : Fraction) : Bool := v.num * w.den ≤ w.num * v.den

def lt (v w : Fraction) : Bool := v.num * w.den < w.num * v.den

end Fraction

/-- The digits of `n` counted in units of `10 ^ unit`, without zeros at the end. -/
def Digits.ofNat (n : Nat) (unit : Int) : Digits :=
  let all := Nat.toDigits 10 n
  ⟨(all.reverse.dropWhile (· == '0')).reverse, all.length + unit⟩

/-- The reals that round to one double, with or without their ends. -/
structure Interval where
  low : Fraction
  high : Fraction
  closed : Bool
  deriving DecidableEq, Repr

def Interval.holds (i : Interval) (v : Fraction) : Bool :=
  if i.closed then i.low.le v && v.le i.high else i.low.lt v && v.lt i.high

def Interval.of (m : Nat) (e : Int) : Interval where
  low :=
    Fraction.ofScaled (if m = twoTo 52 && leastExponent < e then 4 * m - 1 else 4 * m - 2) (e - 2)
  high := Fraction.ofScaled (4 * m + 2) (e - 2)
  closed := m % 2 = 0

/-- The multiple of `10 ^ unit` in `i` nearest to `v`, if there is one. -/
def nearestOn (i : Interval) (v : Fraction) (unit : Int) : Option Nat :=
  let w := v.shift unit
  let below := w.num / w.den
  let inside n := i.holds ((Fraction.mk n 1).shift (-unit))
  match inside below, inside (below + 1) with
  | true, true => some (roundHalfEven w.num w.den)
  | true, false => some below
  | false, true => some (below + 1)
  | false, false => none

/-- The first grid, from `count` digits on, with a point in the interval. -/
def shortestFrom (i : Interval) (v : Fraction) (point : Int) : Nat → Nat → Digits
  | 0, count => Digits.ofNat (v.shift (point - count)).num (point - count)
  | more + 1, count =>
    match nearestOn i v (point - count) with
    | some n => Digits.ofNat n (point - count)
    | none => shortestFrom i v point more (count + 1)

/-- The shortest digits that read back as `m * 2 ^ e`, the nearest of these. -/
def shortestDigits (m : Nat) (e : Int) : Digits :=
  let v := Fraction.ofScaled m e
  shortestFrom (Interval.of m e) v v.point 17 1

def roundedDigits (count : Nat) (m : Nat) (e : Int) : Digits :=
  let v := Fraction.ofScaled m e
  let w := v.shift (v.point - count)
  Digits.ofNat ((2 * w.num + w.den) / (2 * w.den)) (v.point - count)

structure NumberStyle where
  /-- The number of digits; `none` for the shortest that read back. -/
  significant : Option Nat
  /-- The point of the first number, going up, with an exponent. -/
  positionalBelow : Int
  /-- Whether one digit before an exponent is followed by `.0`. -/
  pointBeforeExponent : Bool
  infinity : String

def padded (n : Nat) : List Char :=
  if n < 10 then ['0', Nat.digitChar n] else Nat.toDigits 10 n

def NumberStyle.place (style : NumberStyle) (d : Digits) : List Char :=
  let zeros (n : Int) := List.replicate n.toNat '0'
  if d.point < -3 || style.positionalBelow ≤ d.point then
    let tail :=
      match d.digits.tail with
      | [] => if style.pointBeforeExponent then ['.', '0'] else []
      | rest => '.' :: rest
    let e := d.point - 1
    d.digits.take 1 ++ tail ++ ['e', if e < 0 then '-' else '+'] ++ padded e.natAbs
  else if d.point ≤ 0 then
    '0' :: '.' :: (zeros (-d.point) ++ d.digits)
  else if d.digits.length ≤ d.point then
    d.digits ++ zeros (d.point - d.digits.length) ++ ['.', '0']
  else
    d.digits.take d.point.toNat ++ '.' :: d.digits.drop d.point.toNat

def NumberStyle.write (style : NumberStyle) : Binary64 → String
  | .nan => "nan"
  | .infinite negative => (if negative then "-" else "") ++ style.infinity
  | .finite negative m e =>
    let sign := if negative then ['-'] else []
    let magnitude :=
      if m = 0 then ['0', '.', '0']
      else match style.significant with
        | none => style.place (shortestDigits m e)
        | some count => style.place (roundedDigits count m e)
    String.ofList (sign ++ magnitude)

/-- The fewest digits that read back, positional from `0.0001` to below `10 ^ 16`. -/
def plainStyle : NumberStyle := ⟨none, 17, false, "inf"⟩

def storedStyle : NumberStyle := ⟨some 15, 16, true, "Inf"⟩

end Winnow
