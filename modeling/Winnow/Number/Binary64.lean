import Winnow.Number.Rounding

namespace Winnow

/-- A double: `finite negative m e` is `m * 2 ^ e`, or its negative, and `nan` is no number. -/
inductive Binary64 where
  | finite (negative : Bool) (mantissa : Nat) (exponent : Int)
  | infinite (negative : Bool)
  | nan
  deriving DecidableEq, Repr

namespace Binary64

def zero : Binary64 := finite false 0 leastExponent

def ofRatio (negative : Bool) (num den : Nat) : Binary64 :=
  let (m, e) := roundRatio num den
  if e < overflowExponent then finite negative m e else infinite negative

def ofDecimal (negative : Bool) (digits : Nat) (exponent : Int) : Binary64 :=
  if digits = 0 then finite negative 0 leastExponent
  else
    let size : Int := exponent + (Nat.toDigits 10 digits).length
    if 310 < size then infinite negative
    else if size < -325 then finite negative 0 leastExponent
    else if 0 ≤ exponent then ofRatio negative (digits * tenTo exponent.toNat) 1
    else ofRatio negative digits (tenTo (-exponent).toNat)

def ofInt (n : Int) : Binary64 :=
  ofRatio (n < 0) n.natAbs 1

def compareScaled (a : Int) (d : Int) (b : Int) (e : Int) : Ordering :=
  let least := min d e
  compare (a * twoTo (d - least).toNat) (b * twoTo (e - least).toNat)

def signed (negative : Bool) (m : Nat) : Int :=
  if negative then -(m : Int) else m

/-- The order of the values, `nan` before all numbers; the two zeros are equal. -/
protected def compare : Binary64 → Binary64 → Ordering
  | finite s m d, finite t n e => compareScaled (signed s m) d (signed t n) e
  | finite .., infinite negative => if negative then .gt else .lt
  | infinite negative, finite .. => if negative then .lt else .gt
  | infinite true, infinite false => .lt
  | infinite false, infinite true => .gt
  | infinite _, infinite _ => .eq
  | nan, nan => .eq
  | nan, _ => .lt
  | _, nan => .gt

def compareInt (n : Int) : Binary64 → Ordering
  | finite s m e => compareScaled n 0 (signed s m) e
  | infinite negative => if negative then .gt else .lt
  | nan => .gt

def truncated? : Binary64 → Option Int
  | finite s m e =>
    some (signed s (if 0 ≤ e then m * twoTo e.toNat else m / twoTo (-e).toNat))
  | infinite _ | nan => none

def toInt? : Binary64 → Option Int
  | finite s m e =>
    if 0 ≤ e then some (signed s (m * twoTo e.toNat))
    else if m % twoTo (-e).toNat = 0 then some (signed s (m / twoTo (-e).toNat))
    else none
  | infinite _ | nan => none

end Binary64

end Winnow
