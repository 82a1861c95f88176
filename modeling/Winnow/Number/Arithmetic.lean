import Winnow.Number.Binary64

namespace Winnow.Binary64

/-- The double nearest to `n * 2 ^ e`; `negativeZero` tells which zero it is when `n` is zero. -/
def ofScaled (negativeZero : Bool) (n : Int) (e : Int) : Binary64 :=
  if n = 0 then finite negativeZero 0 leastExponent
  else if 0 ≤ e then ofRatio (n < 0) (n.natAbs * twoTo e.toNat) 1
  else ofRatio (n < 0) n.natAbs (twoTo (-e).toNat)

def isZero : Binary64 → Bool
  | finite _ m _ => m = 0
  | _ => false

def isNegative : Binary64 → Bool
  | finite s m _ => s && m != 0
  | infinite s => s
  | nan => false

protected def neg : Binary64 → Binary64
  | finite s m e => finite (!s) m e
  | infinite s => infinite (!s)
  | nan => nan

def abs : Binary64 → Binary64
  | finite _ m e => finite false m e
  | infinite _ => infinite false
  | nan => nan

protected def add : Binary64 → Binary64 → Binary64
  | finite s m d, finite t n e =>
    let least := min d e
    ofScaled (s && t)
      (signed s m * twoTo (d - least).toNat + signed t n * twoTo (e - least).toNat) least
  | infinite s, infinite t => if s = t then infinite s else nan
  | nan, _ | _, nan => nan
  | infinite s, _ | _, infinite s => infinite s

protected def sub (x y : Binary64) : Binary64 := x.add y.neg

protected def mul : Binary64 → Binary64 → Binary64
  | finite s m d, finite t n e => ofScaled (s != t) (signed s m * signed t n) (d + e)
  | nan, _ | _, nan => nan
  | infinite s, infinite t => infinite (s != t)
  | infinite s, finite t n _ | finite t n _, infinite s => if n = 0 then nan else infinite (s != t)

protected def div : Binary64 → Binary64 → Binary64
  | finite s m d, finite t n e =>
    if n = 0 then (if m = 0 then nan else infinite (s != t))
    else if m = 0 then finite (s != t) 0 leastExponent
    else
      let least := min d e
      ofRatio (s != t) (m * twoTo (d - least).toNat) (n * twoTo (e - least).toNat)
  | nan, _ | _, nan => nan
  | infinite _, infinite _ => nan
  | infinite s, finite t _ _ => infinite (s != t)
  | finite s _ _, infinite t => finite (s != t) 0 leastExponent

/-- The exact sum of some doubles, rounded once; not a number when infinities of both signs meet.
-/
def sum (xs : List Binary64) : Binary64 :=
  let exact := xs.foldl (fun (n : Int) x => match x with
    | finite s m e => n + signed s m * twoTo (e - leastExponent).toNat
    | _ => n) 0
  let others := xs.filter fun x => match x with
    | finite .. => false
    | _ => true
  others.foldl Binary64.add (ofScaled false exact leastExponent)

def floor : Binary64 → Binary64
  | finite s m e =>
    if 0 ≤ e then finite s m e
    else ofScaled s (Int.fdiv (signed s m) (twoTo (-e).toNat)) 0
  | x => x

def ceil (x : Binary64) : Binary64 := x.neg.floor.neg

def truncate (x : Binary64) : Binary64 := if x.isNegative then x.ceil else x.floor

end Winnow.Binary64
