namespace Winnow

def twoTo (k : Nat) : Nat := Nat.pow 2 k

def tenTo (k : Nat) : Nat := Nat.pow 10 k

def int64Bound : Int := 9223372036854775808

theorem twoTo_succ (k : Nat) : twoTo (k + 1) = twoTo k * 2 := rfl

theorem twoTo_pos (k : Nat) : 0 < twoTo k := Nat.pow_pos (by decide)

def leastExponent : Int := -1074

/-- From this exponent on a 53-bit mantissa lies beyond every double. -/
def overflowExponent : Int := 972

/-- The quotient `num / den` to the nearest natural number, a tie going to the even one. -/
def roundHalfEven (num den : Nat) : Nat :=
  let q := num / den
  let r := num % den
  if 2 * r < den then q
  else if den < 2 * r then q + 1
  else if q % 2 = 0 then q else q + 1

/-- The quotient `num / den / 2 ^ e` as a pair of natural numbers. -/
def scaled (num den : Nat) (e : Int) : Nat × Nat :=
  if 0 ≤ e then (num, den * twoTo e.toNat) else (num * twoTo (-e).toNat, den)

/-- The exponent at which `num / den` has 53 bits before the point. -/
def exponentFor (num den : Nat) : Int :=
  let e : Int := (num.log2 : Int) - den.log2 - 52
  let (n, d) := scaled num den e
  max leastExponent (if n / d < twoTo 52 then e - 1 else e)

/-- The double nearest to `num / den`, before the check for overflow. -/
def roundRatio (num den : Nat) : Nat × Int :=
  let e := exponentFor num den
  let (n, d) := scaled num den e
  let m := roundHalfEven n d
  if m = twoTo 53 then (twoTo 52, e + 1) else (m, e)

def ceilScaled (m : Nat) (e : Int) : Nat :=
  if 0 ≤ e then m * twoTo e.toNat else (m + twoTo (-e).toNat - 1) / twoTo (-e).toNat

end Winnow
