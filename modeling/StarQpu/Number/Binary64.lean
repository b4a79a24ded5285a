/-!
# StarQpu.Number.Binary64

**64-bit floating point numbers by their bits.** A number is its bit pattern, so equality is
decidable and every operation below is exact integer arithmetic followed by one rounding. Rounding
is to the nearest representable number, and a value halfway between two goes to the one whose last
bit is zero.
-/

namespace StarQpu

/-- A 64-bit floating point number: one sign bit, eleven exponent bits, 52 fraction bits. -/
structure Binary64 where
  bits : UInt64
  deriving DecidableEq, Inhabited

/-- A power of two. -/
def twoTo (n : Nat) : Nat := Nat.pow 2 n

/-- A power of ten. -/
def tenTo (n : Nat) : Nat := Nat.pow 10 n

/-- The quotient rounded to the nearest integer, a half to the even neighbour. -/
def roundedQuotient (num den : Nat) : Nat :=
  let q := num / den
  let twice := 2 * (num % den)
  if twice < den then q
  else if den < twice then q + 1
  else if q % 2 = 0 then q else q + 1

/-- The largest `k` with `den * 2 ^ k ≤ num`, for positive `num` and `den`. -/
def floorLog2 (num den : Nat) : Int :=
  let guess : Int := (num.log2 : Int) - den.log2
  let fits := if 0 ≤ guess then den * twoTo guess.toNat ≤ num else den ≤ num * twoTo (-guess).toNat
  if fits then guess else guess - 1

namespace Binary64

/-- The exponent field. -/
def exponentField (x : Binary64) : Nat := (x.bits.toNat / twoTo 52) % twoTo 11

/-- The fraction field. -/
def fractionField (x : Binary64) : Nat := x.bits.toNat % twoTo 52

/-- Is the sign bit set? -/
def isNegative (x : Binary64) : Bool := twoTo 63 ≤ x.bits.toNat

/-- Is the number neither infinite nor a NaN? -/
def isFinite (x : Binary64) : Bool := x.exponentField != 2047

/-- The integer `m` in `|x| = m * 2 ^ scale`. -/
def significand (x : Binary64) : Nat :=
  if x.exponentField = 0 then x.fractionField else twoTo 52 + x.fractionField

/-- The exponent in `|x| = significand * 2 ^ scale`. -/
def scale (x : Binary64) : Int := (Nat.max x.exponentField 1 : Int) - 1075

/-- Is the number a zero of either sign? -/
def isZero (x : Binary64) : Bool := x.significand = 0

/-- The absolute value as a fraction. -/
def magnitude (x : Binary64) : Nat × Nat :=
  if 0 ≤ x.scale then (x.significand * twoTo x.scale.toNat, 1)
  else (x.significand, twoTo (-x.scale).toNat)

/-- The bits of the number nearest to `num / den`, without a sign. -/
def nearestBits (num den : Nat) : Nat :=
  if num = 0 then 0
  else
    let q := max (floorLog2 num den - 52) (-1074)
    let m :=
      if 0 ≤ q then roundedQuotient num (den * twoTo q.toNat)
      else roundedQuotient (num * twoTo (-q).toNat) den
    min ((q + 1074).toNat * twoTo 52 + m) (2047 * twoTo 52)

/-- The number nearest to `num / den`, with the given sign. -/
def nearest (negative : Bool) (num den : Nat) : Binary64 :=
  ⟨UInt64.ofNat (nearestBits num den + if negative then twoTo 63 else 0)⟩

/-- The number nearest to an integer. -/
def ofInt (n : Int) : Binary64 := nearest (n < 0) n.natAbs 1

/-- The rounded product. -/
def mul (x y : Binary64) : Binary64 :=
  let (a, b) := x.magnitude
  let (c, d) := y.magnitude
  nearest (x.isNegative != y.isNegative) (a * c) (b * d)

/-- The rounded quotient by a number other than zero. -/
def div (x y : Binary64) : Binary64 :=
  let (a, b) := x.magnitude
  let (c, d) := y.magnitude
  nearest (x.isNegative != y.isNegative) (a * d) (b * c)

/-- The rounded sum of two numbers without a sign. -/
def addMagnitudes (x y : Binary64) : Binary64 :=
  let (a, b) := x.magnitude
  let (c, d) := y.magnitude
  nearest false (a * d + c * b) (b * d)

/-- The number cut to an integer, toward zero. -/
def truncate (x : Binary64) : Int :=
  let (a, b) := x.magnitude
  if x.isNegative then -((a / b : Nat) : Int) else ((a / b : Nat) : Int)

/-- The positive infinity. -/
def infinity : Binary64 := ⟨0x7FF0000000000000⟩

/-- The negative infinity. -/
def negativeInfinity : Binary64 := ⟨0xFFF0000000000000⟩

/-- A number that is not a number. -/
def nan : Binary64 := ⟨0x7FF8000000000000⟩

end Binary64

end StarQpu
