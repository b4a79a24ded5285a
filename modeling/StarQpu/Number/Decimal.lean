import StarQpu.Number.Binary64
import StarQpu.Text.Blank

/-!
# StarQpu.Number.Decimal

**Decimal text of floating point numbers, in both directions.** A number is written with the fewest
digits that read back as the same number; of two equally short candidates the nearer one is taken,
and of two equally near ones the even one. Where the digits go (positional or with an exponent) is
the choice of a `Layout`. Reading rounds the exact decimal value once.
-/

namespace StarQpu

/-- The decimal number `coefficient * 10 ^ exponent`. -/
structure Decimal where
  coefficient : Nat
  exponent : Int
  deriving DecidableEq, Inhabited

/-- The number of decimal digits. -/
def decimalLength (n : Nat) : Nat := (Nat.toDigits 10 n).length

namespace Decimal

/-- The exact value as a fraction. -/
def fraction (d : Decimal) : Nat × Nat :=
  if 0 ≤ d.exponent then (d.coefficient * tenTo d.exponent.toNat, 1)
  else (d.coefficient, tenTo (-d.exponent).toNat)

/-- The nearest 64-bit number. Exponents far outside its range are decided without computing the
power of ten. -/
def toBinary64 (negative : Bool) (d : Decimal) : Binary64 :=
  let magnitude : Int := decimalLength d.coefficient + d.exponent
  if d.coefficient = 0 ∨ magnitude < -400 then .nearest negative 0 1
  else if 400 < magnitude then .nearest negative (twoTo 1100) 1
  else .nearest negative d.fraction.1 d.fraction.2

/-- The same value without trailing zeros in the coefficient, at most `fuel` of them. -/
def dropZeros : Nat → Decimal → Decimal
  | 0, d => d
  | fuel + 1, d =>
    if d.coefficient ≠ 0 ∧ d.coefficient % 10 = 0 then
      dropZeros fuel ⟨d.coefficient / 10, d.exponent + 1⟩
    else d

end Decimal

namespace Binary64

/-- Twice the numerator of the ends of the interval of values that round to `x`, over twice the
denominator of `x`: lower end, value, upper end, denominator. All four are scaled by four so that
the narrower gap below a power of two is an integer as well. -/
def roundingInterval (x : Binary64) : Nat × Nat × Nat × Nat :=
  let m := x.significand
  let below := if x.fractionField = 0 ∧ 1 < x.exponentField then 4 * m - 1 else 4 * m - 2
  if 0 ≤ x.scale then
    let p := twoTo x.scale.toNat
    (below * p, 4 * m * p, (4 * m + 2) * p, 4)
  else (below, 4 * m, 4 * m + 2, 4 * twoTo (-x.scale).toNat)

/-- The largest `k` with `10 ^ k ≤ num / den`, for positive `num` and `den`. -/
def floorLog10 (num den : Nat) : Int :=
  let guess : Int := (decimalLength num : Int) - decimalLength den
  let fits :=
    if 0 ≤ guess then den * tenTo guess.toNat ≤ num else den ≤ num * tenTo (-guess).toNat
  if fits then guess else guess - 1

/-- A decimal with `count` digits that reads back as `x`, if there is one: the two neighbours of
`x` on that decimal grid are tested. -/
def onGrid? (x : Binary64) (count : Nat) : Option Decimal :=
  let (low, value, high, den) := x.roundingInterval
  let step : Int := floorLog10 value den - (count - 1)
  -- on the grid of step `10 ^ step`, a value `n / den` becomes `n * up / (den * down)`
  let (up, down) := if 0 ≤ step then (1, tenTo step.toNat) else (tenTo (-step).toNat, 1)
  let unit := den * down
  let floor := value * up / unit
  let closed := x.significand % 2 = 0
  let inside (n : Nat) : Bool :=
    if closed then low * up ≤ n * unit && n * unit ≤ high * up
    else low * up < n * unit && n * unit < high * up
  let belowGap := value * up - floor * unit
  let aboveGap := (floor + 1) * unit - value * up
  let nearer :=
    if belowGap < aboveGap then floor
    else if aboveGap < belowGap then floor + 1
    else if floor % 2 = 0 then floor else floor + 1
  if inside floor && inside (floor + 1) then some ⟨nearer, step⟩
  else if inside floor then some ⟨floor, step⟩
  else if inside (floor + 1) then some ⟨floor + 1, step⟩
  else none

/-- The shortest decimal that reads back as the finite number `x`, sign aside. Seventeen digits
always suffice. -/
def shortest (x : Binary64) : Decimal :=
  if x.isZero then ⟨0, 0⟩
  else
    let found := (List.range 17).findSome? fun n => x.onGrid? (n + 1)
    (found.getD ⟨0, 0⟩).dropZeros 20

end Binary64

/-- Where the digits of a number go. The *point* of a number is the position of its decimal point
relative to its first digit: `0.d₁d₂… * 10 ^ point`. -/
structure Layout where
  /-- The smallest point written positionally. -/
  smallestPoint : Int
  /-- The largest point written positionally. -/
  largestPoint : Int
  /-- Does a whole number end in `.0`? -/
  wholeMark : Bool
  /-- Does a positive exponent carry a plus sign? -/
  exponentPlus : Bool

namespace Layout

/-- `n` zeros. -/
def zeros (n : Nat) : String := String.ofList (List.replicate n '0')

/-- The digits of a positive number with a decimal point. -/
def positional (l : Layout) (digits : List Char) (point : Int) : String :=
  if point ≤ 0 then "0." ++ zeros (-point).toNat ++ String.ofList digits
  else if digits.length ≤ point.toNat then
    String.ofList digits ++ zeros (point.toNat - digits.length) ++ if l.wholeMark then ".0" else ""
  else
    String.ofList (digits.take point.toNat) ++ "." ++ String.ofList (digits.drop point.toNat)

/-- The digits of a positive number with an exponent. -/
def scientific (l : Layout) (digits : List Char) (point : Int) : String :=
  let exponent := point - 1
  let mantissa :=
    match digits with
    | [] => "0"
    | [d] => String.ofList [d]
    | d :: rest => String.ofList [d] ++ "." ++ String.ofList rest
  let mark := if 0 ≤ exponent && l.exponentPlus then "+" else ""
  mantissa ++ "e" ++ mark ++ toString exponent

/-- The text of a finite number. -/
def render (l : Layout) (x : Binary64) : String :=
  let sign := if x.isNegative then "-" else ""
  if x.isZero then sign ++ if l.wholeMark then "0.0" else "0"
  else
    let d := x.shortest
    let digits := Nat.toDigits 10 d.coefficient
    let point : Int := digits.length + d.exponent
    sign ++
      if l.smallestPoint ≤ point && point ≤ l.largestPoint then l.positional digits point
      else l.scientific digits point

/-- Plain text: no exponent at any size, and no mark on whole numbers. -/
def plain : Layout := ⟨-400, 400, false, false⟩

end Layout

/-! ### Reading -/

/-- The value of a digit. -/
def digitValue (c : Char) : Nat := c.toNat - 0x30

/-- The number written by decimal digits, first digit first, continuing `start`. -/
def digitsValue (digits : List Char) (start : Nat) : Nat :=
  digits.foldl (fun n c => 10 * n + digitValue c) start

/-- An exponent `e…`, or nothing: its value, or `none` when the text is neither. -/
def exponent? : List Char → Option Int
  | [] => some 0
  | e :: rest =>
    if e = 'e' || e = 'E' then
      let (negative, digits) :=
        match rest with
        | '-' :: r => (true, r)
        | '+' :: r => (false, r)
        | r => (false, r)
      if digits.isEmpty || !digits.all Char.isDigit then none
      else
        let n : Int := digitsValue digits 0
        some (if negative then -n else n)
    else none

/-- Reads a decimal number: an optional sign, digits with an optional point among, before or after
them, and an optional exponent. -/
def Binary64.ofText? (s : String) : Option Binary64 :=
  let (negative, cs) :=
    match s.toList with
    | '-' :: r => (true, r)
    | '+' :: r => (false, r)
    | r => (false, r)
  let whole := cs.takeWhile Char.isDigit
  let (places, rest) :=
    match cs.dropWhile Char.isDigit with
    | '.' :: r => (r.takeWhile Char.isDigit, r.dropWhile Char.isDigit)
    | r => ([], r)
  if whole.isEmpty && places.isEmpty then none
  else (exponent? rest).map fun e =>
    Decimal.toBinary64 negative ⟨digitsValue (whole ++ places) 0, e - places.length⟩

/-- Reads a signed decimal integer of at most 64 bits. -/
def int64OfText? (s : String) : Option Int :=
  let (negative, digits) :=
    match s.toList with
    | '-' :: r => (true, r)
    | '+' :: r => (false, r)
    | r => (false, r)
  if digits.isEmpty || !digits.all Char.isDigit then none
  else
    let n : Int := digitsValue digits 0
    let value := if negative then -n else n
    if -twoTo 63 ≤ value && value < twoTo 63 then some value else none

end StarQpu
