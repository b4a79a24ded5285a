import StarQpu.Number.Decimal

/-!
# StarQpu.Number.Duration

**Spans of time in whole nanoseconds.** A number of seconds becomes a duration by rounding to the
nearest nanosecond, a half to the even one; what is negative, infinite or longer than a 64-bit
number of seconds becomes no time at all.
-/

namespace StarQpu

/-- A span of time. -/
structure Duration where
  nanoseconds : Nat
  deriving DecidableEq, Inhabited

namespace Duration

/-- The nanoseconds in a second. -/
def perSecond : Nat := 1000000000

/-- No time. -/
def zero : Duration := ⟨0⟩

/-- Seconds and nanoseconds together. -/
def ofParts (seconds nanoseconds : Nat) : Duration := ⟨seconds * perSecond + nanoseconds⟩

/-- A whole number of milliseconds. -/
def ofMilliseconds (n : Nat) : Duration := ⟨n * 1000000⟩

/-- The duration of a number of seconds. -/
def ofSeconds (x : Binary64) : Duration :=
  if x.isFinite && !x.isNegative then
    let (num, den) := x.magnitude
    let n := roundedQuotient (num * perSecond) den
    if n < twoTo 64 * perSecond then ⟨n⟩ else zero
  else zero

/-- The whole seconds. -/
def seconds (d : Duration) : Nat := d.nanoseconds / perSecond

/-- The nanoseconds beyond whole seconds. -/
def fraction (d : Duration) : Nat := d.nanoseconds % perSecond

/-- The duration in seconds as a floating point number: whole seconds and fraction are rounded, and
so is their sum. -/
def toBinary64 (d : Duration) : Binary64 :=
  (Binary64.ofInt d.seconds).addMagnitudes
    ((Binary64.ofInt d.fraction).div (Binary64.ofInt perSecond))

/-- The number of seconds as plain text. -/
def render (d : Duration) : String := Layout.plain.render d.toBinary64

end Duration

end StarQpu
