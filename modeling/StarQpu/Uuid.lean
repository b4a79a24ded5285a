import StarQpu.Text.Quoted

/-!
# StarQpu.Uuid

**Universally unique identifiers.** An identifier is a number of 128 bits. It is written as 32
digits to base 16 in lower case, in groups of 8, 4, 4, 4 and 12 with hyphens between them. Read are
that form, the same digits without hyphens, the hyphenated form in braces and the hyphenated form
behind `urn:uuid:`, all in any case.
-/

namespace StarQpu

/-- An identifier of 128 bits. -/
structure Uuid where
  bits : BitVec 128
  deriving DecidableEq, Inhabited

namespace Uuid

/-- The identifier whose bits are all zero. -/
def nil : Uuid := ⟨0⟩

/-- The value of a digit to base 16. -/
def digitValue? (c : Char) : Option Nat :=
  if '0' ≤ c && c ≤ '9' then some (c.toNat - 0x30)
  else if 'a' ≤ c && c ≤ 'f' then some (c.toNat - 0x61 + 10)
  else if 'A' ≤ c && c ≤ 'F' then some (c.toNat - 0x41 + 10)
  else none

/-- The number written by digits to base 16, continuing `start`. -/
def readDigits : Nat → List Char → Option Nat
  | n, [] => some n
  | n, c :: cs =>
    match digitValue? c with
    | some d => readDigits (16 * n + d) cs
    | none => none

/-- The last `count` digits of a number to base 16. -/
def writeDigits : Nat → Nat → List Char
  | 0, _ => []
  | count + 1, n => writeDigits count (n / 16) ++ [Text.hexDigit (n % 16)]

/-- The identifier with 32 digits. -/
def ofDigits? (cs : List Char) : Option Uuid :=
  if cs.length = 32 then (readDigits 0 cs).map fun n => ⟨BitVec.ofNat 128 n⟩ else none

/-- The identifier with digits in five hyphenated groups. -/
def ofGroups? (cs : List Char) : Option Uuid :=
  if cs.length = 36 ∧ cs[8]? = some '-' ∧ cs[13]? = some '-' ∧ cs[18]? = some '-' ∧
      cs[23]? = some '-' then
    ofDigits? (cs.take 8 ++ (cs.drop 9).take 4 ++ (cs.drop 14).take 4 ++ (cs.drop 19).take 4 ++
      cs.drop 24)
  else none

/-- Reads an identifier. -/
def ofText? (s : String) : Option Uuid :=
  let cs := s.toList
  if cs.length = 32 then ofDigits? cs
  else if cs.length = 36 then ofGroups? cs
  else if cs.length = 38 then
    if cs.head? = some '\x7b' ∧ cs.getLast? = some '\x7d' then ofGroups? (cs.drop 1).dropLast
    else none
  else if cs.length = 45 then
    if (cs.take 9).map Char.toLower = "urn:uuid:".toList then ofGroups? (cs.drop 9) else none
  else none

/-- The hyphenated form in lower case. -/
def render (u : Uuid) : String :=
  let cs := writeDigits 32 u.bits.toNat
  String.ofList (cs.take 8 ++ '-' :: (cs.drop 8).take 4 ++ '-' :: (cs.drop 12).take 4 ++
    '-' :: (cs.drop 16).take 4 ++ '-' :: cs.drop 20)

end Uuid

end StarQpu
