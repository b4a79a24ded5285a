/-!
# StarQpu.Text.Base64

**Bytes as text in 64 characters.** Three bytes become four characters of six bits each; a last
group of one or two bytes becomes two or three characters, filled up with `=`. Two alphabets are in
use, which differ in the last two characters. Reading is strict: the text consists of whole groups,
only the last one is filled up, and bits behind the last byte are zero. So every byte sequence has
exactly one text in each alphabet.
-/

namespace StarQpu.Base64

/-- The two characters in which the alphabets differ, those for 62 and 63. -/
structure Alphabet where
  plus : Char
  slash : Char

/-- The alphabet with `+` and `/`. -/
def Alphabet.standard : Alphabet := ⟨'+', '/'⟩

/-- The alphabet whose characters need no quoting in addresses. -/
def Alphabet.urlSafe : Alphabet := ⟨'-', '_'⟩

namespace Alphabet

/-- The character for six bits. -/
def digit (a : Alphabet) (n : Nat) : Char :=
  if n < 26 then Char.ofNat (0x41 + n)
  else if n < 52 then Char.ofNat (0x61 + (n - 26))
  else if n < 62 then Char.ofNat (0x30 + (n - 52))
  else if n = 62 then a.plus
  else a.slash

/-- The six bits of a character. -/
def value? (a : Alphabet) (c : Char) : Option Nat :=
  if c.isUpper then some (c.toNat - 0x41)
  else if c.isLower then some (c.toNat - 0x61 + 26)
  else if c.isDigit then some (c.toNat - 0x30 + 52)
  else if c = a.plus then some 62
  else if c = a.slash then some 63
  else none

end Alphabet

/-- The text of bytes. -/
def encode (a : Alphabet) : List UInt8 → List Char
  | [] => []
  | [x] => [a.digit (x.toNat / 4), a.digit (x.toNat % 4 * 16), '=', '=']
  | [x, y] =>
    [a.digit (x.toNat / 4), a.digit (x.toNat % 4 * 16 + y.toNat / 16), a.digit (y.toNat % 16 * 4),
      '=']
  | x :: y :: z :: rest =>
    a.digit (x.toNat / 4) :: a.digit (x.toNat % 4 * 16 + y.toNat / 16) ::
      a.digit (y.toNat % 16 * 4 + z.toNat / 64) :: a.digit (z.toNat % 64) :: encode a rest

/-- The text of bytes without the filling. -/
def encodeBare (a : Alphabet) (bytes : List UInt8) : List Char :=
  (encode a bytes).filter (· ≠ '=')

/-- The byte of a group that ends in two filling characters. -/
def decodeOne (a : Alphabet) (p q : Char) : Option (List UInt8) := do
  let p ← a.value? p
  let q ← a.value? q
  if q % 16 = 0 then some [UInt8.ofNat (p * 4 + q / 16)] else none

/-- The bytes of a group that ends in one filling character. -/
def decodeTwo (a : Alphabet) (p q r : Char) : Option (List UInt8) := do
  let p ← a.value? p
  let q ← a.value? q
  let r ← a.value? r
  if r % 4 = 0 then
    some [UInt8.ofNat (p * 4 + q / 16), UInt8.ofNat (q % 16 * 16 + r / 4)]
  else none

/-- The bytes of a full group. -/
def decodeThree (a : Alphabet) (p q r s : Char) : Option (List UInt8) := do
  let p ← a.value? p
  let q ← a.value? q
  let r ← a.value? r
  let s ← a.value? s
  some [UInt8.ofNat (p * 4 + q / 16), UInt8.ofNat (q % 16 * 16 + r / 4),
    UInt8.ofNat (r % 4 * 64 + s)]

/-- The bytes of a text. -/
def decode (a : Alphabet) : List Char → Option (List UInt8)
  | [] => some []
  | [p, q, '=', '='] => decodeOne a p q
  | [p, q, r, '='] => decodeTwo a p q r
  | p :: q :: r :: s :: rest => do
    let bytes ← decodeThree a p q r s
    let more ← decode a rest
    some (bytes ++ more)
  | _ => none

/-- The text with filling up to a multiple of four bytes. -/
def fill (s : String) : List Char :=
  s.toList ++ List.replicate ((4 - s.utf8ByteSize % 4) % 4) '='

end StarQpu.Base64
