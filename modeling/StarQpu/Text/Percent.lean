import StarQpu.Text.Quoted

/-!
# StarQpu.Text.Percent

**Text in addresses and forms.** A character that has no place there is written as its UTF-8 bytes,
each as `%` and two digits to base 16 in upper case. Which characters have a place depends on where
the text stands.
-/

namespace StarQpu.Text

/-- A byte as `%` and two digits. -/
def percentByte (b : UInt8) : List Char :=
  '%' :: [hexDigit (b.toNat / 16), hexDigit (b.toNat % 16)].map Char.toUpper

/-- A character as its bytes. -/
def percentChar (c : Char) : List Char := (String.utf8EncodeChar c).flatMap percentByte

/-! ### Forms -/

/-- Does the character stand for itself in a form? -/
def isFormChar (c : Char) : Bool :=
  c.isAlphanum || c = '*' || c = '-' || c = '.' || c = '_'

/-- One character in a form; a space is a plus sign. -/
def formChar (c : Char) : List Char :=
  if isFormChar c then [c] else if c = ' ' then ['+'] else percentChar c

/-- A text in a form. -/
def formText (s : String) : String := String.ofList (s.toList.flatMap formChar)

/-- A form with the given fields. -/
def form (fields : List (String × String)) : String :=
  "&".intercalate (fields.map fun (name, value) => formText name ++ "=" ++ formText value)

/-! ### Addresses -/

/-- Is the character out of place in an address as a whole: a control character, a space, a double
quote, an angle bracket, a number sign or not ASCII? -/
def isOutOfPlace (c : Char) : Bool :=
  c.toNat ≤ 0x20 || 0x7F ≤ c.toNat || c = '"' || c = '<' || c = '>' || c = '#'

/-- One character of the path of an address. -/
def pathChar (c : Char) : List Char :=
  if isOutOfPlace c || c = '?' || c.toNat = 0x60 || c.toNat = 0x7B || c.toNat = 0x7D then
    percentChar c
  else [c]

/-- One character of the query of an address. -/
def queryChar (c : Char) : List Char :=
  if isOutOfPlace c || c.toNat = 0x27 then percentChar c else [c]

end StarQpu.Text
