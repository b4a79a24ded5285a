import StarQpu.Text.Printable

/-!
# StarQpu.Text.Quoted

**Names and lists as messages show them.** A name stands between double quotes, with a backslash
before what would end or disturb the quotation; lists stand in brackets, sets and maps in braces.
Messages about instructions, loci and resonator occupation are built from these texts.
-/

namespace StarQpu.Text

/-- A digit of a number to base 16, in lower case. -/
def hexDigit (n : Nat) : Char :=
  if n < 10 then Char.ofNat (0x30 + n) else Char.ofNat (0x61 + (n - 10))

/-- The number to base 16, in lower case, without leading zeros. -/
def hexDigits (n : Nat) : List Char :=
  if n < 16 then [hexDigit n] else hexDigits (n / 16) ++ [hexDigit (n % 16)]

/-- One character as it stands between double quotes. -/
def quoteChar (c : Char) : List Char :=
  match c with
  | '"' => ['\\', '"']
  | '\\' => ['\\', '\\']
  | '\n' => ['\\', 'n']
  | '\r' => ['\\', 'r']
  | '\t' => ['\\', 't']
  | c =>
    if c.toNat = 0 then ['\\', '0']
    else if isShown c then [c]
    else ['\\', 'u', '\x7b'] ++ hexDigits c.toNat ++ ['\x7d']

/-- The text between double quotes. -/
def quoted (s : String) : String :=
  String.ofList ('"' :: s.toList.flatMap quoteChar ++ ['"'])

/-- The parts, separated by a comma and a space. -/
def commaSeparated (parts : List String) : String := ", ".intercalate parts

/-- The names, quoted, in brackets. -/
def quotedList (names : List String) : String :=
  "[" ++ commaSeparated (names.map quoted) ++ "]"

/-- The names, quoted, in braces. -/
def quotedSet (names : List String) : String :=
  "\x7b" ++ commaSeparated (names.map quoted) ++ "\x7d"

/-- The pairs of names, quoted, in braces. -/
def quotedMap (pairs : List (String × String)) : String :=
  "\x7b" ++ commaSeparated (pairs.map fun (k, v) => quoted k ++ ": " ++ quoted v) ++ "\x7d"

end StarQpu.Text
