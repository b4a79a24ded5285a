import StarQpu.Json.Basic
import StarQpu.Number.Decimal
import StarQpu.Text.Quoted

/-!
# StarQpu.Json.Printer

**JSON text of values.** `Json.compact` writes without blanks, `Json.pretty` with one field or item
a line and two spaces a level. Fields are written in their order. Strings escape the quote, the
backslash and control characters and nothing else.
-/

namespace StarQpu

/-- JSON numbers: positional from `0.00001` up to 16 digits before the point, whole numbers end in
`.0`, exponents carry their sign. -/
def Json.floatLayout : Layout := ⟨-4, 16, true, true⟩

/-- The text of a number. -/
def Number.render : Number → String
  | .int n => toString n
  | .float x => Json.floatLayout.render x

namespace Json

/-- One character as it stands in a JSON string. -/
def escapeChar (c : Char) : List Char :=
  match c with
  | '"' => ['\\', '"']
  | '\\' => ['\\', '\\']
  | '\n' => ['\\', 'n']
  | '\r' => ['\\', 'r']
  | '\t' => ['\\', 't']
  | c =>
    if c.toNat = 8 then ['\\', 'b']
    else if c.toNat = 12 then ['\\', 'f']
    else if c.toNat < 0x20 then
      ['\\', 'u', '0', '0', Text.hexDigit (c.toNat / 16), Text.hexDigit (c.toNat % 16)]
    else [c]

/-- A JSON string. -/
def renderString (s : String) : String :=
  String.ofList ('"' :: s.toList.flatMap escapeChar ++ ['"'])

mutual
/-- The text without blanks. -/
def compact : Json → String
  | .null => "null"
  | .bool b => if b then "true" else "false"
  | .num n => n.render
  | .str s => renderString s
  | .arr items => "[" ++ ",".intercalate (compactItems items) ++ "]"
  | .obj fields => "\x7b" ++ ",".intercalate (compactFields fields) ++ "\x7d"

/-- The items of a list. -/
def compactItems : List Json → List String
  | [] => []
  | item :: rest => compact item :: compactItems rest

/-- The fields of an object. -/
def compactFields : List (String × Json) → List String
  | [] => []
  | (k, v) :: rest => (renderString k ++ ":" ++ compact v) :: compactFields rest
end

/-- A new line, indented by two spaces a level. -/
def newLine (level : Nat) : String := "\n" ++ String.ofList (List.replicate (2 * level) ' ')

mutual
/-- The text with one item or field a line; `level` is the indentation of the value itself. -/
def prettyAt (level : Nat) : Json → String
  | .null => "null"
  | .bool b => if b then "true" else "false"
  | .num n => n.render
  | .str s => renderString s
  | .arr [] => "[]"
  | .arr (item :: rest) =>
    "[" ++ ",".intercalate (prettyItems (level + 1) (item :: rest)) ++ newLine level ++ "]"
  | .obj [] => "\x7b\x7d"
  | .obj (field :: rest) =>
    "\x7b" ++ ",".intercalate (prettyFields (level + 1) (field :: rest)) ++ newLine level ++ "\x7d"

/-- The items of a list, each on its line. -/
def prettyItems (level : Nat) : List Json → List String
  | [] => []
  | item :: rest => (newLine level ++ prettyAt level item) :: prettyItems level rest

/-- The fields of an object, each on its line. -/
def prettyFields (level : Nat) : List (String × Json) → List String
  | [] => []
  | (k, v) :: rest =>
    (newLine level ++ renderString k ++ ": " ++ prettyAt level v) :: prettyFields level rest
end

/-- The text with one item or field a line. -/
def pretty (j : Json) : String := prettyAt 0 j

end Json

end StarQpu
