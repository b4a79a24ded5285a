/-!
# StarQpu.Text.Blank

**White space around a text.** The blank characters are those with the Unicode property
`White_Space`; the list is closed and has not changed for many versions of the standard.
-/

namespace StarQpu.Text

/-- Code points with the property `White_Space`, as closed ranges. -/
def blankRanges : List (Nat × Nat) :=
  [(0x9, 0xD), (0x20, 0x20), (0x85, 0x85), (0xA0, 0xA0), (0x1680, 0x1680), (0x2000, 0x200A),
    (0x2028, 0x2029), (0x202F, 0x202F), (0x205F, 0x205F), (0x3000, 0x3000)]

/-- Is the code point in one of the ranges? -/
def inRanges (ranges : List (Nat × Nat)) (code : Nat) : Bool :=
  ranges.any fun (low, high) => low ≤ code && code ≤ high

/-- Is the character white space? -/
def isBlank (c : Char) : Bool := inRanges blankRanges c.toNat

/-- The characters without the blank ones at either end. -/
def trimChars (cs : List Char) : List Char :=
  ((cs.dropWhile isBlank).reverse.dropWhile isBlank).reverse

/-- The text without the white space at either end. -/
def trim (s : String) : String := String.ofList (trimChars s.toList)

/-- The text without the given character at its end, however often it stands there. -/
def dropTrailing (c : Char) (s : String) : String :=
  String.ofList (s.toList.reverse.dropWhile (· == c)).reverse

end StarQpu.Text
