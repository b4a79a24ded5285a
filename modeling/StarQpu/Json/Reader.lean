import StarQpu.Json.Source
import StarQpu.Number.Decimal

/-!
# StarQpu.Json.Reader

**Strict JSON text, read as far as it goes.** `Source.read` turns a text into the tree of what can
be read of it and the fault, if any, that stops the reading. Two kinds of fault are told apart.
A *hard* one (a missing comma, an early end) stops the reading: every list and object that is open
at that place is cut by it. A *soft* one concerns a single value that is well delimited but has no
meaning: an unpaired surrogate, a number beyond the range of 64-bit floating point, nesting deeper
than `Source.maxDepth`. It makes that value a fault and reading goes on behind it, so a reader that
skips the value never notices.

What a value is to its reader and where reading goes on are therefore two answers, and they may name
two faults. In a string with an unpaired surrogate that is never closed, the reader stops at the
surrogate and whoever skips the string at the end of the text. A number that breaks off, such as
`1.`, has ended too early for its reader, who still looks for a digit; whoever skips it has seen
what cannot be a number.

Numbers with a point or an exponent are rounded in two steps, first the digits (as many as fit in 64
bits) and then their product with a power of ten.
-/

namespace StarQpu

namespace Source

/-- How deep lists and objects may nest. -/
def maxDepth : Nat := 127

/-- The characters behind what was read, or the hard fault that stopped the reading. -/
abbrev Rest := Except Fault (List Char)

/-- JSON's blank characters: space, line feed, carriage return, tab. -/
def isGap (c : Char) : Bool := c = ' ' || c = '\n' || c = '\r' || c = '\t'

/-- The text from its first character that is not blank. -/
def skipGaps (cs : List Char) : List Char := cs.dropWhile isGap

/-! ### Words -/

/-- Reads the rest of `true`, `false` or `null`. -/
def expectWord : List Char → List Char → Rest
  | [], cs => .ok cs
  | _ :: _, [] => .error .truncated
  | w :: ws, c :: cs => if w = c then expectWord ws cs else .error .malformed

/-! ### Strings -/

/-- The value of a digit to base 16. -/
def hexValue? (c : Char) : Option Nat :=
  if '0' ≤ c && c ≤ '9' then some (c.toNat - 0x30)
  else if 'a' ≤ c && c ≤ 'f' then some (c.toNat - 0x61 + 10)
  else if 'A' ≤ c && c ≤ 'F' then some (c.toNat - 0x41 + 10)
  else none

/-- The number written by four digits to base 16, which have to fit into the rest of the text. -/
def fourHex (cs : List Char) : Except Fault (Nat × List Char) :=
  match cs with
  | a :: b :: c :: d :: rest =>
    match hexValue? a, hexValue? b, hexValue? c, hexValue? d with
    | some a, some b, some c, some d => .ok (((a * 16 + b) * 16 + c) * 16 + d, rest)
    | _, _, _, _ => .error .malformed
  | cs => if 4 ≤ (String.ofList cs).utf8ByteSize then .error .malformed else .error .truncated

/-- The character behind a backslash other than `u`. -/
def simpleEscape? (c : Char) : Option Char :=
  match c with
  | '"' => some '"'
  | '\\' => some '\\'
  | '/' => some '/'
  | 'b' => some (Char.ofNat 8)
  | 'f' => some (Char.ofNat 12)
  | 'n' => some '\n'
  | 'r' => some '\r'
  | 't' => some '\t'
  | _ => none

/-- Is the number a leading surrogate? -/
def isLeading (n : Nat) : Bool := 0xD800 ≤ n && n ≤ 0xDBFF

/-- Is the number a trailing surrogate? -/
def isTrailing (n : Nat) : Bool := 0xDC00 ≤ n && n ≤ 0xDFFF

/-- What stands behind the `u` of an escape: a character, or nothing when a surrogate has no
partner. A leading surrogate takes the escape of its partner along. -/
def unicodeEscape (cs : List Char) : Except Fault (Option Char × List Char) := do
  let (n, rest) ← fourHex cs
  if isTrailing n then pure (none, rest)
  else if isLeading n then
    match rest with
    | [] => throw .truncated
    | '\\' :: [] => throw .truncated
    | '\\' :: 'u' :: more =>
      match fourHex more with
      | .ok (m, behind) =>
        if isTrailing m then
          pure (some (Char.ofNat ((n - 0xD800) * 0x400 + (m - 0xDC00) + 0x10000)), behind)
        else pure (none, rest)
      | .error f => throw f
    | _ => pure (none, rest)
  else pure (some (Char.ofNat n), rest)

/-- What a reader of a string says of the hard fault `f`, unless something stopped it before. -/
def stopAt (f : Fault) (seen : Except Fault (List Char)) : Except Fault (List Char) :=
  match seen with
  | .ok _ => .error f
  | .error g => .error g

/-- Reads a string behind its opening quote: the characters or the first fault among them, and what
is behind the string or the first hard fault. `seen` are the characters so far, the last one first,
and `fuel` bounds their number. -/
def stringBody : Nat → List Char → Except Fault (List Char) → Except Fault (List Char) × Rest
  | 0, _, seen => (stopAt .truncated seen, .error .truncated)
  | _ + 1, [], seen => (stopAt .truncated seen, .error .truncated)
  | _ + 1, '"' :: rest, seen => (seen.map List.reverse, .ok rest)
  | _ + 1, '\\' :: [], seen => (stopAt .truncated seen, .error .truncated)
  | fuel + 1, '\\' :: 'u' :: rest, seen =>
    match unicodeEscape rest with
    | .ok (some c, behind) => stringBody fuel behind (seen.map (c :: ·))
    | .ok (none, behind) => stringBody fuel behind (stopAt .malformed seen)
    | .error f => (stopAt f seen, .error f)
  | fuel + 1, '\\' :: c :: rest, seen =>
    match simpleEscape? c with
    | some d => stringBody fuel rest (seen.map (d :: ·))
    | none => (stopAt .malformed seen, .error .malformed)
  | fuel + 1, c :: rest, seen =>
    if c.toNat < 0x20 then (stopAt .malformed seen, .error .malformed)
    else stringBody fuel rest (seen.map (c :: ·))

/-- Reads a string behind its opening quote. -/
def readString (cs : List Char) : Except Fault String × Rest :=
  let (body, rest) := stringBody (cs.length + 1) cs (.ok [])
  (body.map String.ofList, rest)

/-! ### Numbers -/

/-- Continues the number `n` by digits as long as it fits in 64 bits; the digits left over. -/
def absorb (n : Nat) : List Char → Nat × List Char
  | [] => (n, [])
  | c :: cs =>
    let next := 10 * n + digitValue c
    if next < twoTo 64 then absorb next cs else (n, c :: cs)

/-- Multiplies a rounded coefficient by a power of ten that lies far outside the range, a step of
`10 ^ 308` at a time; nothing when the product is infinite. -/
def scaleByTen : Nat → Binary64 → Int → Option Binary64
  | 0, f, _ => some f
  | fuel + 1, f, e =>
    if -308 ≤ e && e ≤ 308 then
      let power := Binary64.nearest false (tenTo e.natAbs) 1
      if 0 ≤ e then
        let product := f.mul power
        if product.isFinite then some product else none
      else some (f.div power)
    else if f.isZero then some f
    else if 0 ≤ e then none
    else scaleByTen fuel (f.div (Binary64.nearest false (tenTo 308) 1)) (e + 308)

/-- The number with the given digits before and behind the point and the given exponent. -/
def floatOf (negative : Bool) (whole places : List Char) (e : Int) : Option Binary64 :=
  let (n, dropped) := absorb 0 whole
  let (m, ignored) := absorb n places
  let exponent : Int := e + dropped.length - (places.length - ignored.length : Nat)
  (scaleByTen 4 (Binary64.ofInt m) exponent).map fun x =>
    if negative then ⟨x.bits ^^^ 0x8000000000000000⟩ else x

/-- The number written as an integer: it stays one if it fits in 64 bits, signed or unsigned. The
negative zero does not. -/
def integerOf (negative : Bool) (digits : List Char) : Option Number :=
  let n := digitsValue digits 0
  if negative && 0 < n && n ≤ twoTo 63 then some (.int (-n))
  else if !negative && n < twoTo 64 then some (.int n)
  else (floatOf negative digits [] 0).map .float

/-- Digits of which there has to be at least one. -/
def someDigits (cs : List Char) : Except Fault (List Char × List Char) :=
  match cs with
  | [] => .error .truncated
  | c :: _ =>
    if c.isDigit then .ok (cs.takeWhile Char.isDigit, cs.dropWhile Char.isDigit)
    else .error .malformed

/-- The digits before the point: a zero stands alone. -/
def wholeDigits (cs : List Char) : Except Fault (List Char × List Char) := do
  let (digits, rest) ← someDigits cs
  match digits with
  | '0' :: _ :: _ => throw .malformed
  | _ => pure (digits, rest)

/-- An exponent, if there is one. -/
def exponentPart (cs : List Char) : Except Fault (Option Int × List Char) :=
  match cs with
  | c :: rest =>
    if c = 'e' || c = 'E' then do
      let (negative, behind) :=
        match rest with
        | '-' :: r => (true, r)
        | '+' :: r => (false, r)
        | r => (false, r)
      let (digits, behind) ← someDigits behind
      let n : Int := digitsValue digits 0
      pure (some (if negative then -n else n), behind)
    else .ok (none, cs)
  | [] => .ok (none, [])

/-- Reads a number. Nothing when it is out of range. -/
def readNumber (cs : List Char) : Except Fault (Option Number × List Char) := do
  let (negative, cs) :=
    match cs with
    | '-' :: r => (true, r)
    | r => (false, r)
  let (whole, cs) ← wholeDigits cs
  let (places, cs) ←
    match cs with
    | '.' :: r => (fun (d, r) => (some d, r)) <$> someDigits r
    | r => pure (none, r)
  let (e, cs) ← exponentPart cs
  match places, e with
  | none, none => pure (integerOf negative whole, cs)
  | _, _ => pure ((floatOf negative whole (places.getD []) (e.getD 0)).map .float, cs)

/-! ### Values -/

/-- A value that was delimited by reading a word, of which the first letter is read. -/
def word (b : Beginning) (w : List Char) (value : Source) (cs : List Char) : Source × Rest :=
  match expectWord w cs with
  | .ok rest => (value, .ok rest)
  | .error f => (.fault b f, .error f)

/-- A list, or a fault in its place when it is nested too deep. -/
def closeArr (tooDeep : Bool) (items : List Source) (cut : Option Fault) : Source :=
  if tooDeep then .fault .other .malformed else .arr items cut

/-- An object, or a fault in its place when it is nested too deep. -/
def closeObj (tooDeep : Bool) (fields : List (String × Source)) (ending : Ending) : Source :=
  if tooDeep then .fault .other .malformed else .obj fields ending

mutual
/-- Reads a value. `depth` is the number of lists and objects that may still be opened; `fuel`
bounds the number of steps and is never exhausted when it exceeds three times the length of the
text. -/
def readValue : Nat → Nat → List Char → Source × Rest
  | 0, _, _ => (.fault .nothing .truncated, .error .truncated)
  | fuel + 1, depth, cs =>
    match skipGaps cs with
    | [] => (.fault .nothing .truncated, .error .truncated)
    | '[' :: rest =>
      let (items, cut, rest) := readItems fuel (depth - 1) true rest
      (closeArr (depth = 0) items cut, rest)
    | '\x7b' :: rest =>
      let (fields, ending, rest) := readFields fuel (depth - 1) true rest
      (closeObj (depth = 0) fields ending, rest)
    | '"' :: rest =>
      match readString rest with
      | (.ok s, rest) => (.str s, rest)
      | (.error f, rest) => (.fault .quote f, rest)
    | 't' :: rest => word .other ['r', 'u', 'e'] (.bool true) rest
    | 'f' :: rest => word .other ['a', 'l', 's', 'e'] (.bool false) rest
    | 'n' :: rest => word .null ['u', 'l', 'l'] .null rest
    | c :: rest =>
      if c = '-' || c.isDigit then
        match readNumber (c :: rest) with
        | .ok (some n, rest) => (.num n, .ok rest)
        | .ok (none, rest) => (.fault .other .malformed, .ok rest)
        | .error f => (.fault .other f, .error .malformed)
      else (.fault .nothing .malformed, .error .malformed)

/-- Reads the items of a list behind its bracket or, when `first` is false, behind an item. -/
def readItems : Nat → Nat → Bool → List Char → List Source × Option Fault × Rest
  | 0, _, _, _ => ([], some .truncated, .error .truncated)
  | fuel + 1, depth, first, cs =>
    match skipGaps cs, first with
    | [], _ => ([], some .truncated, .error .truncated)
    | ']' :: rest, _ => ([], none, .ok rest)
    | ',' :: rest, false => readItem fuel depth rest
    | _ :: _, false => ([], some .malformed, .error .malformed)
    | c :: rest, true => readItem fuel depth (c :: rest)

/-- Reads an item of a list and the items behind it. -/
def readItem : Nat → Nat → List Char → List Source × Option Fault × Rest
  | 0, _, _ => ([], some .truncated, .error .truncated)
  | fuel + 1, depth, cs =>
    match readValue fuel depth cs with
    | (item, .error f) => ([item], some f, .error f)
    | (item, .ok rest) =>
      let (items, cut, rest) := readItems fuel depth false rest
      (item :: items, cut, rest)

/-- Reads the fields of an object behind its brace or, when `first` is false, behind a field. -/
def readFields : Nat → Nat → Bool → List Char → List (String × Source) × Ending × Rest
  | 0, _, _, _ => ([], .broken .truncated, .error .truncated)
  | fuel + 1, depth, first, cs =>
    match skipGaps cs, first with
    | '\x7d' :: rest, _ => ([], .closed, .ok rest)
    | '"' :: rest, true => readField fuel depth rest
    | rest, true => endNameless fuel depth rest
    | [], false => ([], .broken .truncated, .error .truncated)
    | ',' :: rest, false =>
      match skipGaps rest with
      | '"' :: rest => readField fuel depth rest
      | rest => endNameless fuel depth rest
    | _, false => ([], .broken .malformed, .error .malformed)

/-- Reads a field behind the quote of its key, and the fields behind it. -/
def readField : Nat → Nat → List Char → List (String × Source) × Ending × Rest
  | 0, _, _ => ([], .broken .truncated, .error .truncated)
  | fuel + 1, depth, cs =>
    let (key, rest) := readString cs
    let (value, rest) : Source × Rest :=
      match rest with
      | .error f => (.fault .nothing f, .error f)
      | .ok rest =>
        match skipGaps rest with
        | [] => (.fault .nothing .truncated, .error .truncated)
        | ':' :: rest => readValue fuel depth rest
        | _ => (.fault .nothing .malformed, .error .malformed)
    let (fields, ending, rest) : List (String × Source) × Ending × Rest :=
      match rest with
      | .error f => ([], .broken f, .error f)
      | .ok rest => readFields fuel depth false rest
    match key with
    | .ok key => ((key, value) :: fields, ending, rest)
    | .error f => ([], .nameless f f, rest)

/-- Ends an object where a field should begin and no quote stands. -/
def endNameless : Nat → Nat → List Char → List (String × Source) × Ending × Rest
  | 0, _, _ => ([], .broken .truncated, .error .truncated)
  | fuel + 1, depth, cs =>
    let f : Fault := if cs = [] then .truncated else .malformed
    ([], .nameless f (readValue fuel depth cs).1.notText, .error f)
end

/-- Reads a text that should hold one value: the value, and the fault that follows it. -/
def read (text : String) : Source × Option Fault :=
  let cs := text.toList
  let (source, rest) := readValue (3 * cs.length + 3) maxDepth cs
  match rest with
  | .error f => (source, some f)
  | .ok rest => (source, if skipGaps rest = [] then none else some .malformed)

end Source

/-- The canonical value of a text, or its first fault. -/
def Json.read (text : String) : Except Fault Json := do
  let (source, behind) := Source.read text
  let value ← source.toJson
  Fault.raise behind
  pure value

end StarQpu
