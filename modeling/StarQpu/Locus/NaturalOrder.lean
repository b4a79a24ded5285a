/-!
# StarQpu.Locus.NaturalOrder

**The natural order of component names.** A name is cut into runs of ASCII digits and runs of other
characters, and names are compared run by run: digits by the number they write, other runs by code
points, and a run of digits stands before any other run. So `QB2` comes before `QB10`. Names that
agree run by run (`QB01`, `QB1`) are told apart by their code points, which makes the order total.
-/

namespace StarQpu

namespace NaturalOrder

/-- A longest run of characters of one kind. -/
inductive Run where
  /-- A run of ASCII digits. -/
  | digits (ds : List Char)
  /-- A run of other characters. -/
  | letters (cs : List Char)
  deriving DecidableEq

/-- Puts a character in front of a name that is cut into runs. -/
def Run.push (c : Char) (runs : List Run) : List Run :=
  match c.isDigit, runs with
  | true, .digits ds :: rest => .digits (c :: ds) :: rest
  | true, rest => .digits [c] :: rest
  | false, .letters cs :: rest => .letters (c :: cs) :: rest
  | false, rest => .letters [c] :: rest

/-- The runs of a name. -/
def runs : List Char → List Run
  | [] => []
  | c :: cs => Run.push c (runs cs)

/-- Digits without the zeros in front; the number zero has none left. -/
def significantDigits (ds : List Char) : List Char := ds.dropWhile (· = '0')

/-- Compares two runs of digits by the numbers they write: the longer number is the larger one, and
numbers of one length compare digit by digit. -/
def compareDigits (ds es : List Char) : Ordering :=
  let a := significantDigits ds
  let b := significantDigits es
  (compare a.length b.length).then (compare a b)

/-- Compares two runs. -/
def Run.compare : Run → Run → Ordering
  | .digits ds, .digits es => compareDigits ds es
  | .digits _, .letters _ => .lt
  | .letters _, .digits _ => .gt
  | .letters cs, .letters es => Ord.compare cs es

/-- Compares names run by run; a name that ends first comes first. -/
def compareRuns : List Run → List Run → Ordering
  | [], [] => .eq
  | [], _ :: _ => .lt
  | _ :: _, [] => .gt
  | x :: xs, y :: ys => (x.compare y).then (compareRuns xs ys)

end NaturalOrder

open NaturalOrder in
/-- Compares two component names in natural order. -/
def compareNames (a b : String) : Ordering :=
  (compareRuns (runs a.toList) (runs b.toList)).then (compare a b)

/-- Compares two lists of names component by component; a list that ends first comes first. -/
def compareLoci : List String → List String → Ordering
  | [], [] => .eq
  | [], _ :: _ => .lt
  | _ :: _, [] => .gt
  | x :: xs, y :: ys => (compareNames x y).then (compareLoci xs ys)

/-- A list without the items that equal the item before them. -/
def dropRepeats {α : Type} [DecidableEq α] : List α → List α
  | [] => []
  | [a] => [a]
  | a :: b :: rest => if a = b then dropRepeats (b :: rest) else a :: dropRepeats (b :: rest)

/-- Component names in natural order, each once. -/
def sortComponents (names : List String) : List String :=
  dropRepeats (names.mergeSort fun a b => (compareNames a b).isLE)

/-- Loci in natural order, each once. -/
def sortLoci (loci : List (List String)) : List (List String) :=
  dropRepeats (loci.mergeSort fun a b => (compareLoci a b).isLE)

end StarQpu
