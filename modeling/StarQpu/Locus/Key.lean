/-!
# StarQpu.Locus.Key

**Loci as text keys.** A *locus* is the list of components an instruction acts on. Maps keyed by
loci are written with the component names joined by two underscores; the empty key is the empty
locus, and any other key is cut at each pair of underscores, the leftmost first.
-/

namespace StarQpu

/-- Names of the components an instruction acts on, for instance `QB1` and `QB2`. -/
abbrev Locus := List String

namespace Locus

/-- The key of a locus. -/
def key (locus : Locus) : String := "__".intercalate locus

/-- Puts a character in front of the first part. -/
def extendFirst (c : Char) : List (List Char) → List (List Char)
  | [] => [[c]]
  | part :: rest => (c :: part) :: rest

/-- Cuts a text at each pair of underscores. -/
def cut : List Char → List (List Char)
  | [] => [[]]
  | '_' :: '_' :: rest => [] :: cut rest
  | c :: rest => extendFirst c (cut rest)

/-- The locus of a key. -/
def ofKey (key : String) : Locus :=
  if key = "" then [] else (cut key.toList).map String.ofList

end Locus

end StarQpu
