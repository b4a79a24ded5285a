import StarQpu.Locus.NaturalOrder

/-!
# StarQpu.Proofs.Locus.NaturalOrder

**The natural order is a total order.** Runs are compared by three keys, one after the other
(`Run.compare_eq`), names by their runs and then by their code points (`compareNames_eq`), loci name
by name (`compareLoci_eq`). So each comparison inherits its laws from the ones that it is made of.
Runs that write one number are equal to the comparison of runs; names and loci are equal to theirs
only if they are the same.
-/

namespace StarQpu

namespace NaturalOrder

/-! ### Runs -/

/-- Digits come before other characters. -/
def Run.kind : Run → Nat
  | .digits _ => 0
  | .letters _ => 1

/-- Of two numbers the one with more digits is larger. -/
def Run.magnitude : Run → Nat
  | .digits ds => (significantDigits ds).length
  | .letters _ => 0

/-- The characters that decide between runs of one kind and magnitude. -/
def Run.significant : Run → List Char
  | .digits ds => significantDigits ds
  | .letters cs => cs

theorem Run.compare_eq : Run.compare =
    compareLex (compareOn Run.kind) (compareLex (compareOn Run.magnitude)
      (compareOn Run.significant)) := by
  funext x y
  cases x <;> cases y <;> rfl

instance : Ord Run := ⟨Run.compare⟩

instance : Std.TransOrd Run := by
  show Std.TransCmp Run.compare
  rw [Run.compare_eq]
  infer_instance

theorem compareRuns_eq : compareRuns = compare := by
  funext xs ys
  -- both walk the two lists in step
  induction xs generalizing ys with
  | nil => cases ys <;> rfl
  | cons x xs ih =>
      cases ys with
      | nil => rfl
      | cons y ys =>
          rw [compareRuns, ih, List.compare_cons_cons]
          rfl

end NaturalOrder

open NaturalOrder

/-! ### Names -/

theorem compareNames_eq : compareNames =
    compareLex (compareOn fun name => runs name.toList) compare := by
  funext a b
  rw [compareNames, compareRuns_eq]
  rfl

instance : Std.TransCmp compareNames := by
  rw [compareNames_eq]
  infer_instance

instance : Std.LawfulEqCmp compareNames where
  eq_of_compare := by
    intro a b h
    rw [compareNames, Ordering.then_eq_eq] at h
    exact Std.LawfulEqCmp.eq_of_compare h.2

/-! ### Loci -/

theorem compareLoci_eq : compareLoci = List.compareLex compareNames := by
  funext xs ys
  induction xs generalizing ys with
  | nil => cases ys <;> rfl
  | cons x xs ih =>
      cases ys with
      | nil => rfl
      | cons y ys =>
          rw [compareLoci, ih, List.compareLex_cons_cons]

instance : Std.TransCmp compareLoci := by
  rw [compareLoci_eq]
  infer_instance

instance : Std.LawfulEqCmp compareLoci := by
  rw [compareLoci_eq]
  infer_instance

end StarQpu
