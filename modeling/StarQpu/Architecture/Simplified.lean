import StarQpu.Routing.ResonatorBank

/-!
# StarQpu.Architecture.Simplified

**An architecture without its resonators.** A gate between `q` and a resonator, together with a MOVE
of `p` to that resonator, realizes the gate between `q` and `p`. So a locus with a resonator stands
for one locus per qubit that has a MOVE to it. What involves resonators in any other way disappears,
and so do implementations and gates that are left without loci.
-/

namespace StarQpu

/-- The loci that a calibrated locus stands for once resonators are abstracted away. -/
def simplifyLocus (a : DynamicArchitecture) (b : ResonatorBank) (locus : Locus) : List Locus :=
  if !locus.any a.isResonator then [locus]
  else
    match locus with
    | [first, second] =>
      if a.isResonator second then
        if a.isResonator first then []
        else ((b.qubitsOf second).filter (· ≠ first)).map fun p => [first, p]
      else ((b.qubitsOf first).filter (· ≠ second)).map fun p => [p, second]
    | _ => []

/-- The simplified loci of an implementation, if any are left. -/
def simplifyLoci (a : DynamicArchitecture) (b : ResonatorBank) (loci : List Locus) :
    Option (List Locus) :=
  match sortLoci (loci.flatMap (simplifyLocus a b)) with
  | [] => none
  | first :: rest => some (first :: rest)

/-- The simplified gate, if an implementation is left. A default implementation that is not left is
replaced by the first one. -/
def simplifyGate (a : DynamicArchitecture) (b : ResonatorBank) (g : GateInfo) : Option GateInfo :=
  let implementations := g.implementations.filterMap fun _ loci => simplifyLoci a b loci
  match implementations.keys with
  | [] => none
  | first :: _ =>
    some {
      implementations
      defaultImplementation :=
        if implementations.contains g.defaultImplementation then g.defaultImplementation else first
      overrides := g.overrides.filter fun locus _ => !locus.any a.isResonator }

/-- The architecture without its resonators and without MOVE; one that has no resonators stays as it
is. -/
def simplifiedArchitecture (a : DynamicArchitecture) : DynamicArchitecture :=
  if a.resonators.isEmpty then a
  else
    let b := ResonatorBank.ofArchitecture a
    { a with
      resonators := []
      gates := a.gates.filterMap fun name g => if name = "move" then none else simplifyGate a b g }

end StarQpu
