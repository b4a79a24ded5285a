import StarQpu.Circuit
import StarQpu.QubitMapping
import StarQpu.Architecture.Static
import StarQpu.Validation.Violation

/-!
# StarQpu.Validation.Basic

**Checking instructions against an architecture.** An instruction is checked on physical names: its
locus is mapped first. Barriers need components that exist, measurements components that are
calibrated one by one, all other instructions a calibrated locus.
-/

namespace StarQpu

/-- The physical locus of a logical one. Without a mapping the names are physical already. -/
def mapLocus (mapping : Option QubitMapping) : Locus → Except Violation Locus
  | [] => .ok []
  | q :: qs => do
    let p ←
      match mapping with
      | none => pure q
      | some m =>
        match m.get? q with
        | some p => pure p
        | none => throw (.unmappedQubit q)
    let ps ← mapLocus mapping qs
    pure (p :: ps)

/-- The first component that does not exist, with its logical name. -/
def missingComponent? (a : DynamicArchitecture) (logical physical : Locus) :
    Option (String × String) :=
  (logical.zip physical).find? fun (_, p) => !a.hasComponent p

/-- Is the locus among the calibrated ones, the way the operation demands? -/
def locusPermitted (op : Operation) (calibrated : List Locus) (locus : Locus) : Bool :=
  match op.locusCheck with
  | .anyCombination => locus.all fun c => calibrated.any (·.contains c)
  | _ =>
    if op.directed then calibrated.contains locus
    else
      let sorted := sortNames locus
      calibrated.any fun other => sortNames other == sorted

/-- The loci that are calibrated for the implementation asked for, or for any one. -/
def calibratedLoci (a : DynamicArchitecture) (operation : String)
    (implementation : Option String) : Except Violation (List Locus) :=
  match a.gates.get? operation with
  | none => .error (.unsupportedOperation operation)
  | some gate =>
    match implementation with
    | none => .ok gate.allLoci
    | some name =>
      match gate.implementations.get? name with
      | some loci => .ok loci
      | none => .error (.unsupportedImplementation operation name)

/-- The operation as messages about its locus name it. -/
def reportedName (i : Instruction) : String :=
  match i.implementation with
  | some implementation => i.name ++ "." ++ implementation
  | none => i.name

/-- Checks that an instruction can run on an architecture. -/
def validateInstruction (a : DynamicArchitecture) (i : Instruction)
    (mapping : Option QubitMapping) : Except Violation Unit := do
  let physical ← mapLocus mapping i.qubits
  let op := i.action.operation
  if op.locusCheck = .skip then
    match missingComponent? a i.qubits physical with
    | some (l, p) => throw (.missingComponent (mapping.map fun _ => l) p)
    | none => pure ()
  else
    let calibrated ← calibratedLoci a i.name i.implementation
    if locusPermitted op calibrated physical then pure ()
    else throw (.forbiddenLocus (mapping.map fun _ => i.qubits) physical (reportedName i))

end StarQpu
