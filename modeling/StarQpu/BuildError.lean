import StarQpu.Operation
import StarQpu.Text.Quoted

/-!
# StarQpu.BuildError

**Why an instruction, a circuit or an architecture cannot be built.**
-/

namespace StarQpu

/-- What is wrong with the description of an architecture. -/
inductive ArchitectureFlaw where
  /-- A name stands for a qubit and for a resonator. -/
  | sharedName (component : String)
  /-- A calibrated locus names a component that does not exist. -/
  | unknownComponent (locus : List String) (gate implementation component : String)
  /-- The architecture has no name. -/
  | emptyName
  deriving DecidableEq

/-- Why an instruction, a circuit or an architecture cannot be built. -/
inductive BuildError where
  /-- The name is not in the table of operations. -/
  | unknownInstruction (name : String)
  /-- An implementation is asked for by the empty name. -/
  | emptyImplementation
  /-- The number of components is not that of the operation. -/
  | arity (name : String) (expected : Nat) (qubits : List String)
  /-- The arguments are not those of the signature. -/
  | argumentNames (name : String) (expected given : List String)
  /-- An argument has the wrong type. -/
  | argumentType (argument : String) (expected : ArgumentType) (given : String)
  /-- A circuit has no name. -/
  | emptyCircuitName
  /-- A circuit has no instructions. -/
  | emptyCircuit
  /-- An architecture contradicts itself. -/
  | invalidArchitecture (flaw : ArchitectureFlaw)
  deriving DecidableEq

/-- The text of a flaw. -/
def ArchitectureFlaw.message : ArchitectureFlaw → String
  | .sharedName component =>
    s!"{component} is listed both as a qubit and as a computational resonator"
  | .unknownComponent locus gate implementation component =>
    "locus " ++ Text.quotedList locus ++
      s!" of {gate}.{implementation} uses unknown component {component}"
  | .emptyName => "architecture name must not be empty"

/-- Argument names as messages list them. -/
def nameList (names : List String) : String :=
  let joined := Text.commaSeparated names
  if joined = "" then "no" else joined

/-- The text of the error. -/
def BuildError.message : BuildError → String
  | .unknownInstruction name =>
    let supported := Text.commaSeparated (Operation.table.map (·.name))
    s!"Unknown instruction \"{name}\". Supported instructions are \"{supported}\""
  | .emptyImplementation =>
    "Implementation of the instruction should be None, or a non-empty string"
  | .arity name expected qubits =>
    s!"The \"{name}\" instruction acts on {expected} qubit(s), but {qubits.length} were given: " ++
      Text.quotedList qubits
  | .argumentNames name expected given =>
    s!"The instruction \"{name}\" requires {nameList expected} argument(s), " ++
      s!"but {nameList given} were given"
  | .argumentType argument expected given =>
    s!"The argument \"{argument}\" should be of type {expected.name}, but {given} was given"
  | .emptyCircuitName => "A circuit should have a non-empty string for a name."
  | .emptyCircuit => "Each circuit should have at least one instruction."
  | .invalidArchitecture flaw => s!"Invalid quantum architecture: {flaw.message}"

end StarQpu
