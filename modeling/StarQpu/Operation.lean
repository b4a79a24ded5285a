import StarQpu.Json.Basic

/-!
# StarQpu.Operation

**The table of native operations.** A row says how many components an operation acts on, which
arguments it takes, whether its loci have a direction and how a locus is checked against an
architecture. Two rows carry names that are no longer current; they name the row that replaced them.
-/

namespace StarQpu

/-- How the locus of an instruction is checked against an architecture. -/
inductive LocusCheck where
  /-- No calibration is needed; every component only has to exist. -/
  | skip
  /-- Each component has to appear in some calibrated locus, in any combination. -/
  | anyCombination
  /-- The locus has to be a calibrated one, in either direction unless the operation has one. -/
  | exact
  deriving DecidableEq

/-- The type of an argument. -/
inductive ArgumentType where
  | string
  | number
  deriving DecidableEq

/-- Does the value have this type? -/
def ArgumentType.accepts : ArgumentType → Json → Bool
  | .string, .str _ => true
  | .number, .num _ => true
  | _, _ => false

/-- The name of the type. -/
def ArgumentType.name : ArgumentType → String
  | .string => "string"
  | .number => "number"

/-- A row of the table. -/
structure Operation where
  name : String
  /-- The number of components, or none if there may be any number. -/
  arity : Option Nat
  /-- The arguments, in the order of the signature. -/
  args : List (String × ArgumentType)
  /-- Do the loci have a direction? -/
  directed : Bool
  locusCheck : LocusCheck
  /-- The current name, when this one is no longer used. -/
  renamedTo : Option String
  deriving DecidableEq

namespace Operation

/-- A barrier over any number of components. -/
def barrier : Operation := ⟨"barrier", none, [], false, .skip, none⟩

/-- The controlled-Z gate. -/
def cz : Operation := ⟨"cz", some 2, [], false, .exact, none⟩

/-- Moves the state of a qubit into a resonator, or back out of it. -/
def move : Operation := ⟨"move", some 2, [], true, .exact, none⟩

/-- Measures qubits under a key. -/
def measure : Operation := ⟨"measure", none, [("key", .string)], false, .anyCombination, none⟩

/-- A phased rotation about the x axis. -/
def prx : Operation :=
  ⟨"prx", some 1, [("angle_t", .number), ("phase_t", .number)], false, .exact, none⟩

/-- All operations, in the order in which messages list them. -/
def table : List Operation :=
  [barrier, cz, move, measure,
    { measure with name := "measurement", renamedTo := some "measure" },
    prx, { prx with name := "phased_rx", renamedTo := some "prx" }]

/-- The row of a name, current or not. -/
def find? (name : String) : Option Operation := table.find? (·.name = name)

/-- The name the operation has now. -/
def currentName (op : Operation) : String := op.renamedTo.getD op.name

end Operation

/-- The current name of an operation; a name that is not in the table stays as it is. -/
def currentName (name : String) : String :=
  match Operation.find? name with
  | some op => op.renamedTo.getD name
  | none => name

/-- Does the operation act on a fixed number of components, and more than one? -/
def isMultiQubit (name : String) : Bool :=
  match Operation.find? name with
  | some { arity := some n, .. } => 1 < n
  | _ => false

/-- Do the loci of the operation have a direction? -/
def isDirected (name : String) : Bool :=
  match Operation.find? name with
  | some op => op.directed
  | none => false

end StarQpu
