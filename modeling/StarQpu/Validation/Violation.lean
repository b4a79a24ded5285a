import StarQpu.Locus.Key
import StarQpu.Text.Quoted

/-!
# StarQpu.Validation.Violation

**How a circuit can violate an architecture.** An occupation lists the occupied resonators, each
with the qubit whose state it holds.
-/

namespace StarQpu

/-- Occupied resonators with the qubits whose states they hold. -/
abbrev OccupationList := List (String × String)

/-- How a circuit violates an architecture. -/
inductive Violation where
  /-- The qubit mapping does not have the name. -/
  | unmappedQubit (qubit : String)
  /-- A component does not exist; its logical name stands beside it if there is a mapping. -/
  | missingComponent (logical : Option String) (physical : String)
  /-- The operation is not calibrated. -/
  | unsupportedOperation (operation : String)
  /-- The implementation asked for is not calibrated. -/
  | unsupportedImplementation (operation implementation : String)
  /-- The locus is not calibrated; the logical one stands beside it if there is a mapping. -/
  | forbiddenLocus (logical : Option Locus) (physical : Locus) (operation : String)
  /-- A circuit has MOVEs and the architecture does not know them. -/
  | unsupportedMoves
  /-- A MOVE that does not go from a qubit to a resonator. -/
  | strayMove (locus : Locus)
  /-- A MOVE of a state that another resonator holds. -/
  | stateElsewhere (locus : Locus) (qubit : String) (occupation : OccupationList)
  /-- A MOVE to a resonator that holds another state. -/
  | occupiedResonator (locus : Locus) (occupation : OccupationList)
  /-- An instruction on qubits whose states are in resonators. -/
  | heldState (operation : String) (locus : Locus) (held : List String)
      (occupation : OccupationList)
  /-- A circuit that ends with states in resonators. -/
  | unfinished (occupation : OccupationList)
  /-- Two measurements of a circuit under one key. -/
  | repeatedKey (circuit operation : String) (locus : Locus) (key : String)
  /-- An instruction on a resonator that holds no state. -/
  | emptyResonator (operation : String) (locus : Locus) (resonator : String)
  deriving DecidableEq

/-- The text of a violation. -/
def Violation.message : Violation → String
  | .unmappedQubit qubit => s!"Qubit {qubit} is not found in the qubit mapping."
  | .missingComponent none physical => s!"{physical} does not exist on the QPU."
  | .missingComponent (some logical) physical =>
    s!"{logical} = {physical} does not exist on the QPU."
  | .unsupportedOperation operation =>
    s!"Operation '{operation}' is not supported by the dynamic quantum architecture."
  | .unsupportedImplementation operation implementation =>
    s!"Operation '{operation}' implementation '{implementation}' is not supported by the " ++
      "dynamic quantum architecture."
  | .forbiddenLocus none physical operation =>
    Text.quotedList physical ++ s!" is not allowed as locus for '{operation}'"
  | .forbiddenLocus (some logical) physical operation =>
    Text.quotedList logical ++ " = " ++ Text.quotedList physical ++
      s!" is not allowed as locus for '{operation}'"
  | .unsupportedMoves =>
    "MOVE instruction is not supported by the given device architecture."
  | .strayMove locus =>
    "MOVE instructions are only allowed between qubit and resonator, not " ++
      Text.quotedList locus ++ "."
  | .stateElsewhere locus qubit occupation =>
    "MOVE instruction " ++ Text.quotedList locus ++
      s!": state of {qubit} is in another resonator: " ++ Text.quotedMap occupation
  | .occupiedResonator locus occupation =>
    "MOVE instruction " ++ Text.quotedList locus ++ " to an already occupied resonator: " ++
      Text.quotedMap occupation
  | .heldState operation locus held occupation =>
    s!"Instruction {operation} acts on " ++ Text.quotedList locus ++ " while the state(s) of " ++
      Text.quotedList held ++ " are in a resonator. Current resonator occupation: " ++
      Text.quotedMap occupation ++ "."
  | .unfinished occupation =>
    "Circuit ends while qubit state(s) are still in a resonator: " ++
      Text.quotedMap occupation ++ "."
  | .repeatedKey circuit operation locus key =>
    s!"Circuit \"{circuit}\": {operation} " ++ Text.quotedList locus ++
      s!" has a non-unique measurement key \"{key}\""
  | .emptyResonator operation locus resonator =>
    s!"Instruction {operation} acts on " ++ Text.quotedList locus ++
      s!" while resonator {resonator} holds no qubit state."

end StarQpu
