import StarQpu.BuildError
import StarQpu.Validation.Violation

/-!
# StarQpu.Routing.Error

**Why MOVEs cannot be inserted or removed.**
-/

namespace StarQpu

/-- What is asked for does not fit together. -/
inductive ConfigurationProblem where
  /-- A circuit has MOVEs that are to stay and the processor has none. -/
  | movesWithoutSupport
  /-- No way of handling MOVEs has this name. -/
  | unknownHandling (text : String)
  /-- No way of validating MOVEs has this name. -/
  | unknownValidation (text : String)
  deriving DecidableEq

/-- Why a circuit cannot be routed, or freed of its MOVEs. -/
inductive RoutingFailure where
  /-- A MOVE that the state of the resonators does not allow. -/
  | moveNotAllowed
  /-- A name without an entry in the qubit mapping. -/
  | unmapped (qubit : String)
  /-- The circuit violates the architecture in a way that MOVEs cannot repair. -/
  | invalid (v : Violation)
  /-- None of the qubits has a MOVE to a resonator. -/
  | noSharedResonator (qubits : List String)
  /-- No resonator allows the controlled-Z after a MOVE. -/
  | noValidPair
  /-- Nothing would be left of the circuit. -/
  | onlyMoves (circuit : String)
  deriving DecidableEq

/-- Why MOVEs cannot be inserted or removed. -/
inductive RoutingError where
  /-- The result would be no circuit. -/
  | build (e : BuildError)
  | configuration (p : ConfigurationProblem)
  | validation (v : Violation)
  | transpilation (f : RoutingFailure)
  deriving DecidableEq

/-- The text of a problem. -/
def ConfigurationProblem.message : ConfigurationProblem → String
  | .movesWithoutSupport =>
    "Circuit contains MOVE instructions, but device does not support them"
  | .unknownHandling text => s!"Unknown existing MOVE handling option '{text}'"
  | .unknownValidation text => s!"Unknown MOVE gate validation mode '{text}'"

/-- The text of a failure. -/
def RoutingFailure.message : RoutingFailure → String
  | .moveNotAllowed => "Attempted move is not allowed."
  | .unmapped qubit =>
    s!"Unable to transpile the circuit: qubit {qubit} is not in the qubit mapping."
  | .invalid v => "Unable to transpile the circuit after validation error: " ++ v.message
  | .noSharedResonator qubits =>
    "Unable to insert MOVE gates because none of the qubits " ++ Text.quotedList qubits ++
      " share a resonator. This can be resolved by routing the circuit first without resonators."
  | .noValidPair =>
    "Unable to find a valid resonator-qubit pair for a MOVE gate to enable this CZ gate."
  | .onlyMoves circuit =>
    s!"Circuit '{circuit}' contains only MOVE instructions and is empty without them."

/-- The text of an error. -/
def RoutingError.message : RoutingError → String
  | .build e => "IR error: " ++ e.message
  | .configuration p => p.message
  | .validation v => v.message
  | .transpilation f => f.message

end StarQpu
