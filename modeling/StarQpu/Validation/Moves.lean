import StarQpu.Validation.Basic

/-!
# StarQpu.Validation.Moves

**Checking MOVE sandwiches.** A MOVE takes the state of a qubit into an empty resonator, and the
next MOVE of that resonator takes it back. Until then the qubit is off limits: how far, the mode
says. A circuit is walked with the current occupation of the resonators; nothing may be left in a
resonator at the end.
-/

namespace StarQpu

/-- Which instructions may act on a qubit while a resonator holds its state. -/
inductive MoveValidation where
  /-- Barriers only. -/
  | strict
  /-- Barriers and rotations. -/
  | allowPrx
  /-- Sandwiches are not checked at all. -/
  | unchecked
  deriving DecidableEq, Inhabited

/-- The name of the mode. -/
def MoveValidation.name : MoveValidation → String
  | .strict => "strict"
  | .allowPrx => "allow_prx"
  | .unchecked => "none"

/-- The names of the modes. -/
def MoveValidation.names : List (String × MoveValidation) :=
  [("strict", .strict), ("allow_prx", .allowPrx), ("none", .unchecked)]

/-- May the instruction act on qubits whose states are in resonators? -/
def MoveValidation.tolerates (mode : MoveValidation) (i : Instruction) : Bool :=
  match i.action with
  | .barrier _ => true
  | .prx _ _ _ => mode = .allowPrx
  | _ => false

/-- Occupied resonators with the qubits whose states they hold. -/
abbrev Occupation := Table String String

namespace Occupation

/-- Is the state of the qubit in a resonator? -/
def holds (o : Occupation) (qubit : String) : Bool := o.values.contains qubit

/-- The occupation without the resonator. -/
def release (o : Occupation) (resonator : String) : Occupation :=
  o.filter fun r _ => r ≠ resonator

/-- The occupation after a MOVE. -/
def move (o : Occupation) (qubit resonator : String) : Except Violation Occupation :=
  match o.get? resonator with
  | none =>
    if o.holds qubit then .error (.stateElsewhere [qubit, resonator] qubit o.entries)
    else .ok (o.insert resonator qubit)
  | some occupant =>
    if occupant = qubit then .ok (o.release resonator)
    else .error (.occupiedResonator [qubit, resonator] o.entries)

/-- The occupation after an instruction. A MOVE has to go from one of the `qubits` to one of the
`resonators`. -/
def step (qubits resonators : List String) (mode : MoveValidation) (o : Occupation)
    (i : Instruction) : Except Violation Occupation :=
  match i.action with
  | .move qubit resonator =>
    if qubits.contains qubit && resonators.contains resonator then o.move qubit resonator
    else .error (.strayMove [qubit, resonator])
  | _ =>
    let held := i.qubits.filter o.holds
    if mode.tolerates i || held.isEmpty then .ok o
    else .error (.heldState i.name i.qubits held o.entries)

/-- The occupation after a list of instructions. -/
def run (qubits resonators : List String) (mode : MoveValidation) :
    Occupation → List Instruction → Except Violation Occupation
  | o, [] => .ok o
  | o, i :: rest => do
    let next ← o.step qubits resonators mode i
    run qubits resonators mode next rest

end Occupation

/-- Checks that the MOVEs of a list of instructions form sandwiches. With a mapping the names are
logical. -/
def validateMoveList (a : DynamicArchitecture) (instructions : List Instruction)
    (mapping : Option QubitMapping) (mode : MoveValidation) : Except Violation Unit :=
  if mode = .unchecked then .ok ()
  else if !a.supportsMove then
    if instructions.any (·.isMove) then .error .unsupportedMoves else .ok ()
  else do
    let logical := renamed ((mapping.map (·.inverse)).getD .empty)
    let left ← Occupation.run (a.qubits.map logical) (a.resonators.map logical) mode .empty
      instructions
    if left.entries.isEmpty then pure () else throw (.unfinished left.entries)

/-- Checks that the MOVEs of a circuit form sandwiches. -/
def validateMoves (a : DynamicArchitecture) (c : Circuit) (mapping : Option QubitMapping)
    (mode : MoveValidation) : Except Violation Unit :=
  validateMoveList a c.instructions mapping mode

/-! ### Batches of circuits -/

/-- Checks instructions one after the other, and that no measurement key is met twice. -/
def validateBody (a : DynamicArchitecture) (mapping : Option QubitMapping) (circuit : String) :
    List String → List Instruction → Except Violation Unit
  | _, [] => .ok ()
  | seen, i :: rest => do
    validateInstruction a i mapping
    match i.measurementKey? with
    | some key =>
      if seen.contains key then throw (.repeatedKey circuit i.name i.qubits key)
      else validateBody a mapping circuit (key :: seen) rest
    | none => validateBody a mapping circuit seen rest

/-- Checks a circuit: each instruction, the keys of its measurements, its MOVEs. -/
def validateCircuit (a : DynamicArchitecture) (mapping : Option QubitMapping)
    (mode : MoveValidation) (c : Circuit) : Except Violation Unit := do
  validateBody a mapping c.name [] c.instructions
  validateMoves a c mapping mode

/-- Checks circuits one after the other. -/
def validateCircuits (a : DynamicArchitecture) (circuits : List Circuit)
    (mapping : Option QubitMapping) (mode : MoveValidation) : Except Violation Unit :=
  circuits.forM (validateCircuit a mapping mode)

end StarQpu
