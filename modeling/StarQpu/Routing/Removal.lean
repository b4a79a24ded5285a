import StarQpu.Log
import StarQpu.Routing.ResonatorBank

/-!
# StarQpu.Routing.Removal

**Removing MOVEs.** The circuit is walked with a bank of the resonators its own MOVEs use. A MOVE is
applied and dropped; in any other instruction each resonator is replaced by the qubit whose state it
holds at that point. An instruction that changed this way loses the implementation it asked for,
which was calibrated for another locus. An instruction on an empty resonator has no meaning without
MOVEs: it is kept and a warning is logged. `removalPrecondition` is the check that rejects such
circuits instead.
-/

namespace StarQpu

/-- The first component of the locus that is an empty tracked resonator. -/
def emptyResonatorIn? (b : ResonatorBank) (locus : Locus) : Option String :=
  locus.find? fun c => b.holder? c = some c

/-- The part of the program that speaks in events about routing. -/
def routingOrigin : String := "iqm_compile::transpile"

/-- The warning about an instruction on an empty resonator. -/
def emptyResonatorWarning (circuit instruction resonator : String) : Event :=
  ⟨.warn, routingOrigin, "instruction uses a resonator that holds no qubit state",
    [("circuit", .text circuit), ("instruction", .text instruction),
      ("resonator", .text resonator)]⟩

/-- The instruction on the qubits whose states are in the resonators it names. -/
def resolveInstruction (b : ResonatorBank) (i : Instruction) : Instruction :=
  if i.qubits.map b.resolve = i.qubits then i
  else (i.mapQubits b.resolve).withoutImplementation

/-- The instructions without MOVEs, from a given state of the resonators on. -/
def removeFrom (circuit : String) : ResonatorBank → List Instruction →
    Logged RoutingError (List Instruction)
  | _, [] => pure []
  | b, i :: rest =>
    match i.action with
    | .move q r => do
      let next ← b.apply q r
      removeFrom circuit next rest
    | _ => do
      match emptyResonatorIn? b i.qubits with
      | some resonator => Logged.tell (emptyResonatorWarning circuit i.name resonator)
      | none => pure ()
      let more ← removeFrom circuit b rest
      pure (resolveInstruction b i :: more)

/-- The circuit with other instructions. -/
def Circuit.withBody (c : Circuit) (instructions : List Instruction) :
    Except RoutingError Circuit :=
  (c.withInstructions instructions).mapError .build

/-- The circuit without its MOVEs. There has to be another instruction. -/
def removeMoves (c : Circuit) : Logged RoutingError Circuit := do
  let instructions ← removeFrom c.name (.ofCircuit c) c.instructions
  if instructions.isEmpty then throw (.transpilation (.onlyMoves c.name))
  else c.withBody instructions

/-- Checks, from a given state of the resonators on, that every resonator holds a state when an
instruction uses it. -/
def checkRemovable : ResonatorBank → List Instruction → Except RoutingError Unit
  | _, [] => .ok ()
  | b, i :: rest =>
    match i.action with
    | .move q r => do
      let next ← b.apply q r
      checkRemovable next rest
    | _ =>
      match emptyResonatorIn? b i.qubits with
      | some resonator => .error (.validation (.emptyResonator i.name i.qubits resonator))
      | none => checkRemovable b rest

/-- Checks that removing the MOVEs of the circuit keeps its meaning: every resonator holds a state
whenever it is used. -/
def removalPrecondition (c : Circuit) : Except RoutingError Unit :=
  checkRemovable (.ofCircuit c) c.instructions

end StarQpu
