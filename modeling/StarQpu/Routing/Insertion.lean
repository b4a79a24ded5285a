import StarQpu.Routing.Removal
import StarQpu.Validation.Moves

/-!
# StarQpu.Routing.Insertion

**Inserting MOVEs.** On a star-shaped processor two-qubit gates act between a qubit and a resonator;
a second qubit takes part by having its state moved into the resonator first. The router walks the
instructions with a bank of the resonators:

* an instruction other than a controlled-Z or a MOVE that touches a qubit whose state is held first
  gets these states back;
* an instruction that is calibrated as it stands is kept;
* a controlled-Z that is not is made to act on a resonator, with the state of one of its qubits
  moved there. The qubit with the most controlled-Z gates to come is preferred, and a state that is
  in a resonator already stays there.

At the end all states are moved back. The result is written in the names of the circuit.
-/

namespace StarQpu

/-- How MOVEs that a circuit already has are treated. -/
inductive ExistingMoves where
  /-- They are validated strictly and stay. -/
  | keep
  /-- They stay as they are. -/
  | trust
  /-- They are removed first. -/
  | remove
  deriving DecidableEq

/-- The name of the treatment. -/
def ExistingMoves.name : ExistingMoves → String
  | .keep => "keep"
  | .trust => "trust"
  | .remove => "remove"

/-- The names of the treatments. -/
def ExistingMoves.names : List (String × ExistingMoves) :=
  [("keep", .keep), ("trust", .trust), ("remove", .remove)]

/-- The treatment of a name. -/
def ExistingMoves.ofName (text : String) : Except RoutingError ExistingMoves :=
  match ExistingMoves.names.lookup text with
  | some e => .ok e
  | none => .error (.configuration (.unknownHandling text))

/-- The way of validating MOVEs of a name. -/
def MoveValidation.ofName (text : String) : Except RoutingError MoveValidation :=
  match MoveValidation.names.lookup text with
  | some m => .ok m
  | none => .error (.configuration (.unknownValidation text))

/-- What the router knows of the processor and the names of the circuit. -/
structure RoutingContext where
  architecture : DynamicArchitecture
  /-- Names of the circuit to physical names. -/
  mapping : QubitMapping
  /-- Physical names to names of the circuit. -/
  names : Table String String

namespace RoutingContext

/-- The context of an architecture and a mapping, completed by the components it does not target. -/
def ofMapping (a : DynamicArchitecture) (mapping : Option QubitMapping) : RoutingContext :=
  let m := (mapping.getD .empty).complete a
  ⟨a, m, m.inverse⟩

/-- Checks an instruction in the names of the circuit. -/
def validate (x : RoutingContext) (i : Instruction) : Except Violation Unit :=
  validateInstruction x.architecture i (some x.mapping)

/-- The name of the circuit for a physical component. -/
def logical (x : RoutingContext) (component : String) : String := renamed x.names component

/-- The first component without an entry in the mapping. -/
def unmapped? (x : RoutingContext) (i : Instruction) : Option String :=
  i.qubits.find? fun q => !x.mapping.contains q

/-- The instruction in physical names. -/
def physical (x : RoutingContext) (i : Instruction) : Except RoutingError Instruction :=
  match x.unmapped? i with
  | some q => .error (.transpilation (.unmapped q))
  | none => .ok (i.mapQubits (renamed x.mapping))

/-- The instructions in physical names. -/
def physicalAll (x : RoutingContext) (instructions : List Instruction) :
    Except RoutingError (List Instruction) :=
  instructions.mapM x.physical

/-- The controlled-Z that replaces one on `qubits` when the state of `moved` is in the resonator: it
acts on the other qubit and the resonator, in the names of the circuit. -/
def substitute? (x : RoutingContext) (qubits : Locus) (resonator moved : String) :
    Option Instruction :=
  (qubits.find? (· ≠ moved)).map fun partner =>
    .cz (x.logical partner) (x.logical resonator)

/-- The first of the pairs that leads to a calibrated controlled-Z, with that instruction. -/
def usablePair? (x : RoutingContext) (qubits : Locus) :
    List (String × String) → Option (String × String × Instruction)
  | [] => none
  | (resonator, moved) :: rest =>
    match x.substitute? qubits resonator moved with
    | some i =>
      if (x.validate i).isOk then some (resonator, moved, i) else x.usablePair? qubits rest
    | none => x.usablePair? qubits rest

/-- Moves states back to their qubits: the MOVEs and the bank after them. -/
def giveBack (x : RoutingContext) (b : ResonatorBank) (scope : Option (List String)) :
    Except RoutingError (List Instruction × ResonatorBank) :=
  match b.reset scope x.names with
  | (.ok moves, next) => .ok (moves, next)
  | (.error e, _) => .error e

/-- Brings a state into a resonator unless it is there: the MOVEs and the bank after them. -/
def fetch (x : RoutingContext) (b : ResonatorBank) (moved resonator : String) :
    Except RoutingError (List Instruction × ResonatorBank) :=
  if b.holder? resonator = some moved then .ok ([], b)
  else
    match b.bring moved resonator x.names with
    | (.ok moves, next) => .ok (moves, next)
    | (.error e, _) => .error e

/-- Routes a controlled-Z through a resonator. `qubits` is its physical locus and `lookahead` are
the physical instructions from it on. The candidates for moving are the states that are held, or
else all its qubits; held states that are not used are given back. -/
def throughResonator (x : RoutingContext) (b : ResonatorBank) (qubits : Locus)
    (lookahead : List Instruction) : Except RoutingError (List Instruction × ResonatorBank) := do
  let held := b.holding qubits
  let sources := if held.isEmpty then qubits else held.filterMap b.holder?
  let candidates ← b.choose sources lookahead
  match x.usablePair? qubits candidates with
  | none => throw (.transpilation .noValidPair)
  | some (resonator, moved, i) =>
    let (back, b) ← x.giveBack b (some (held.filter (· ≠ resonator)))
    let (into, b) ← x.fetch b moved resonator
    pure (back ++ into ++ [i], b)

/-- What becomes of one instruction: the instructions in its place and the bank after them.
`lookahead` starts with the instruction itself in physical names. -/
def route (x : RoutingContext) (b : ResonatorBank) (i : Instruction) (qubits : Locus)
    (lookahead : List Instruction) : Except RoutingError (List Instruction × ResonatorBank) :=
  let held := b.holding qubits
  if !held.isEmpty && !i.isCz && !i.isMove then do
    let (back, b) ← x.giveBack b (some held)
    pure (back ++ [i], b)
  else
    match x.validate i with
    | .ok () => do
      let b ← b.follow (i.mapQubits (renamed x.mapping))
      pure ([i], b)
    | .error v =>
      if i.isCz then x.throughResonator b qubits lookahead
      else .error (.transpilation (.invalid v))

/-- What becomes of instructions; the second list holds the same instructions in physical names. -/
def routeAll (x : RoutingContext) : ResonatorBank → List Instruction → List Instruction →
    Except RoutingError (List Instruction × ResonatorBank)
  | b, i :: rest, p :: physical => do
    let (out, b) ← x.route b i p.qubits (p :: physical)
    let (more, b) ← x.routeAll b rest physical
    pure (out ++ more, b)
  | b, _, _ => .ok ([], b)

/-- The instructions with MOVEs inserted, from empty resonators to empty resonators. -/
def insertInto (x : RoutingContext) (instructions : List Instruction) :
    Except RoutingError (List Instruction) := do
  let physical ← x.physicalAll instructions
  let bank := ResonatorBank.ofArchitecture x.architecture
  let (out, bank) ← x.routeAll bank instructions physical
  let (back, _) ← x.giveBack bank none
  pure (out ++ back)

end RoutingContext

/-- The warning about a circuit that has MOVEs although nothing was said about them. -/
def existingMovesWarning (circuit : String) : Event :=
  ⟨.warn, routingOrigin,
    "Circuit already contains MOVE instructions, removing them before transpiling.",
    [("circuit", .text circuit)]⟩

/-- The event of a finished insertion. -/
def insertedEvent (circuit : String) (before after : Nat) : Event :=
  ⟨.debug, routingOrigin, "inserted MOVE instructions",
    [("circuit", .text circuit), ("before", .number before), ("after", .number after)]⟩

/-- The circuit into which MOVEs are inserted. -/
def insertionSource (x : RoutingContext) (c : Circuit) :
    Option ExistingMoves → Logged RoutingError Circuit
  | none => removeMoves c
  | some .remove => removeMoves c
  | some .keep =>
    match validateMoves x.architecture c (some x.mapping) .strict with
    | .ok () => pure c
    | .error v => throw (.transpilation (.invalid v))
  | some .trust => pure c

/-- Inserts the MOVEs that a circuit needs to run on an architecture. `mapping` maps the names of
the circuit to physical names. When nothing is said about MOVEs that the circuit has, they are
removed and a warning is logged. On an architecture without MOVEs a circuit without MOVEs stays as
it is, MOVEs that are to be removed are removed, and others are an error. -/
def insertMoves (c : Circuit) (a : DynamicArchitecture) (existing : Option ExistingMoves)
    (mapping : Option QubitMapping) : Logged RoutingError Circuit := do
  let x := RoutingContext.ofMapping a mapping
  let undecided := existing.isNone && c.containsMoves
  if undecided then Logged.tell (existingMovesWarning c.name)
  let existing := if undecided then some .remove else existing
  if !(ResonatorBank.ofArchitecture a).supportsMove then
    if !c.containsMoves then pure c
    else if existing = some .remove then removeMoves c
    else throw (.configuration .movesWithoutSupport)
  else
    let source ← insertionSource x c existing
    let instructions ← x.insertInto source.instructions
    Logged.tell (insertedEvent c.name c.instructions.length instructions.length)
    source.withBody instructions

end StarQpu
