import StarQpu.Circuit
import StarQpu.QubitMapping
import StarQpu.Routing.Error

/-!
# StarQpu.Routing.ResonatorBank

**Who holds what while MOVEs are applied.** A resonator holds the state of at most one qubit at a
time. The bank lists the resonators with the qubits that have a MOVE to them and, for each, its
*holder*: the component whose state it holds, which is the resonator itself as long as it is empty.
A MOVE toggles the holder between the resonator and the qubit; it is refused where it would mix or
copy states.
-/

namespace StarQpu

/-- A resonator as the bank tracks it. -/
structure Resonator where
  name : String
  /-- The qubits with a MOVE to it. -/
  qubits : List String
  /-- The component whose state it holds; itself when it is empty. -/
  holder : String
  deriving DecidableEq

/-- The tracked resonators, in order. -/
structure ResonatorBank where
  resonators : List Resonator
  deriving DecidableEq

namespace ResonatorBank

/-! ### Setting up -/

/-- The items of `extra` that are not there yet, behind `known`. -/
def addMissing (known : List String) : List String → List String
  | [] => known
  | q :: rest => addMissing (if known.contains q then known else known ++ [q]) rest

/-- Adds qubits to a resonator of the list, or an empty resonator behind it. -/
def addTo (name : String) (qubits : List String) : List Resonator → List Resonator
  | [] => [⟨name, qubits, name⟩]
  | r :: rest =>
    if r.name = name then { r with qubits := addMissing r.qubits qubits } :: rest
    else r :: addTo name qubits rest

/-- A bank of empty resonators from names and qubits. A name that is met again adds its new
qubits. -/
def ofPairs (pairs : List (String × List String)) : ResonatorBank :=
  ⟨pairs.foldl (fun rs (name, qubits) => addTo name qubits rs) []⟩

/-- The qubit of a MOVE locus of the resonator. -/
def qubitOfMove? (resonator : String) : Locus → Option String
  | [q, r] => if r = resonator then some q else none
  | _ => none

/-- The resonators of an architecture, in the order in which it lists them, with the qubits of their
calibrated MOVE loci. -/
def ofArchitecture (a : DynamicArchitecture) : ResonatorBank :=
  let loci := a.moveLoci
  ofPairs (a.resonators.map fun r => (r, loci.filterMap (qubitOfMove? r)))

/-- The resonator of a MOVE, with its qubit. -/
def pairOfMove? (i : Instruction) : Option (String × List String) :=
  match i.action with
  | .move q r => some (r, [q])
  | _ => none

/-- The resonators of the MOVEs among the instructions, in the order in which they are met. -/
def ofInstructions (instructions : List Instruction) : ResonatorBank :=
  ofPairs (instructions.filterMap pairOfMove?)

/-- The resonators of the MOVEs of a circuit. -/
def ofCircuit (c : Circuit) : ResonatorBank := ofInstructions c.instructions

/-! ### Questions -/

/-- The tracked resonator of a name. -/
def find? (b : ResonatorBank) (name : String) : Option Resonator :=
  b.resonators.find? (·.name = name)

/-- Is the component a tracked resonator? -/
def tracks (b : ResonatorBank) (component : String) : Bool := (b.find? component).isSome

/-- The qubits with a MOVE to the resonator. -/
def qubitsOf (b : ResonatorBank) (resonator : String) : List String :=
  match b.find? resonator with
  | some r => r.qubits
  | none => []

/-- The component whose state the resonator holds. -/
def holder? (b : ResonatorBank) (resonator : String) : Option String :=
  (b.find? resonator).map (·.holder)

/-- The component whose state is found where the circuit says `component`: the holder of a tracked
resonator, any other component itself. -/
def resolve (b : ResonatorBank) (component : String) : String :=
  (b.holder? component).getD component

/-- Is any MOVE possible? -/
def supportsMove (b : ResonatorBank) : Bool := b.resonators.any fun r => !r.qubits.isEmpty

/-- Does a resonator other than the given one hold the state of the component? -/
def heldElsewhere (b : ResonatorBank) (component resonator : String) : Bool :=
  b.resonators.any fun r => r.name ≠ resonator && r.holder = component

/-- The resonators that hold the state of one of the qubits. -/
def holding (b : ResonatorBank) (qubits : List String) : List String :=
  (b.resonators.filter fun r => qubits.contains r.holder && !b.tracks r.holder).map (·.name)

/-! ### Moving -/

/-- The bank with another holder of a resonator. -/
def setHolder (b : ResonatorBank) (resonator holder : String) : ResonatorBank :=
  ⟨b.resonators.map fun r => if r.name = resonator then { r with holder } else r⟩

/-- May the state of the qubit be moved into the resonator, or back out of it? -/
def allows (b : ResonatorBank) (qubit resonator : String) : Bool :=
  match b.find? resonator with
  | none => false
  | some r =>
    !b.heldElsewhere qubit resonator && r.qubits.contains qubit &&
      (r.holder = qubit || r.holder = resonator)

/-- Applies a MOVE, which has to be allowed. -/
def applied? (b : ResonatorBank) (qubit resonator : String) : Option ResonatorBank :=
  if b.allows qubit resonator then
    some (b.setHolder resonator (if b.holder? resonator = some resonator then qubit else resonator))
  else none

/-- Applies a MOVE, or fails. -/
def apply (b : ResonatorBank) (qubit resonator : String) : Except RoutingError ResonatorBank :=
  match b.applied? qubit resonator with
  | some next => .ok next
  | none => .error (.transpilation .moveNotAllowed)

/-- Applies the MOVE of an instruction, if it is one. -/
def follow (b : ResonatorBank) (i : Instruction) : Except RoutingError ResonatorBank :=
  match i.action with
  | .move q r => b.apply q r
  | _ => .ok b

/-- Applies MOVEs in order until one is refused: whether all were applied, and the bank after those
that were. -/
def applyAll (b : ResonatorBank) : List (String × String) → Bool × ResonatorBank
  | [] => (true, b)
  | (q, r) :: rest =>
    match b.applied? q r with
    | some next => next.applyAll rest
    | none => (false, b)

/-- The MOVEs that bring the state of the qubit into the resonator. A state of another qubit that is
there has to leave first. -/
def plan (b : ResonatorBank) (qubit resonator : String) : List (String × String) :=
  match b.holder? resonator with
  | some holder =>
    if holder ≠ qubit ∧ holder ≠ resonator then [(holder, resonator), (qubit, resonator)]
    else [(qubit, resonator)]
  | none => [(qubit, resonator)]

/-- MOVEs as instructions on renamed components. -/
def moveInstructions (names : Table String String) (moves : List (String × String)) :
    List Instruction :=
  moves.map fun (q, r) => .move (renamed names q) (renamed names r)

/-- Applies planned MOVEs and returns them as instructions. When one is refused, the bank keeps
those before it. -/
def perform (b : ResonatorBank) (names : Table String String) (moves : List (String × String)) :
    Except RoutingError (List Instruction) × ResonatorBank :=
  match b.applyAll moves with
  | (true, next) => (.ok (moveInstructions names moves), next)
  | (false, next) => (.error (.transpilation .moveNotAllowed), next)

/-- Brings the state of the qubit into the resonator, or back out of it. -/
def bring (b : ResonatorBank) (qubit resonator : String) (names : Table String String) :
    Except RoutingError (List Instruction) × ResonatorBank :=
  b.perform names (b.plan qubit resonator)

/-- The occupied resonators in the scope (all resonators if there is none) with the components whose
states they hold. -/
def occupied (b : ResonatorBank) (scope : Option (List String)) : List (String × String) :=
  b.resonators.filterMap fun r =>
    if scope.all (·.contains r.name) && r.holder ≠ r.name then some (r.holder, r.name) else none

/-- Brings states one after the other. -/
def bringAll (b : ResonatorBank) (names : Table String String) :
    List (String × String) → Except RoutingError (List Instruction) × ResonatorBank
  | [] => (.ok [], b)
  | (q, r) :: rest =>
    match b.bring q r names with
    | (.error e, next) => (.error e, next)
    | (.ok moves, next) =>
      match next.bringAll names rest with
      | (.error e, last) => (.error e, last)
      | (.ok more, last) => (.ok (moves ++ more), last)

/-- Moves every state in the scope back to its qubit. -/
def reset (b : ResonatorBank) (scope : Option (List String)) (names : Table String String) :
    Except RoutingError (List Instruction) × ResonatorBank :=
  b.bringAll names (b.occupied scope)

/-! ### Choosing -/

/-- For each of the qubits, once, the resonators it has a MOVE to. -/
def reachable (b : ResonatorBank) (qubits : List String) : List (String × List String) :=
  (addMissing [] qubits).map fun q =>
    (q, (b.resonators.filter (·.qubits.contains q)).map (·.name))

/-- The number of controlled-Z gates on the qubit before the first other instruction on it. -/
def czScore (qubit : String) : List Instruction → Nat
  | [] => 0
  | i :: rest =>
    if i.qubits.contains qubit then if i.isCz then czScore qubit rest + 1 else 0
    else czScore qubit rest

/-- All pairs of a resonator and one of the qubits that has a MOVE to it. -/
def pairs (b : ResonatorBank) (qubits : List String) : List (String × String) :=
  (b.reachable qubits).flatMap fun (q, rs) => rs.map (·, q)

/-- The pairs, best first: a pair is the better the more controlled-Z gates are to come on its qubit
before another instruction; equally good pairs stay in order. -/
def rankedPairs (b : ResonatorBank) (qubits : List String) (lookahead : List Instruction) :
    List (String × String) :=
  let scored := (b.pairs qubits).map fun p => (czScore p.2 lookahead, p)
  (scored.mergeSort fun x y => y.1 ≤ x.1).map (·.2)

/-- The ranked pairs, of which there has to be one. -/
def choose (b : ResonatorBank) (qubits : List String) (lookahead : List Instruction) :
    Except RoutingError (List (String × String)) :=
  match b.rankedPairs qubits lookahead with
  | [] => .error (.transpilation (.noSharedResonator qubits))
  | p :: ps => .ok (p :: ps)

end ResonatorBank

end StarQpu
