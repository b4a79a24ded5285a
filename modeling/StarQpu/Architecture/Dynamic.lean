import StarQpu.BuildError
import StarQpu.Locus.Key
import StarQpu.Locus.NaturalOrder
import StarQpu.Uuid

/-!
# StarQpu.Architecture.Dynamic

**The calibrated view of a quantum processor.** It lists the qubits, the computational resonators
and, gate by gate, the loci for which each implementation of the gate has been calibrated. All
validation and routing works on this view.
-/

namespace StarQpu

/-- A gate and its calibrated implementations. -/
structure GateInfo where
  /-- Implementation name to calibrated loci. -/
  implementations : Table String (List Locus)
  /-- The implementation used unless another one is asked for or set for the locus. -/
  defaultImplementation : String
  /-- Loci with a default implementation of their own. -/
  overrides : Table Locus String
  deriving DecidableEq

namespace GateInfo

/-- A gate without implementations. -/
def new (defaultImplementation : String) : GateInfo :=
  ⟨.empty, defaultImplementation, .empty⟩

/-- Adds an implementation, in place of one of the same name. -/
def withImplementation (g : GateInfo) (name : String) (loci : List Locus) : GateInfo :=
  { g with implementations := g.implementations.insert name loci }

/-- Sets the default implementation of a locus. -/
def withOverride (g : GateInfo) (locus : Locus) (implementation : String) : GateInfo :=
  { g with overrides := g.overrides.insert locus implementation }

/-- The calibrated loci of all implementations, one implementation after the other. -/
def allLoci (g : GateInfo) : List Locus := g.implementations.values.flatten

/-- The calibrated loci of all implementations in natural order, each once. -/
def loci (g : GateInfo) : List Locus := sortLoci g.allLoci

/-- The implementation used for a locus when none is asked for. -/
def implementationFor (g : GateInfo) (locus : Locus) : String :=
  g.overrides.getD locus g.defaultImplementation

end GateInfo

/-- The calibrated view of a quantum processor for one calibration set. -/
structure DynamicArchitecture where
  calibrationSetId : Uuid
  qubits : List String
  /-- The computational resonators. -/
  resonators : List String
  gates : Table String GateInfo
  deriving DecidableEq

namespace DynamicArchitecture

/-- Adds a gate, in place of one of the same name. -/
def withGate (a : DynamicArchitecture) (name : String) (gate : GateInfo) : DynamicArchitecture :=
  { a with gates := a.gates.insert name gate }

/-- All qubits and resonators in natural order. -/
def components (a : DynamicArchitecture) : List String := sortComponents (a.qubits ++ a.resonators)

/-- Is the component a resonator? -/
def isResonator (a : DynamicArchitecture) (component : String) : Bool :=
  a.resonators.contains component

/-- Is the component a qubit? -/
def isQubit (a : DynamicArchitecture) (component : String) : Bool := a.qubits.contains component

/-- Does the component exist? -/
def hasComponent (a : DynamicArchitecture) (component : String) : Bool :=
  a.isQubit component || a.isResonator component

/-- The loci of a gate, if it is calibrated. -/
def gateLoci? (a : DynamicArchitecture) (name : String) : Option (List Locus) :=
  (a.gates.get? name).map (·.loci)

/-- The loci of the MOVE gate; none if it is not calibrated. -/
def moveLoci (a : DynamicArchitecture) : List Locus := (a.gateLoci? "move").getD []

/-- Is the MOVE gate calibrated? -/
def supportsMove (a : DynamicArchitecture) : Bool := a.gates.contains "move"

/-- The first locus in a list that names an unknown component, with that component. -/
def unknownIn? (a : DynamicArchitecture) (loci : List Locus) : Option (Locus × String) :=
  loci.findSome? fun locus => (locus.find? fun c => !a.hasComponent c).map (locus, ·)

/-- What contradicts itself: a name for a qubit and a resonator, or else the first calibrated locus
with an unknown component. -/
def flaw? (a : DynamicArchitecture) : Option ArchitectureFlaw :=
  match a.qubits.find? a.isResonator with
  | some shared => some (.sharedName shared)
  | none =>
    a.gates.entries.findSome? fun (gate, info) =>
      info.implementations.entries.findSome? fun (implementation, loci) =>
        (a.unknownIn? loci).map fun (locus, component) =>
          .unknownComponent locus gate implementation component

/-- Checks that qubits and resonators are disjoint and calibrated loci use known components. -/
def check (a : DynamicArchitecture) : Except BuildError Unit :=
  match a.flaw? with
  | some flaw => .error (.invalidArchitecture flaw)
  | none => .ok ()

end DynamicArchitecture

end StarQpu
