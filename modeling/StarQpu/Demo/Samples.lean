import StarQpu.Architecture.Dynamic
import StarQpu.Circuit

/-!
# StarQpu.Demo.Samples

**A star-shaped architecture and a circuit for it, of any size.**
-/

namespace StarQpu

/-- The name of the resonator in the middle of the star. -/
def starResonator : String := "CR1"

/-- `n` qubit names, counted from one. -/
def qubitNames (n : Nat) : List String := (List.range n).map fun i => s!"QB{i + 1}"

/-- A gate with one implementation. -/
def singleGate (implementation : String) (loci : List Locus) : GateInfo :=
  (GateInfo.new implementation).withImplementation implementation loci

/-- A star: every qubit couples to the one resonator by controlled-Z and MOVE, and can be rotated
and measured. -/
def starArchitecture (n : Nat) : DynamicArchitecture :=
  let qubits := qubitNames n
  let single := qubits.map fun q => [q]
  let coupled := qubits.map fun q => [q, starResonator]
  (((DynamicArchitecture.mk .nil qubits [starResonator] .empty).withGate "prx"
    (singleGate "drag_gaussian" single)).withGate "cz"
    (singleGate "tgss" coupled)).withGate "move"
    (singleGate "tgss_crf" coupled) |>.withGate "measure" (singleGate "constant" single)

/-- A quarter turn. -/
def quarter : Angle := some (.float (.nearest false 1 4))

/-- A quarter turn backwards. -/
def backQuarter : Angle := some (.float (.nearest true 1 4))

/-- The instructions that entangle a further qubit with the first one. -/
def ghzStep (first target : String) : List Instruction :=
  [⟨.prx target quarter quarter, none⟩, .cz first target, ⟨.prx target backQuarter quarter, none⟩]

/-- The instructions that prepare and measure a GHZ state of the qubits. -/
def ghzInstructions : List String → List Instruction
  | [] => []
  | first :: targets =>
    ⟨.prx first quarter quarter, none⟩ :: targets.flatMap (ghzStep first) ++
      [.measure (first :: targets) "m"]

/-- A circuit that prepares a GHZ state of `n` qubits, written as if all were coupled to the first
one. -/
def ghzCircuit (n : Nat) : Except String Circuit :=
  if n = 0 then .error "A GHZ circuit needs at least one qubit"
  else (Circuit.build s!"ghz_{n}" (ghzInstructions (qubitNames n))).mapError (·.message)

end StarQpu
