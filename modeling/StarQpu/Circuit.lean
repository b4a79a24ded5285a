import StarQpu.Instruction

/-!
# StarQpu.Circuit

**Named circuits.** A circuit has a name, at least one instruction and possibly metadata of any
form. That neither the name nor the list of instructions is empty is part of the type, so it holds
of every circuit, however it was made.
-/

namespace StarQpu

/-- A named list of instructions. -/
structure Circuit where
  name : String
  instructions : List Instruction
  /-- Whatever the author attached; the value null counts as something. -/
  metadata : Option Json := none
  name_ne_empty : name ≠ ""
  instructions_ne_nil : instructions ≠ []

namespace Circuit

/-- A circuit without metadata. An empty name is reported before an empty list. -/
def build (name : String) (instructions : List Instruction) : Except BuildError Circuit :=
  if hn : name = "" then .error .emptyCircuitName
  else if hi : instructions = [] then .error .emptyCircuit
  else .ok { name, instructions, name_ne_empty := hn, instructions_ne_nil := hi }

/-- The same circuit with metadata attached. -/
def withMetadata (c : Circuit) (metadata : Json) : Circuit := { c with metadata := some metadata }

/-- Same name and metadata, other instructions. -/
def withInstructions (c : Circuit) (instructions : List Instruction) :
    Except BuildError Circuit :=
  if h : instructions = [] then .error .emptyCircuit
  else .ok { c with instructions, instructions_ne_nil := h }

/-- All component names the circuit uses, each once, in the order of their code points. -/
def allQubits (c : Circuit) : List String :=
  (Table.ofList ((c.instructions.flatMap (·.qubits)).map fun q => (q, ()))).keys

/-- Is any of the instructions a MOVE? -/
def containsMoves (c : Circuit) : Bool := c.instructions.any (·.isMove)

end Circuit

end StarQpu
