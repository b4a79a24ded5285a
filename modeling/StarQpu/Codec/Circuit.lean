import StarQpu.Circuit
import StarQpu.Json.Decoder

/-!
# StarQpu.Codec.Circuit

**Instructions and circuits as JSON.** An instruction has the fields `name`, `implementation` (left
out when there is none), `qubits` and `args`; a circuit has `name`, `instructions` and `metadata`
(left out when there is none). What was read is built and checked as soon as its last field is
known, so an instruction that cannot be built is reported before anything behind it in the text.
-/

namespace StarQpu

namespace Instruction

/-- The fields of an instruction as they are met. -/
structure Fields where
  name : Option String := none
  implementation : Option (Option String) := none
  qubits : Option Locus := none
  args : Option (Table String Json) := none

open Decoder in
/-- The fields in declaration order. -/
def slots : List (String × Slot Fields) :=
  [("name", slot (·.name) (fun r x => { r with name := some x }) string),
    ("implementation",
      slot (·.implementation) (fun r x => { r with implementation := some x }) (option string)),
    ("qubits", slot (·.qubits) (fun r x => { r with qubits := some x }) (list string)),
    ("args", slot (·.args) (fun r x => { r with args := some x }) (table json))]

/-- Builds the instruction from its fields. -/
def ofFields (r : Fields) : Decoded Instruction := do
  let name ← Decoder.required r.name
  let qubits ← Decoder.required r.qubits
  Decoder.liftBuild
    (Instruction.build name (r.implementation.getD none) qubits (r.args.getD .empty))

/-- Reads an instruction. -/
def decoder : Decoder Instruction := fun o s => do
  let r ← Decoder.record slots 3 {} o s
  ofFields r

/-- The arguments as an object. -/
def argsJson (i : Instruction) : Json := .ofTable id i.args

/-- The JSON form of an instruction. -/
def toJson (i : Instruction) : Json :=
  .ofPresent [("name", some (.str i.name)), ("implementation", i.implementation.map .str),
    ("qubits", some (.ofStrings i.qubits)), ("args", some i.argsJson)]

end Instruction

namespace Circuit

/-- The fields of a circuit as they are met. -/
structure Fields where
  name : Option String := none
  instructions : Option (List Instruction) := none
  metadata : Option (Option Json) := none

open Decoder in
/-- The fields in declaration order. -/
def slots : List (String × Slot Fields) :=
  [("name", slot (·.name) (fun r x => { r with name := some x }) string),
    ("instructions",
      slot (·.instructions) (fun r x => { r with instructions := some x })
        (list Instruction.decoder)),
    ("metadata", slot (·.metadata) (fun r x => { r with metadata := some x }) (option json))]

/-- Builds the circuit from its fields. -/
def ofFields (r : Fields) : Decoded Circuit := do
  let name ← Decoder.required r.name
  let instructions ← Decoder.required r.instructions
  let circuit ← Decoder.liftBuild (Circuit.build name instructions)
  pure { circuit with metadata := r.metadata.getD none }

/-- Reads a circuit. -/
def decoder : Decoder Circuit := fun o s => do
  let r ← Decoder.record slots 2 {} o s
  ofFields r

/-- The JSON form of a circuit. -/
def toJson (c : Circuit) : Json :=
  .ofPresent [("name", some (.str c.name)),
    ("instructions", some (.arr (c.instructions.map Instruction.toJson))),
    ("metadata", c.metadata)]

end Circuit

end StarQpu
