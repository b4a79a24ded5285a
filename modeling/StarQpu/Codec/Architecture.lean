import StarQpu.Architecture.Dynamic
import StarQpu.Architecture.Static
import StarQpu.Json.Decoder

/-!
# StarQpu.Codec.Architecture

**Architectures as JSON.** Overrides of a gate are an object whose field names are locus keys. The
operations of a static description are an object from names to loci or a list of names; whatever
else stands there is of the wrong shape as a whole, after any fault of the text inside it.
-/

namespace StarQpu

/-- A list of loci. -/
def lociJson (loci : List Locus) : Json := .arr (loci.map .ofStrings)

/-- Reads a list of loci. -/
def lociDecoder : Decoder (List Locus) := Decoder.list (Decoder.list Decoder.string)

namespace GateInfo

/-- The one field of an implementation, as it is met. -/
structure ImplementationFields where
  loci : Option (List Locus) := none

open Decoder in
/-- Reads the calibrated loci of an implementation. -/
def implementationDecoder : Decoder (List Locus) := fun o s => do
  let r ← record (ρ := ImplementationFields)
    [("loci", slot (·.loci) (fun r x => { r with loci := some x }) lociDecoder)] 1 {} o s
  required r.loci

/-- The fields of a gate as they are met. -/
structure Fields where
  implementations : Option (Table String (List Locus)) := none
  defaultImplementation : Option String := none
  overrides : Option (Table String String) := none

open Decoder in
/-- The fields in declaration order. -/
def slots : List (String × Slot Fields) :=
  [("implementations",
      slot (·.implementations) (fun r x => { r with implementations := some x })
        (table implementationDecoder)),
    ("default_implementation",
      slot (·.defaultImplementation) (fun r x => { r with defaultImplementation := some x })
        string),
    ("override_default_implementation",
      slot (·.overrides) (fun r x => { r with overrides := some x }) (table string))]

/-- A table by locus keys as a table by loci. -/
def overridesOfKeys (t : Table String String) : Table Locus String :=
  .ofList (t.entries.map fun (key, implementation) => (Locus.ofKey key, implementation))

/-- Reads a gate. -/
def decoder : Decoder GateInfo := fun o s => do
  let r ← Decoder.record slots 2 {} o s
  let implementations ← Decoder.required r.implementations
  let defaultImplementation ← Decoder.required r.defaultImplementation
  pure ⟨implementations, defaultImplementation, overridesOfKeys (r.overrides.getD .empty)⟩

/-- A table by loci as an object whose field names are locus keys. -/
def overridesJson (t : Table Locus String) : Json :=
  .obj (t.entries.map fun (locus, implementation) => (Locus.key locus, .str implementation))

/-- The JSON form of a gate. -/
def toJson (g : GateInfo) : Json :=
  .obj [("implementations",
      .ofTable (fun loci => .obj [("loci", lociJson loci)]) g.implementations),
    ("default_implementation", .str g.defaultImplementation),
    ("override_default_implementation", overridesJson g.overrides)]

end GateInfo

namespace DynamicArchitecture

/-- The fields of an architecture as they are met. -/
structure Fields where
  calibrationSetId : Option Uuid := none
  qubits : Option (List String) := none
  resonators : Option (List String) := none
  gates : Option (Table String GateInfo) := none

open Decoder in
/-- The fields in declaration order. -/
def slots : List (String × Slot Fields) :=
  [("calibration_set_id",
      slot (·.calibrationSetId) (fun r x => { r with calibrationSetId := some x }) uuid),
    ("qubits", slot (·.qubits) (fun r x => { r with qubits := some x }) (list string)),
    ("computational_resonators",
      slot (·.resonators) (fun r x => { r with resonators := some x }) (list string)),
    ("gates", slot (·.gates) (fun r x => { r with gates := some x }) (table GateInfo.decoder))]

/-- Reads an architecture. -/
def decoder : Decoder DynamicArchitecture := fun o s => do
  let r ← Decoder.record slots 4 {} o s
  let calibrationSetId ← Decoder.required r.calibrationSetId
  let qubits ← Decoder.required r.qubits
  let resonators ← Decoder.required r.resonators
  let gates ← Decoder.required r.gates
  pure ⟨calibrationSetId, qubits, resonators, gates⟩

/-- The JSON form of an architecture. -/
def toJson (a : DynamicArchitecture) : Json :=
  .obj [("calibration_set_id", .str a.calibrationSetId.render),
    ("qubits", .ofStrings a.qubits),
    ("computational_resonators", .ofStrings a.resonators),
    ("gates", .ofTable GateInfo.toJson a.gates)]

end DynamicArchitecture

namespace StaticArchitecture

/-- Reads the operations of a description in either form. -/
def OperationList.decoder : Decoder OperationList := fun o s =>
  match s.toJson with
  | .error f => .error (.fault f)
  | .ok _ =>
    match Decoder.table lociDecoder o s with
    | .ok t => .ok (.byLoci t)
    | .error _ =>
      match Decoder.list Decoder.string o s with
      | .ok names => .ok (.byName names)
      | .error _ => Decoder.mismatch

/-- The fields of a description as they are met. -/
structure Fields where
  name : Option String := none
  operations : Option OperationList := none
  qubits : Option (List String) := none
  connectivity : Option (List Locus) := none

open Decoder in
/-- The fields in declaration order. -/
def slots : List (String × Slot Fields) :=
  [("name", slot (·.name) (fun r x => { r with name := some x }) string),
    ("operations",
      slot (·.operations) (fun r x => { r with operations := some x }) OperationList.decoder),
    ("qubits", slot (·.qubits) (fun r x => { r with qubits := some x }) (list string)),
    ("qubit_connectivity",
      slot (·.connectivity) (fun r x => { r with connectivity := some x }) lociDecoder)]

/-- Reads a description. -/
def decoder : Decoder StaticArchitecture := fun o s => do
  let r ← Decoder.record slots 4 {} o s
  let name ← Decoder.required r.name
  let operations ← Decoder.required r.operations
  let qubits ← Decoder.required r.qubits
  let connectivity ← Decoder.required r.connectivity
  Decoder.liftBuild (build name operations qubits connectivity)

/-- The JSON form of a description. -/
def toJson (a : StaticArchitecture) : Json :=
  .obj [("name", .str a.name),
    ("operations", .ofTable lociJson a.operations),
    ("qubits", .ofStrings a.qubits),
    ("qubit_connectivity", lociJson a.connectivity)]

/-- The one field of the answer of a server, as it is met. -/
structure AnswerFields where
  architecture : Option StaticArchitecture := none

open Decoder in
/-- Reads a description as a server sends it, in an object of its own. -/
def answerDecoder : Decoder StaticArchitecture := fun o s => do
  let r ← record (ρ := AnswerFields)
    [("quantum_architecture",
      slot (·.architecture) (fun r x => { r with architecture := some x }) decoder)] 1 {} o s
  required r.architecture

/-- The JSON form in which a server sends a description. -/
def answerJson (a : StaticArchitecture) : Json := .obj [("quantum_architecture", a.toJson)]

end StaticArchitecture

end StarQpu
