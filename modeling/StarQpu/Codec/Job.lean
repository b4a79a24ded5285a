import StarQpu.Codec.Circuit
import StarQpu.Job.Request

/-!
# StarQpu.Codec.Job

**Requests, results and options as JSON.** Options of a compilation are always written, with null
for the open ones; the optional fields of all other structures are left out when there is nothing to
write.
-/

namespace StarQpu

open Decoder

/-- A floating point number, if there is one. -/
def binary64Json (x : Option Binary64) : Option Json := x.map .ofBinary64

/-- An identifier as JSON. -/
def Uuid.toJson (u : Uuid) : Json := .str u.render

/-! ### Modes -/

/-- Reads a status. -/
def Status.decoder : Decoder Status := variant Status.names

/-- Reads a mode of heralding. -/
def HeraldingMode.decoder : Decoder HeraldingMode := variant HeraldingMode.names

/-- Reads a way of tracking frames. -/
def FrameTracking.decoder : Decoder FrameTracking := variant FrameTracking.names

/-- Reads a way of validating MOVEs. -/
def MoveValidation.decoder : Decoder MoveValidation := variant MoveValidation.names

/-! ### Options -/

namespace CompilationOptions

/-- The fields of the options as they are met. -/
structure Fields where
  maxDuration : Option (Option Binary64) := none
  heralding : Option (Option HeraldingMode) := none
  validation : Option (Option MoveValidation) := none
  tracking : Option (Option FrameTracking) := none

/-- The fields in declaration order. -/
def slots : List (String × Slot Fields) :=
  [("max_circuit_duration_over_t2",
      slot (·.maxDuration) (fun r x => { r with maxDuration := some x }) (option binary64)),
    ("heralding_mode",
      slot (·.heralding) (fun r x => { r with heralding := some x })
        (option HeraldingMode.decoder)),
    ("move_gate_validation",
      slot (·.validation) (fun r x => { r with validation := some x })
        (option MoveValidation.decoder)),
    ("move_gate_frame_tracking",
      slot (·.tracking) (fun r x => { r with tracking := some x })
        (option FrameTracking.decoder))]

/-- Reads options. -/
def decoder : Decoder CompilationOptions := fun o s => do
  let r ← record slots 4 {} o s
  pure ⟨r.maxDuration.getD none, r.heralding.getD none, r.validation.getD none,
    r.tracking.getD none⟩

/-- The JSON form of options. -/
def toJson (o : CompilationOptions) : Json :=
  .obj [("max_circuit_duration_over_t2", (binary64Json o.maxDurationOverT2).getD .null),
    ("heralding_mode", (o.heralding.map fun m => Json.str m.name).getD .null),
    ("move_gate_validation", (o.moveValidation.map fun m => Json.str m.name).getD .null),
    ("move_gate_frame_tracking", (o.frameTracking.map fun m => Json.str m.name).getD .null)]

end CompilationOptions

/-! ### Requests -/

namespace SingleQubitMapping

/-- The fields of an entry as they are met. -/
structure Fields where
  logicalName : Option String := none
  physicalName : Option String := none

/-- Reads an entry of a mapping. -/
def decoder : Decoder SingleQubitMapping := fun o s => do
  let r ← record (ρ := Fields)
    [("logical_name", slot (·.logicalName) (fun r x => { r with logicalName := some x }) string),
      ("physical_name",
        slot (·.physicalName) (fun r x => { r with physicalName := some x }) string)] 2 {} o s
  let logicalName ← required r.logicalName
  let physicalName ← required r.physicalName
  pure ⟨logicalName, physicalName⟩

/-- The JSON form of an entry. -/
def toJson (e : SingleQubitMapping) : Json :=
  .obj [("logical_name", .str e.logicalName), ("physical_name", .str e.physicalName)]

end SingleQubitMapping

namespace RunRequest

/-- The fields of a request as they are met. -/
structure Fields where
  circuits : Option (List Circuit) := none
  customSettings : Option (Option Json) := none
  calibrationSetId : Option (Option Uuid) := none
  qubitMapping : Option (Option (List SingleQubitMapping)) := none
  shots : Option Nat := none
  maxDuration : Option (Option Binary64) := none
  heralding : Option HeraldingMode := none
  moveValidation : Option MoveValidation := none
  frameTracking : Option FrameTracking := none

/-- Reads a number of shots, which has to fit in 32 bits. -/
def shotsDecoder : Decoder Nat := fun o s => (integer 0 (twoTo 32 - 1) o s).map Int.toNat

/-- The fields in declaration order. -/
def slots : List (String × Slot Fields) :=
  [("circuits",
      slot (·.circuits) (fun r x => { r with circuits := some x }) (list Circuit.decoder)),
    ("custom_settings",
      slot (·.customSettings) (fun r x => { r with customSettings := some x }) (option json)),
    ("calibration_set_id",
      slot (·.calibrationSetId) (fun r x => { r with calibrationSetId := some x }) (option uuid)),
    ("qubit_mapping",
      slot (·.qubitMapping) (fun r x => { r with qubitMapping := some x })
        (option (list SingleQubitMapping.decoder))),
    ("shots", slot (·.shots) (fun r x => { r with shots := some x }) shotsDecoder),
    ("max_circuit_duration_over_t2",
      slot (·.maxDuration) (fun r x => { r with maxDuration := some x }) (option binary64)),
    ("heralding_mode",
      slot (·.heralding) (fun r x => { r with heralding := some x }) HeraldingMode.decoder),
    ("move_validation_mode",
      slot (·.moveValidation) (fun r x => { r with moveValidation := some x })
        MoveValidation.decoder),
    ("move_gate_frame_tracking_mode",
      slot (·.frameTracking) (fun r x => { r with frameTracking := some x })
        FrameTracking.decoder)]

/-- Reads a request. -/
def decoder : Decoder RunRequest := fun o s => do
  let r ← record slots 5 {} o s
  let circuits ← required r.circuits
  let shots ← required r.shots
  pure {
    circuits
    customSettings := r.customSettings.getD none
    calibrationSetId := r.calibrationSetId.getD none
    qubitMapping := r.qubitMapping.getD none
    shots
    maxDurationOverT2 := r.maxDuration.getD none
    heralding := r.heralding.getD .off
    moveValidation := r.moveValidation.getD .strict
    frameTracking := r.frameTracking.getD .full }

/-- The JSON form of a request. -/
def toJson (r : RunRequest) : Json :=
  .ofPresent [("circuits", some (.arr (r.circuits.map Circuit.toJson))),
    ("custom_settings", r.customSettings),
    ("calibration_set_id", r.calibrationSetId.map Uuid.toJson),
    ("qubit_mapping", r.qubitMapping.map fun es => .arr (es.map SingleQubitMapping.toJson)),
    ("shots", some (.num (.int r.shots))),
    ("max_circuit_duration_over_t2", binary64Json r.maxDurationOverT2),
    ("heralding_mode", some (.str r.heralding.name)),
    ("move_validation_mode", some (.str r.moveValidation.name)),
    ("move_gate_frame_tracking_mode", some (.str r.frameTracking.name))]

end RunRequest

/-! ### Results -/

namespace Metadata

/-- The fields of metadata as they are met. -/
structure Fields where
  calibrationSetId : Option (Option Uuid) := none
  request : Option RunRequest := none
  cocosVersion : Option (Option String) := none
  timestamps : Option (Option (Table String String)) := none

/-- The fields in declaration order. -/
def slots : List (String × Slot Fields) :=
  [("calibration_set_id",
      slot (·.calibrationSetId) (fun r x => { r with calibrationSetId := some x }) (option uuid)),
    ("request", slot (·.request) (fun r x => { r with request := some x }) RunRequest.decoder),
    ("cocos_version",
      slot (·.cocosVersion) (fun r x => { r with cocosVersion := some x }) (option string)),
    ("timestamps",
      slot (·.timestamps) (fun r x => { r with timestamps := some x }) (option (table string)))]

/-- Reads metadata. -/
def decoder : Decoder Metadata := fun o s => do
  let r ← record slots 2 {} o s
  let request ← required r.request
  pure {
    calibrationSetId := r.calibrationSetId.getD none
    request
    cocosVersion := r.cocosVersion.getD none
    timestamps := r.timestamps.getD none }

/-- The JSON form of metadata. -/
def toJson (m : Metadata) : Json :=
  .ofPresent [("calibration_set_id", m.calibrationSetId.map Uuid.toJson),
    ("request", some m.request.toJson),
    ("cocos_version", m.cocosVersion.map .str),
    ("timestamps", m.timestamps.map (.ofTable .str))]

end Metadata

/-- Reads the outcomes of a circuit: integers of 64 bits. -/
def CircuitResults.decoder : Decoder CircuitResults :=
  table (list (list (integer (-twoTo 63) (twoTo 63 - 1))))

/-- The JSON form of the outcomes of a circuit. -/
def CircuitResults.toJson (r : CircuitResults) : Json :=
  .ofTable (fun shots => .arr (shots.map fun bits => .arr (bits.map fun b => .num (.int b)))) r

namespace RunResult

/-- The fields of a result as they are met. -/
structure Fields where
  status : Option Status := none
  measurements : Option (Option (List CircuitResults)) := none
  message : Option (Option String) := none
  metadata : Option Metadata := none
  warnings : Option (Option (List String)) := none

/-- The fields in declaration order. -/
def slots : List (String × Slot Fields) :=
  [("status", slot (·.status) (fun r x => { r with status := some x }) Status.decoder),
    ("measurements",
      slot (·.measurements) (fun r x => { r with measurements := some x })
        (option (list CircuitResults.decoder))),
    ("message", slot (·.message) (fun r x => { r with message := some x }) (option string)),
    ("metadata", slot (·.metadata) (fun r x => { r with metadata := some x }) Metadata.decoder),
    ("warnings",
      slot (·.warnings) (fun r x => { r with warnings := some x }) (option (list string)))]

/-- Reads a result. -/
def decoder : Decoder RunResult := fun o s => do
  let r ← record slots 4 {} o s
  let status ← required r.status
  let metadata ← required r.metadata
  pure {
    status
    measurements := r.measurements.getD none
    message := r.message.getD none
    metadata
    warnings := r.warnings.getD none }

/-- The JSON form of a result. -/
def toJson (r : RunResult) : Json :=
  .ofPresent [("status", some (.str r.status.name)),
    ("measurements", r.measurements.map fun cs => .arr (cs.map CircuitResults.toJson)),
    ("message", r.message.map .str),
    ("metadata", some r.metadata.toJson),
    ("warnings", r.warnings.map .ofStrings)]

end RunResult

namespace RunStatus

/-- The fields of a status answer as they are met. -/
structure Fields where
  status : Option Status := none
  message : Option (Option String) := none
  warnings : Option (Option (List String)) := none

/-- The fields in declaration order. -/
def slots : List (String × Slot Fields) :=
  [("status", slot (·.status) (fun r x => { r with status := some x }) Status.decoder),
    ("message", slot (·.message) (fun r x => { r with message := some x }) (option string)),
    ("warnings",
      slot (·.warnings) (fun r x => { r with warnings := some x }) (option (list string)))]

/-- Reads a status answer. -/
def decoder : Decoder RunStatus := fun o s => do
  let r ← record slots 1 {} o s
  let status ← required r.status
  pure ⟨status, r.message.getD none, r.warnings.getD none⟩

/-- The JSON form of a status answer. -/
def toJson (r : RunStatus) : Json :=
  .ofPresent [("status", some (.str r.status.name)), ("message", r.message.map .str),
    ("warnings", r.warnings.map .ofStrings)]

end RunStatus

end StarQpu
