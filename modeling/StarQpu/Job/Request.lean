import StarQpu.Job.Options
import StarQpu.Job.Status

/-!
# StarQpu.Job.Request

**What a client sends to run circuits, and what it gets back.** `RunRequest.prepare` is the only way
from circuits and options to a request: it checks the options, fills in the open ones and validates
the circuits against the architecture.
-/

namespace StarQpu

/-- The physical name of one logical qubit. -/
structure SingleQubitMapping where
  logicalName : String
  physicalName : String
  deriving DecidableEq

/-- The entries of a mapping, sorted by logical name. -/
def listMapping (m : QubitMapping) : List SingleQubitMapping :=
  m.entries.map fun (logical, physical) => ⟨logical, physical⟩

/-- A request to run circuits. -/
structure RunRequest where
  circuits : List Circuit
  customSettings : Option Json := none
  calibrationSetId : Option Uuid := none
  qubitMapping : Option (List SingleQubitMapping) := none
  shots : Nat
  maxDurationOverT2 : Option Binary64 := none
  heralding : HeraldingMode := .off
  moveValidation : MoveValidation := .strict
  frameTracking : FrameTracking := .full

/-- The request for circuits under the given options. -/
def RunRequest.prepare (circuits : List Circuit) (a : DynamicArchitecture) (o : SubmitOptions) :
    Logged ClientError RunRequest := do
  o.check circuits
  Logged.tellAll (o.compilation.ignoredWarnings a.supportsMove circuits)
  match validateCircuits a circuits o.qubitMapping o.compilation.validationMode with
  | .error v => throw (.circuitValidation v.message)
  | .ok () =>
    pure {
      circuits
      customSettings := o.customSettings
      calibrationSetId := o.calibrationSetId
      qubitMapping := o.qubitMapping.map listMapping
      shots := o.shots
      maxDurationOverT2 := o.compilation.maxDurationOverT2
      heralding := o.compilation.heraldingMode
      moveValidation := o.compilation.validationMode
      frameTracking := o.compilation.trackingMode }

/-- Measurement keys to the outcomes of each shot. -/
abbrev CircuitResults := Table String (List (List Int))

/-- What a server keeps about a job. -/
structure Metadata where
  calibrationSetId : Option Uuid := none
  request : RunRequest
  cocosVersion : Option String := none
  timestamps : Option (Table String String) := none

/-- The answer to a request for results. -/
structure RunResult where
  status : Status
  measurements : Option (List CircuitResults) := none
  message : Option String := none
  metadata : Metadata
  warnings : Option (List String) := none

/-- The answer to a request for the status. -/
structure RunStatus where
  status : Status
  message : Option String := none
  warnings : Option (List String) := none
  deriving DecidableEq

/-- The part of the program that passes on warnings of the server. -/
def jobOrigin : String := "iqm_hal::job"

/-- The warnings of a server as events. -/
def serverWarnings (warnings : Option (List String)) : List Event :=
  (warnings.getD []).map fun w => ⟨.warn, jobOrigin, w, []⟩

/-- The result with its warnings logged; that of a failed job is an error. -/
def RunResult.checked (r : RunResult) : Logged ClientError RunResult := do
  Logged.tellAll (serverWarnings r.warnings)
  if r.status = .failed then throw (.execution (r.message.getD "")) else pure r

/-- The status without message and warnings. -/
def RunStatus.plain (status : Status) : RunStatus := { status }

end StarQpu
