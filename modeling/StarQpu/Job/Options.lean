import StarQpu.Client.Error
import StarQpu.Log
import StarQpu.Validation.Moves

/-!
# StarQpu.Job.Options

**Options for compiling and submitting circuits.** Options that are not given are filled in before a
request is sent. Options about MOVEs that can have no effect are ignored with a warning. Full
tracking of the frames of MOVE gates relies on validated MOVEs, so it must not be asked for together
with no validation.
-/

namespace StarQpu

/-- How results are selected by a measurement ahead of the circuit. -/
inductive HeraldingMode where
  /-- No measurement ahead. -/
  | off
  /-- Only runs that start from all zeros. -/
  | zeros
  deriving DecidableEq, Inhabited

/-- The name of the mode. -/
def HeraldingMode.name : HeraldingMode → String
  | .off => "none"
  | .zeros => "zeros"

/-- The names of the modes. -/
def HeraldingMode.names : List (String × HeraldingMode) := [("none", .off), ("zeros", .zeros)]

/-- How the phases that MOVEs bring about are tracked. -/
inductive FrameTracking where
  /-- All phases. -/
  | full
  /-- Without those of detuning. -/
  | noDetuningCorrection
  /-- None. -/
  | off
  deriving DecidableEq, Inhabited

/-- The name of the mode. -/
def FrameTracking.name : FrameTracking → String
  | .full => "full"
  | .noDetuningCorrection => "no_detuning_correction"
  | .off => "none"

/-- The names of the modes. -/
def FrameTracking.names : List (String × FrameTracking) :=
  [("full", .full), ("no_detuning_correction", .noDetuningCorrection), ("none", .off)]

/-- Options for compiling circuits, each of which may be left open. -/
structure CompilationOptions where
  maxDurationOverT2 : Option Binary64 := none
  heralding : Option HeraldingMode := none
  moveValidation : Option MoveValidation := none
  frameTracking : Option FrameTracking := none
  deriving DecidableEq

namespace CompilationOptions

/-- Checks that full tracking is not asked for together with no validation. -/
def check (o : CompilationOptions) : Except ClientError Unit :=
  if o.frameTracking = some .full ∧ o.moveValidation = some .unchecked then
    .error .untrackableFrames
  else .ok ()

/-- Why options about MOVEs have no effect, if they have none. -/
def ignoredBecause? (supportsMove : Bool) (circuits : List Circuit) : Option String :=
  if !supportsMove then some "is not supported by the architecture"
  else if !circuits.any (·.containsMoves) then
    some "is only relevant for circuits with MOVE gates"
  else none

/-- The part of the program that warns about options. -/
def origin : String := "iqm_hal::options"

/-- The warnings about options that have no effect. -/
def ignoredWarnings (o : CompilationOptions) (supportsMove : Bool) (circuits : List Circuit) :
    List Event :=
  match ignoredBecause? supportsMove circuits with
  | none => []
  | some reason =>
    if o.moveValidation.isSome then
      [⟨.warn, origin, s!"MOVE gate validation {reason}. Ignoring the option.", []⟩]
    else if o.frameTracking.isSome then
      [⟨.warn, origin, s!"MOVE gate frame tracking {reason}. Ignoring the option.", []⟩]
    else []

/-- The mode of heralding, off unless given. -/
def heraldingMode (o : CompilationOptions) : HeraldingMode := o.heralding.getD .off

/-- The way of validating MOVEs, strict unless given. -/
def validationMode (o : CompilationOptions) : MoveValidation := o.moveValidation.getD .strict

/-- The way of tracking frames, full unless given. -/
def trackingMode (o : CompilationOptions) : FrameTracking := o.frameTracking.getD .full

/-- The options with the open ones filled in. -/
def filled (o : CompilationOptions) : CompilationOptions :=
  { o with
    heralding := some o.heraldingMode
    moveValidation := some o.validationMode
    frameTracking := some o.trackingMode }

end CompilationOptions

/-- Options for submitting circuits. -/
structure SubmitOptions where
  qubitMapping : Option QubitMapping := none
  customSettings : Option Json := none
  calibrationSetId : Option Uuid := none
  shots : Nat := 1
  compilation : CompilationOptions := {}

namespace SubmitOptions

/-- Are all targets of the mapping distinct? -/
def injective (m : QubitMapping) : Bool := m.values.Nodup

/-- The first circuit, counted from `index`, with names that the mapping does not have. -/
def missing? (m : QubitMapping) : Nat → List Circuit → Option ClientError
  | _, [] => none
  | index, c :: rest =>
    match c.allQubits.filter fun q => !m.contains q with
    | [] => missing? m (index + 1) rest
    | q :: qs => some (.missingQubits (q :: qs) c.name index)

/-- Checks the options for the given circuits. -/
def check (o : SubmitOptions) (circuits : List Circuit) : Except ClientError Unit := do
  if o.shots = 0 then throw .noShots
  o.compilation.check
  match o.qubitMapping with
  | none => pure ()
  | some m =>
    if !injective m then throw .ambiguousMapping
    else
      match missing? m 0 circuits with
      | some e => throw e
      | none => pure ()

end SubmitOptions

end StarQpu
