import StarQpu.Interaction
import StarQpu.Job.Request
import StarQpu.Number.Duration

/-!
# StarQpu.Job.Client

**Submitting circuits and waiting for jobs, with any client.** A `JobClient` is a way to reach a
server. Circuits are checked against the calibrated architecture before they are submitted. Waiting
asks for the status of a job again and again, with a pause in between, until the job has got far
enough or the time is up; a time that is up before the first question means that none is asked.
-/

namespace StarQpu

/-- A way to run circuits on a server; its state is of type `σ`. -/
structure JobClient (σ : Type) where
  /-- The calibrated architecture of a calibration set, or of the default one. -/
  architecture : Option Uuid → Interaction σ DynamicArchitecture
  submit : RunRequest → Interaction σ Uuid
  status : Uuid → Interaction σ RunStatus
  result : Uuid → Interaction σ RunResult
  /-- Lets the time between two questions pass. -/
  pause : Interaction σ Unit
  /-- The time that has passed. -/
  clock : σ → Duration
  /-- A number of questions after which the answers do not change unless time passes. -/
  patience : σ → Nat

namespace JobClient

variable {σ : Type}

/-- The pause between two questions unless a client has its own. -/
def defaultPollInterval : Duration := .ofParts 1 0

/-- Checks circuits against the options and the calibrated architecture and submits them. -/
def submitCircuits (c : JobClient σ) (circuits : List Circuit) (o : SubmitOptions) :
    Interaction σ Uuid := do
  Interaction.ofExcept (o.check circuits)
  let a ← c.architecture o.calibrationSetId
  let request ← Interaction.ofLogged (RunRequest.prepare circuits a o)
  c.submit request

/-- The part of the program that speaks in events about jobs. -/
def origin : String := "iqm_hal::backend"

/-- The event of an answer that the job has not got far enough. -/
def pendingEvent (job : Uuid) (status : Status) : Event :=
  ⟨.debug, origin, s!"Job {job.render} is {status.name}", []⟩

/-- Waits until the time `deadline` for the job to reach `goal`, with at most `fuel` questions, and
gets its result. -/
def waitUntil (c : JobClient σ) (job : Uuid) (goal : Status → Bool) (late : ClientError)
    (deadline : Nat) : Nat → Interaction σ RunResult
  | 0 => throw late
  | fuel + 1 => do
    let s ← Interaction.state
    if (c.clock s).nanoseconds < deadline then
      let answer ← c.status job
      if goal answer.status then c.result job
      else
        Interaction.tell (pendingEvent job answer.status)
        c.pause
        waitUntil c job goal late deadline fuel
    else throw late

/-- Waits for the job to reach `goal`. When time passes in each pause, there is a nanosecond for
each question; when it does not, the answers stop changing after a while. -/
def waitFor (c : JobClient σ) (job : Uuid) (goal : Status → Bool) (late : ClientError)
    (timeout : Duration) : Interaction σ RunResult := do
  let s ← Interaction.state
  c.waitUntil job goal late ((c.clock s).nanoseconds + timeout.nanoseconds)
    (timeout.nanoseconds + c.patience s + 1)

/-- The job has not been compiled in time. -/
def lateCompilation (timeout : Duration) : ClientError :=
  .timeout s!"The job compilation didn't finish in {timeout.render} seconds."

/-- The job has not ended in time. -/
def lateResults (timeout : Duration) : ClientError :=
  .timeout s!"The job didn't finish in {timeout.render} seconds."

/-- Has the job left compilation? -/
def isCompiled (s : Status) : Bool := s ≠ .pendingCompilation

/-- Waits for the job to leave compilation. -/
def waitForCompilation (c : JobClient σ) (job : Uuid) (timeout : Duration) :
    Interaction σ RunResult :=
  c.waitFor job isCompiled (lateCompilation timeout) timeout

/-- Waits for the job to end. -/
def waitForResults (c : JobClient σ) (job : Uuid) (timeout : Duration) :
    Interaction σ RunResult :=
  c.waitFor job Status.isTerminal (lateResults timeout) timeout

end JobClient

end StarQpu
