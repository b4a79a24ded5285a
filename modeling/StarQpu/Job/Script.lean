import StarQpu.Job.Client

/-!
# StarQpu.Job.Script

**A client whose answers are laid down in advance.** It serves to try out what is built on a
`JobClient`: the answers to questions about the status come in order and the last one repeats, and
the other calls are kept in order.
-/

namespace StarQpu

/-- A call of a scripted client other than for the status. -/
inductive ScriptCall where
  | architecture (calibrationSetId : Option Uuid)
  | submit (request : RunRequest)
  | result

/-- The state of a scripted client. -/
structure JobScript where
  /-- The time that has passed. -/
  clock : Duration := .zero
  /-- The time that passes in a pause. -/
  interval : Duration := JobClient.defaultPollInterval
  /-- The answers about the status to come; the last one repeats. -/
  statuses : List (Except ClientError Status)
  /-- The last status that was answered. -/
  polled : Status := .pendingCompilation
  /-- How often the status was asked for. -/
  statusCalls : Nat := 0
  /-- What a result says beside its status. -/
  measurements : Option (List CircuitResults) := none
  message : Option String := none
  warnings : Option (List String) := none
  architecture : Except ClientError DynamicArchitecture
  /-- The other calls so far. -/
  calls : List ScriptCall := []

namespace JobScript

/-- The job that every submission becomes. -/
def job : Uuid := ⟨7⟩

/-- Keeps a call. -/
def keep (c : ScriptCall) : Interaction JobScript Unit :=
  Interaction.update fun s => { s with calls := s.calls ++ [c] }

/-- The answers left after one was given. -/
def advance {α : Type} : List α → List α
  | [] => []
  | [last] => [last]
  | _ :: rest => rest

/-- The answer to a question about the status. -/
def answer : Interaction JobScript RunStatus := do
  let s ← Interaction.state
  Interaction.update fun s =>
    { s with statuses := advance s.statuses, statusCalls := s.statusCalls + 1 }
  match s.statuses with
  | [] => throw (.api 404 "no status")
  | .error e :: _ => throw e
  | .ok status :: _ =>
    Interaction.update fun s => { s with polled := status }
    pure (.plain status)

/-- A result with the last status that was answered. -/
def outcome (s : JobScript) : RunResult where
  status := s.polled
  measurements := s.measurements
  message := s.message
  metadata := { request := { circuits := [], shots := 1 } }
  warnings := s.warnings

/-- The scripted client. -/
def client : JobClient JobScript where
  architecture id := do
    keep (.architecture id)
    Interaction.ofExcept (← Interaction.state).architecture
  submit request := do
    keep (.submit request)
    pure job
  status _ := answer
  result _ := do
    keep .result
    Interaction.ofLogged (← Interaction.state).outcome.checked
  pause :=
    Interaction.update fun s =>
      { s with clock := ⟨s.clock.nanoseconds + s.interval.nanoseconds⟩ }
  clock s := s.clock
  patience s := s.statuses.length

end JobScript

end StarQpu
