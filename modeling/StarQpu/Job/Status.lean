/-!
# StarQpu.Job.Status

**Where a job stands.** A submitted job is compiled, then executed, and ends ready, failed or
aborted; a job that has ended may be deleted.
-/

namespace StarQpu

/-- Where a job stands. -/
inductive Status where
  | pendingCompilation
  | pendingExecution
  | ready
  | failed
  | aborted
  | pendingDeletion
  | deletionFailed
  | deleted
  deriving DecidableEq, Inhabited

namespace Status

/-- The name of the status. -/
def name : Status → String
  | .pendingCompilation => "pending compilation"
  | .pendingExecution => "pending execution"
  | .ready => "ready"
  | .failed => "failed"
  | .aborted => "aborted"
  | .pendingDeletion => "pending deletion"
  | .deletionFailed => "deletion failed"
  | .deleted => "deleted"

/-- The names of all states. -/
def names : List (String × Status) :=
  [.pendingCompilation, .pendingExecution, .ready, .failed, .aborted, .pendingDeletion,
    .deletionFailed, .deleted].map fun s => (s.name, s)

/-- Has the job yet to be compiled or executed? -/
def isPending : Status → Bool
  | .pendingCompilation => true
  | .pendingExecution => true
  | _ => false

/-- Has the job ended? -/
def isTerminal (s : Status) : Bool := !s.isPending

/-- Has the job ended well? -/
def isSuccess (s : Status) : Bool := s = .ready

end Status

end StarQpu
