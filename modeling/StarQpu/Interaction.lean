import StarQpu.Client.Error
import StarQpu.Log

/-!
# StarQpu.Interaction

**Computations that keep a state.** A client remembers things (a token, a cached answer) and talks
to a server, which changes both. Such a computation works on a state, may fail and may log events.
What it has done to the state and to the log before it fails stays done.
-/

namespace StarQpu

/-- A state and the events so far. -/
structure Traced (σ : Type) where
  state : σ
  log : List Event

/-- A computation on a state that may fail. -/
abbrev Interaction (σ α : Type) := EStateM ClientError (Traced σ) α

namespace Interaction

variable {σ α : Type}

/-- The state. -/
def state : Interaction σ σ := fun t => .ok t.state t

/-- Changes the state. -/
def update (f : σ → σ) : Interaction σ Unit := fun t => .ok () { t with state := f t.state }

/-- Logs events. -/
def tellAll (events : List Event) : Interaction σ Unit :=
  fun t => .ok () { t with log := t.log ++ events }

/-- Logs an event. -/
def tell (event : Event) : Interaction σ Unit := tellAll [event]

/-- A result that does not depend on the state. -/
def ofExcept : Except ClientError α → Interaction σ α
  | .ok a => pure a
  | .error e => throw e

/-- A computation without a state. -/
def ofLogged (x : Logged ClientError α) : Interaction σ α := do
  tellAll x.log
  ofExcept x.result

/-- Runs the computation from a state on: its events and result, and the state after it. -/
def run (x : Interaction σ α) (s : σ) : Logged ClientError α × σ :=
  match EStateM.run x ⟨s, []⟩ with
  | .ok a t => (⟨t.log, .ok a⟩, t.state)
  | .error e t => (⟨t.log, .error e⟩, t.state)

end Interaction

end StarQpu
