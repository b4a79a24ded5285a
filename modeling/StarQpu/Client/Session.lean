import StarQpu.Architecture.Dynamic
import StarQpu.Auth.Provider
import StarQpu.Http.Network
import StarQpu.Interaction
import StarQpu.Number.Duration

/-!
# StarQpu.Client.Session

**What a client remembers and what it can reach.** The client remembers its source of tokens, the
last token and architectures that do not change; it can reach files, a server and a clock. Time
passes only while the client pauses.
-/

namespace StarQpu

/-- What a client remembers and what it can reach. -/
structure Session where
  /-- The time that has passed since 1970. -/
  clock : Duration
  /-- The contents of the files that can be read, by their plain paths. -/
  files : Table String String := .empty
  network : Http.Network
  /-- The source of tokens; none without authentication and after it was closed. -/
  provider : Option TokenProvider := none
  /-- What sources of tokens were asked so far. -/
  providerCalls : List ProviderCall := []
  /-- The last token. -/
  accessToken : Option String := none
  /-- Architectures by calibration set, the last one first. -/
  architectures : List (Uuid × DynamicArchitecture) := []

namespace Session

/-- The current second since 1970. -/
def now (s : Session) : Int := s.clock.seconds

/-- The session with another source of tokens. -/
def withProvider (s : Session) (p : TokenProvider) : Session := { s with provider := some p }

/-- The session after a source of tokens was asked something. -/
def called (s : Session) (c : ProviderCall) : Session :=
  { s with providerCalls := s.providerCalls ++ [c] }

/-- The session some time later. -/
def later (s : Session) (d : Duration) : Session :=
  { s with clock := ⟨s.clock.nanoseconds + d.nanoseconds⟩ }

end Session

/-- Sends a request and waits for the reply. -/
def exchange (r : Http.Request) : Interaction Session Http.Reply := do
  let s ← Interaction.state
  let (reply, network) := s.network.exchange r
  Interaction.update fun s => { s with network }
  match reply with
  | some reply => pure reply
  | none => throw .network

end StarQpu
