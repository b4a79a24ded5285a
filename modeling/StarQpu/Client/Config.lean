import StarQpu.Client.Error
import StarQpu.Number.Duration

/-!
# StarQpu.Client.Config

**Settings of a client.** Times are floating point numbers of seconds. Two of them can be set by
environment variables; what stands there has to be a finite number that is not negative.
-/

namespace StarQpu

/-- The values of environment variables. -/
abbrev Environment := String → Option String

/-- Settings shared by all requests of a client. -/
structure ClientConfig where
  /-- How long a single request may take. -/
  requestsTimeout : Binary64 := .ofInt 60
  /-- The pause between two polls, and before a request is repeated. -/
  secondsBetweenCalls : Binary64 := .ofInt 1
  /-- How long to wait for a job. -/
  defaultWaitTimeout : Binary64 := .ofInt 900
  /-- What the client adds to its signature. -/
  clientSignature : Option String := none
  deriving DecidableEq

namespace ClientConfig

/-- The variable that sets how long a single request may take. -/
def requestsTimeoutVariable : String := "IQM_CLIENT_REQUESTS_TIMEOUT"

/-- The variable that sets the pause between two polls. -/
def secondsBetweenCallsVariable : String := "IQM_CLIENT_SECONDS_BETWEEN_CALLS"

/-- A number of seconds from a variable. -/
def readSeconds (variableName value : String) : Except ClientError Binary64 :=
  let rejected := ClientError.configuration
    (s!"Invalid value for {variableName}: {Text.quoted value}, " ++
      "expected a non-negative number of seconds")
  match Binary64.ofText? (Text.trim value) with
  | none => .error rejected
  | some x => if x.isFinite && (x.isZero || !x.isNegative) then .ok x else .error rejected

/-- A setting, unless its variable sets it. -/
def overlay (env : Environment) (variableName : String) (setting : Binary64) :
    Except ClientError Binary64 :=
  match env variableName with
  | none => .ok setting
  | some value => readSeconds variableName value

/-- The settings with those that the environment sets. -/
def withEnvironment (c : ClientConfig) (env : Environment) : Except ClientError ClientConfig := do
  let requestsTimeout ← overlay env requestsTimeoutVariable c.requestsTimeout
  let secondsBetweenCalls ← overlay env secondsBetweenCallsVariable c.secondsBetweenCalls
  pure { c with requestsTimeout, secondsBetweenCalls }

/-- The usual settings with those that the environment sets. -/
def ofEnvironment (env : Environment) : Except ClientError ClientConfig :=
  ({} : ClientConfig).withEnvironment env

/-- How long a single request may take. -/
def requestsDuration (c : ClientConfig) : Duration := .ofSeconds c.requestsTimeout

/-- The pause between two polls. -/
def pollInterval (c : ClientConfig) : Duration := .ofSeconds c.secondsBetweenCalls

/-- How long to wait for a job. -/
def waitDuration (c : ClientConfig) : Duration := .ofSeconds c.defaultWaitTimeout

end ClientConfig

end StarQpu
