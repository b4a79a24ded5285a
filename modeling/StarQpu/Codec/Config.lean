import StarQpu.Client.Config
import StarQpu.Json.Decoder

/-!
# StarQpu.Codec.Config

**Settings of a client as JSON.** Every field may be left out; a signature is written if there is
one.
-/

namespace StarQpu.ClientConfig

open Decoder

/-- The fields of settings as they are met. -/
structure Fields where
  requestsTimeout : Option Binary64 := none
  secondsBetweenCalls : Option Binary64 := none
  defaultWaitTimeout : Option Binary64 := none
  clientSignature : Option (Option String) := none

/-- The fields in declaration order. -/
def slots : List (String × Slot Fields) :=
  [("requests_timeout_secs",
      slot (·.requestsTimeout) (fun r x => { r with requestsTimeout := some x }) binary64),
    ("seconds_between_calls",
      slot (·.secondsBetweenCalls) (fun r x => { r with secondsBetweenCalls := some x }) binary64),
    ("default_wait_timeout_secs",
      slot (·.defaultWaitTimeout) (fun r x => { r with defaultWaitTimeout := some x }) binary64),
    ("client_signature",
      slot (·.clientSignature) (fun r x => { r with clientSignature := some x }) (option string))]

/-- Reads settings. -/
def decoder : Decoder ClientConfig := fun o s => do
  let r ← record slots 0 {} o s
  let usual : ClientConfig := {}
  pure {
    requestsTimeout := r.requestsTimeout.getD usual.requestsTimeout
    secondsBetweenCalls := r.secondsBetweenCalls.getD usual.secondsBetweenCalls
    defaultWaitTimeout := r.defaultWaitTimeout.getD usual.defaultWaitTimeout
    clientSignature := r.clientSignature.getD none }

/-- The JSON form of settings. -/
def toJson (c : ClientConfig) : Json :=
  .ofPresent [("requests_timeout_secs", some (.ofBinary64 c.requestsTimeout)),
    ("seconds_between_calls", some (.ofBinary64 c.secondsBetweenCalls)),
    ("default_wait_timeout_secs", some (.ofBinary64 c.defaultWaitTimeout)),
    ("client_signature", c.clientSignature.map .str)]

end StarQpu.ClientConfig
