import StarQpu.Auth.Manager
import StarQpu.Codec.Architecture
import StarQpu.Codec.Job
import StarQpu.Job.Client
import StarQpu.Json.Printer

/-!
# StarQpu.Client.Api

**The client of a server's web interface.** Every request carries the signature of the client and,
if there is a source of tokens, a token that is got once for the request and all its repetitions. A
request is repeated, after a pause, as long as the answer is 502. Architectures of a calibration set
do not change: the last one that the server sent for a set answers later requests for that set.
-/

namespace StarQpu

open Decoder

/-- A client of one server. -/
structure ApiClient where
  /-- The address of the server, without slashes at its end. -/
  baseUrl : String
  /-- How the client presents itself. -/
  signature : String
  config : ClientConfig

namespace ApiClient

/-- The part of the program that speaks in events about requests. -/
def origin : String := "iqm_adapter_http::api"

/-- The name and version that clients present. -/
def product : String := "iqm-client 0.4.0"

/-- How a client on a platform presents itself. -/
def signatureOf (platform : String) (config : ClientConfig) : String :=
  match config.clientSignature.filter (· ≠ "") with
  | some extra => s!"{platform}, {product}, {extra}"
  | none => s!"{platform}, {product}"

/-- A client of the server at an address, which has to be one of the web. -/
def new (platform url : String) (config : ClientConfig) : Except ClientError ApiClient :=
  if url.startsWith "http:" || url.startsWith "https:" then
    .ok ⟨Text.dropTrailing '/' url, signatureOf platform config, config⟩
  else
    .error (.configuration
      ("The URL schema has to be http or https. Incorrect schema in URL: " ++ url))

/-! ### Requests -/

/-- Lets the time between two requests pass. -/
def pause (c : ApiClient) : Interaction Session Unit :=
  Interaction.update (·.later c.config.pollInterval)

/-- The warning about a request that is repeated. -/
def retryWarning (r : Http.Request) : Event :=
  ⟨.warn, origin, s!"{r.method.name} {r.url} answered 502, retrying", []⟩

/-- The event of a request that is sent. -/
def sendingEvent (r : Http.Request) : Event :=
  ⟨.debug, origin, s!"{r.method.name} {r.url}", []⟩

/-- Sends a request once. -/
def attempt (r : Http.Request) : Interaction Session Http.Reply := do
  Interaction.tell (sendingEvent r)
  exchange r

/-- Sends a request, and sends it again while the answer is 502, at most so many times. -/
def persist (c : ApiClient) (r : Http.Request) : Nat → Interaction Session Http.Reply
  | 0 => attempt r
  | retries + 1 => do
    let reply ← attempt r
    if reply.status = 502 then
      Interaction.tell (retryWarning r)
      c.pause
      persist c r retries
    else pure reply

/-- A request to a path of the server. -/
def request (c : ApiClient) (method : Http.Method) (path : String) (body : Option Json)
    (authorization : Option String) : Http.Request where
  method
  url := c.baseUrl ++ "/" ++ path
  authorization
  userAgent := some c.signature
  body := body.map fun j => .ofJson j.compact

/-- Sends a request to a path of the server until the answer is not 502. The answers of the server
that are laid down limit how often it is. -/
def send (c : ApiClient) (method : Http.Method) (path : String) (body : Option Json) :
    Interaction Session Http.Reply := do
  let bearer ← TokenManager.bearer 1
  let s ← Interaction.state
  c.persist (c.request method path body bearer) s.network.script.length

/-- The value in a reply. -/
def readReply {α : Type} (d : Decoder α) (reply : Http.Reply) : Except ClientError α :=
  if reply.status = 401 then
    .error (.authentication ("Authentication failed: " ++ reply.text))
  else if !reply.isSuccess then .error (.api reply.status reply.text)
  else (d.ofText reply.text).mapError fun e => .unreadableAnswer reply.text (some e)

/-- Gets the value at a path of the server. -/
def fetch {α : Type} (c : ApiClient) (path : String) (d : Decoder α) :
    Interaction Session α := do
  let reply ← c.send .get path none
  Interaction.ofExcept (readReply d reply)

/-! ### Jobs -/

/-- The one field of an object, as it is met. -/
structure TextField where
  text : Option String := none

/-- Reads an object with one text. -/
def textDecoder (name : String) : Decoder String := fun o s => do
  let r ← record (ρ := TextField)
    [(name, slot (·.text) (fun r x => { r with text := some x }) string)] 1 {} o s
  required r.text

/-- Submits a request: the job. -/
def submit (c : ApiClient) (r : RunRequest) : Interaction Session Uuid := do
  let reply ← c.send .post "jobs" (some r.toJson)
  let id ← Interaction.ofExcept (readReply (textDecoder "id") reply)
  match Uuid.ofText? id with
  | some job => pure job
  | none => throw (.unreadableAnswer id none)

/-- The path of a job. -/
def jobPath (job : Uuid) : String := "jobs/" ++ job.render

/-- The result of a job; that of a failed one is an error. -/
def result (c : ApiClient) (job : Uuid) : Interaction Session RunResult := do
  let r ← c.fetch (jobPath job) RunResult.decoder
  Interaction.ofLogged r.checked

/-- The status of a job. -/
def status (c : ApiClient) (job : Uuid) : Interaction Session RunStatus := do
  let r ← c.fetch (jobPath job ++ "/status") RunStatus.decoder
  Interaction.tellAll (serverWarnings r.warnings)
  pure r

/-- Why a job could not be aborted: the detail in the reply, or its whole text. -/
def refusal (reply : Http.Reply) : ClientError :=
  match (textDecoder "detail").ofText reply.text with
  | .ok detail => .abortion detail
  | .error _ => .abortion reply.text

/-- Aborts a job. -/
def abort (c : ApiClient) (job : Uuid) : Interaction Session Unit := do
  let reply ← c.send .post (jobPath job ++ "/abort") none
  if reply.status = 200 then pure () else throw (refusal reply)

/-! ### Architectures -/

/-- The static architecture of the server. -/
def staticArchitecture (c : ApiClient) : Interaction Session StaticArchitecture :=
  c.fetch "quantum-architecture" StaticArchitecture.answerDecoder

/-- The path of the calibrated gates of a calibration set, or of the default one. -/
def gatesPath (id : Option Uuid) : String :=
  "api/v1/calibration/" ++ ((id.map (·.render)).getD "default") ++ "/gates"

/-- Gets the calibrated architecture from the server and remembers it by its calibration set. -/
def fetchArchitecture (c : ApiClient) (id : Option Uuid) :
    Interaction Session DynamicArchitecture := do
  let a ← c.fetch (gatesPath id) DynamicArchitecture.decoder
  Interaction.update fun s =>
    { s with architectures := (a.calibrationSetId, a) :: s.architectures }
  pure a

/-- The architecture that is remembered for a calibration set. -/
def remembered? (s : Session) (id : Option Uuid) : Option DynamicArchitecture :=
  id.bind fun id => s.architectures.lookup id

/-- The calibrated architecture of a calibration set, or of the default one. -/
def architecture (c : ApiClient) (id : Option Uuid) :
    Interaction Session DynamicArchitecture := do
  match remembered? (← Interaction.state) id with
  | some a => pure a
  | none => c.fetchArchitecture id

/-- The client as one that runs circuits. -/
def jobClient (c : ApiClient) : JobClient Session where
  architecture := c.architecture
  submit := c.submit
  status := c.status
  result := c.result
  pause := c.pause
  clock s := s.clock
  patience s := s.network.script.length

end ApiClient

end StarQpu
