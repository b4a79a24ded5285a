import StarQpu.Json.Decoder
import StarQpu.Routing.Error

/-!
# StarQpu.Client.Error

**What can go wrong between a client and its server.**
-/

namespace StarQpu

/-- What can go wrong between a client and its server. -/
inductive ClientError where
  /-- The client is not set up right. -/
  | configuration (message : String)
  /-- The client cannot prove who it is. -/
  | authentication (message : String)
  /-- A file with tokens cannot be read, or not as what it should be. -/
  | unreadableTokens (path : String) (why : Option DecodeError)
  /-- The circuits do not fit the processor or the options. -/
  | circuitValidation (message : String)
  /-- The server could not run the circuits. -/
  | execution (message : String)
  /-- The server sent something else than it should; the text is what it sent. -/
  | unreadableAnswer (text : String) (why : Option DecodeError)
  /-- Waiting took too long. -/
  | timeout (message : String)
  /-- A job could not be aborted. -/
  | abortion (message : String)
  /-- The server refused. -/
  | api (status : Nat) (message : String)
  /-- A circuit could not be compiled. -/
  | compilation (e : RoutingError)
  /-- The server could not be reached or understood. -/
  | network
  /-- A value could not be written or read. -/
  | serialization (message : String)

namespace ClientError

/-- Is it a failure to authenticate? -/
def isAuthentication : ClientError → Bool
  | .authentication _ => true
  | .unreadableTokens _ _ => true
  | _ => false

/-- Is it a failure on the side of the server while it runs circuits? -/
def isExecution : ClientError → Bool
  | .execution _ => true
  | .unreadableAnswer _ _ => true
  | .timeout _ => true
  | _ => false

/-- The text of a fault in a document. -/
def describe : Option DecodeError → String
  | none => "not readable"
  | some (.fault .mismatch) => "wrong shape"
  | some (.fault .malformed) => "malformed"
  | some (.fault .truncated) => "ends too early"
  | some (.rejected e) => e.message

/-- The text of the error without its last part where that part describes a fault in a document. -/
def lead : ClientError → String
  | .configuration m => m
  | .authentication m => m
  | .unreadableTokens path _ => s!"Failed to read access token from file '{path}': "
  | .circuitValidation m => m
  | .execution m => m
  | .unreadableAnswer text _ => s!"Invalid response: {text}, "
  | .timeout m => m
  | .abortion m => m
  | .api status m => s!"API error ({status}): {m}"
  | .compilation e => "Compilation error: " ++ e.message
  | .network => "Network error"
  | .serialization m => "Serialization error: " ++ m

/-- The text of the error. -/
def message (e : ClientError) : String :=
  match e with
  | .unreadableTokens _ why => e.lead ++ describe why
  | .unreadableAnswer _ why => e.lead ++ describe why
  | e => e.lead

/-- Circuits are to be run no times. -/
def noShots : ClientError := .configuration "Number of shots must be greater than zero."

/-- Frame tracking needs validated MOVEs. -/
def untrackableFrames : ClientError :=
  .configuration ("Unable to perform full MOVE gate frame tracking if MOVE gate validation is " ++
    "not \"strict\" or \"allow_prx\".")

/-- Two logical names stand for one component. -/
def ambiguousMapping : ClientError :=
  .circuitValidation "Multiple logical qubits map to the same physical qubit."

/-- A circuit uses names without an entry in the mapping. -/
def missingQubits (qubits : List String) (circuit : String) (index : Nat) : ClientError :=
  .circuitValidation ("The qubits " ++ Text.quotedSet qubits ++
    s!" in circuit '{circuit}' at index {index} are not found in the provided qubit mapping.")

end ClientError

end StarQpu
