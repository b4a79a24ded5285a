import StarQpu.Architecture.Simplified
import StarQpu.Codec.Architecture
import StarQpu.Codec.Circuit
import StarQpu.Demo.CommandLine
import StarQpu.Demo.Report
import StarQpu.Demo.Samples
import StarQpu.Json.Printer

/-!
# StarQpu.Demo.RoundTrip

**The demonstration: into MOVEs and back.** A circuit is routed through the resonators of an
architecture, the result is validated, and its MOVEs are removed again. Circuit and architecture are
read from files, or samples are taken. The program stops at the first failure; what it has printed
until then stays.
-/

namespace StarQpu

/-! ### Reading documents -/

/-- Why a document in a file cannot be used. -/
inductive LoadError where
  | unreadable (path : String)
  | unparsable (path : String) (why : DecodeError)
  deriving DecidableEq

/-- The text of the failure. -/
def LoadError.message : LoadError → String
  | .unreadable path => "Failed to read " ++ path
  | .unparsable path _ => "Failed to parse " ++ path

/-- The contents of files by their paths. -/
abbrev Files := String → Option String

/-- The value that a file holds. -/
def Files.load {α : Type} (files : Files) (d : Decoder α) (path : String) :
    Except LoadError α :=
  match files path with
  | none => .error (.unreadable path)
  | some text => (d.ofText text).mapError (.unparsable path)

namespace Demo

/-! ### Printing as it goes -/

/-- A computation that prints and may fail; the state is what was printed. -/
abbrev Performance (α : Type) := EStateM String String α

/-- Prints a text. -/
def say (text : String) : Performance Unit := fun printed => .ok () (printed ++ text)

/-- How events are shown. -/
structure LogStyle where
  /-- The lowest level that is shown; none if no event is. -/
  threshold : Option Level
  /-- The time in front of an event. -/
  time : String

/-- Shows events. -/
def LogStyle.say (style : LogStyle) : List Event → Performance Unit
  | [] => pure ()
  | e :: rest => do
    if style.threshold.any e.level.reaches then Demo.say (e.render style.time ++ "\n")
    style.say rest

/-- A result, or its failure as a text. -/
def succeed {ε α : Type} (message : ε → String) : Except ε α → Performance α
  | .ok a => pure a
  | .error e => throw (message e)

/-- A result that was logged about. -/
def LogStyle.follow {α : Type} (style : LogStyle) (x : Logged RoutingError α) :
    Performance α := do
  style.say x.log
  succeed RoutingError.message x.result

/-! ### The program -/

open CommandLine in
/-- The architecture to work on. -/
def architecture (files : Files) (o : Options) : Except LoadError DynamicArchitecture :=
  match o.architecture with
  | some path => files.load DynamicArchitecture.decoder path
  | none => .ok (starArchitecture o.qubits)

open CommandLine in
/-- The circuit to work on. -/
def circuit (files : Files) (o : Options) : Except String Circuit :=
  match o.circuit with
  | some path => (files.load Circuit.decoder path).mapError LoadError.message
  | none => ghzCircuit o.qubits

/-- The event of the finished program. -/
def removedEvent (moves : Nat) (circuit : String) : Event :=
  ⟨.info, "demo_move_transpile", s!"Removed {moves} MOVE gates from '{circuit}'", []⟩

/-- Describes circuit and architecture. -/
def describe (c : Circuit) (a : DynamicArchitecture) : Performance Unit := do
  say (Report.heading "Input")
  say (Report.value "Circuit" c.name)
  say (Report.count "Instructions" c.instructions.length)
  say (Report.count "Qubits" a.qubits.length)
  say (Report.value "Resonators" (Text.commaSeparated a.resonators))
  say (Report.count "Gates without resonators" (simplifiedArchitecture a).gates.size)

/-- The number of MOVEs. -/
def countMoves (c : Circuit) : Nat := (c.instructions.filter (·.isMove)).length

open CommandLine in
/-- Inserts MOVEs and validates them. -/
def insert (style : LogStyle) (o : Options) (c : Circuit) (a : DynamicArchitecture) :
    Performance Circuit := do
  say (Report.heading "Insert MOVEs")
  let routed ← style.follow (insertMoves c a o.existingMoves none)
  say (Report.count "Instructions" routed.instructions.length)
  say (Report.count "MOVE gates" (countMoves routed))
  succeed Violation.message (validateMoves a routed none .strict)
  say (Report.success "Transpiled circuit passes strict MOVE validation")
  if o.json then say (routed.toJson.pretty ++ "\n")
  pure routed

/-- Removes the MOVEs again. -/
def remove (style : LogStyle) (routed : Circuit) : Performance Unit := do
  say (Report.heading "Remove MOVEs")
  succeed RoutingError.message (removalPrecondition routed)
  let stripped ← style.follow (removeMoves routed)
  say (Report.count "Instructions" stripped.instructions.length)
  style.say [removedEvent (countMoves routed) stripped.name]
  say (Report.success "Done")

open CommandLine in
/-- The whole program. -/
def perform (files : Files) (style : LogStyle) (o : Options) : Performance Unit := do
  say (Report.header "MOVE Transpilation Demo")
  let a ← succeed LoadError.message (architecture files o)
  let c ← succeed id (circuit files o)
  describe c a
  let routed ← insert style o c a
  remove style routed

/-- What is logged unless it is set otherwise. -/
def defaultThreshold (verbose : Bool) : Level := if verbose then .debug else .info

/-- What the program prints, and why it fails if it does. -/
structure Outcome where
  printed : String
  failure : Option String
  deriving DecidableEq

open CommandLine in
/-- Runs the program. -/
def run (files : Files) (style : LogStyle) (o : Options) : Outcome :=
  match EStateM.run (perform files style o) "" with
  | .ok _ printed => ⟨printed, none⟩
  | .error e printed => ⟨printed, some e⟩

/-- The exit code. -/
def Outcome.code (x : Outcome) : Nat := if x.failure.isSome then 1 else 0

/-- The text about a failure. -/
def failureText (message : String) : String := "Error: " ++ message

end Demo

end StarQpu
