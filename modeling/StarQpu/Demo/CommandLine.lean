import StarQpu.Number.Decimal
import StarQpu.Routing.Insertion

/-!
# StarQpu.Demo.CommandLine

**The command line of the demonstration program.** An option is given by a dash and a letter or by
two dashes and a name. Its value follows as the next argument, behind an equals sign, or right
behind the letter. Letters of options without a value can share a dash. No option may be given
twice, and there are no other arguments.
-/

namespace StarQpu.CommandLine

/-- An option of the program. -/
inductive Flag where
  /-- The file of the circuit. -/
  | circuit
  /-- The file of the architecture. -/
  | architecture
  /-- The number of qubits of the built-in samples. -/
  | qubits
  /-- What to do with MOVEs that the circuit has. -/
  | existingMoves
  /-- Whether to print the circuit with MOVEs. -/
  | json
  /-- Whether to log more. -/
  | verbose
  /-- Whether to explain the options instead. -/
  | help
  deriving DecidableEq

/-- Does the option have a value? -/
def Flag.hasValue : Flag → Bool
  | .json | .verbose | .help => false
  | _ => true

/-- The option of a letter. -/
def Flag.ofLetter? : Char → Option Flag
  | 'c' => some .circuit
  | 'a' => some .architecture
  | 'n' => some .qubits
  | 'v' => some .verbose
  | 'h' => some .help
  | _ => none

/-- The option of a name. -/
def Flag.ofName? (name : String) : Option Flag :=
  [("circuit", .circuit), ("architecture", .architecture), ("qubits", .qubits),
    ("existing-moves", .existingMoves), ("json", .json), ("verbose", .verbose),
    ("help", Flag.help)].lookup name

/-- What the program is to do. -/
structure Options where
  circuit : Option String := none
  architecture : Option String := none
  qubits : Nat := 4
  existingMoves : Option ExistingMoves := none
  json : Bool := false
  verbose : Bool := false
  deriving DecidableEq

/-- Why the program does not start. -/
inductive Stop where
  /-- The arguments are wrong. -/
  | misuse
  /-- An explanation is asked for. -/
  | help
  deriving DecidableEq

/-! ### Values -/

/-- A path, which is not empty. -/
def path? (value : String) : Except Stop String :=
  if value = "" then .error .misuse else .ok value

/-- A number of qubits, at least one and of 16 bits. -/
def qubits? (value : String) : Except Stop Nat :=
  match int64OfText? value with
  | some n => if 1 ≤ n ∧ n < twoTo 16 then .ok n.toNat else .error .misuse
  | none => .error .misuse

/-- A treatment of MOVEs. -/
def existing? (value : String) : Except Stop ExistingMoves :=
  match ExistingMoves.names.lookup value with
  | some e => .ok e
  | none => .error .misuse

/-- The options with one of them set. -/
def Options.set (o : Options) (value : String) : Flag → Except Stop Options
  | .circuit => (path? value).map fun p => { o with circuit := some p }
  | .architecture => (path? value).map fun p => { o with architecture := some p }
  | .qubits => (qubits? value).map fun n => { o with qubits := n }
  | .existingMoves => (existing? value).map fun e => { o with existingMoves := some e }
  | .json => .ok { o with json := true }
  | .verbose => .ok { o with verbose := true }
  | .help => .error .help

/-! ### Arguments -/

/-- The options that are given so far, and what they ask for. -/
structure Given where
  flags : List Flag := []
  options : Options := {}
  deriving DecidableEq

/-- Adds an option, unless it is given already. -/
def Given.add (given : Given) (f : Flag) (value : String) : Except Stop Given :=
  if given.flags.contains f then .error .misuse
  else (given.options.set value f).map fun options => ⟨f :: given.flags, options⟩

/-- The value in an argument behind a letter. -/
def attached : List Char → String
  | '=' :: value => String.ofList value
  | value => String.ofList value

/-- The options of the letters behind a dash, and the last one if its value is still to come. -/
def letters : Given → List Char → Except Stop (Given × Option Flag)
  | given, [] => .ok (given, none)
  | given, c :: rest =>
    match Flag.ofLetter? c with
    | none => .error .misuse
    | some f =>
      if f.hasValue then
        if rest.isEmpty then .ok (given, some f)
        else (given.add f (attached rest)).map (·, none)
      else
        match given.add f "" with
        | .error stop => .error stop
        | .ok given => letters given rest

/-- The option of a name behind two dashes, possibly with its value, or the option whose value is
still to come. -/
def word (given : Given) (cs : List Char) : Except Stop (Given × Option Flag) :=
  let (name, rest) := cs.span (· ≠ '=')
  match Flag.ofName? (String.ofList name), rest with
  | none, _ => .error .misuse
  | some f, [] => if f.hasValue then .ok (given, some f) else (given.add f "").map (·, none)
  | some f, _ :: value =>
    if f.hasValue then (given.add f (String.ofList value)).map (·, none) else .error .misuse

/-- The options of one argument. -/
def argument (given : Given) (arg : String) : Except Stop (Given × Option Flag) :=
  match arg.toList with
  | '-' :: '-' :: cs => word given cs
  | '-' :: c :: cs => letters given (c :: cs)
  | _ => .error .misuse

/-- Can the argument be the value of an option before it? -/
def isValue (arg : String) : Bool :=
  match arg.toList with
  | '-' :: _ :: _ => false
  | _ => true

/-- The options of all arguments; two dashes end the options. -/
def collect : Given → Option Flag → List String → Except Stop Given
  | given, none, [] => .ok given
  | _, some _, [] => .error .misuse
  | given, some f, arg :: rest =>
    if isValue arg then
      match given.add f arg with
      | .error stop => .error stop
      | .ok given => collect given none rest
    else .error .misuse
  | given, none, arg :: rest =>
    if arg = "--" then if rest.isEmpty then .ok given else .error .misuse
    else
      match argument given arg with
      | .error stop => .error stop
      | .ok (given, open_) => collect given open_ rest

/-- What the arguments ask for. They are read from left to right, and the first one that is wrong or
asks for an explanation decides. -/
def parse (args : List String) : Except Stop Options :=
  (collect {} none args).map (·.options)

end StarQpu.CommandLine
