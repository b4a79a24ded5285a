import StarQpu.BuildError
import StarQpu.Locus.Key

/-!
# StarQpu.Instruction

**Native instructions.** What an instruction does, the components it acts on and its arguments are
one value, an `Action`; so every instruction has the right number of components and the right
arguments by its form. `Instruction.build` is the way in from names and untyped arguments: it
checks them against the table of operations, in a fixed order, and replaces names that are no longer
current.
-/

namespace StarQpu

/-- An angle in full turns. There is none where a rotation was built with an angle that is no finite
number; it is written as null. -/
abbrev Angle := Option Number

/-- What an instruction does. -/
inductive Action where
  /-- A barrier over the components. -/
  | barrier (qubits : Locus)
  /-- A controlled-Z between two components. -/
  | cz (first second : String)
  /-- A MOVE of the state of `qubit` into `resonator`, or back out of it. -/
  | move (qubit resonator : String)
  /-- A measurement under a key. -/
  | measure (qubits : Locus) (key : String)
  /-- A phased rotation about the x axis. -/
  | prx (qubit : String) (angle phase : Angle)
  deriving DecidableEq

namespace Action

/-- The row of the table that the action belongs to. -/
def operation : Action → Operation
  | .barrier _ => .barrier
  | .cz _ _ => .cz
  | .move _ _ => .move
  | .measure _ _ => .measure
  | .prx _ _ _ => .prx

/-- The components the action acts on. -/
def qubits : Action → Locus
  | .barrier qs => qs
  | .cz a b => [a, b]
  | .move q r => [q, r]
  | .measure qs _ => qs
  | .prx q _ _ => [q]

/-- An angle as an argument. -/
def angleJson : Angle → Json
  | some n => .num n
  | none => .null

/-- The arguments by name. -/
def args : Action → Table String Json
  | .measure _ key => .ofList [("key", .str key)]
  | .prx _ angle phase => .ofList [("angle_t", angleJson angle), ("phase_t", angleJson phase)]
  | _ => .empty

/-- The same action on renamed components. -/
def mapQubits (f : String → String) : Action → Action
  | .barrier qs => .barrier (qs.map f)
  | .cz a b => .cz (f a) (f b)
  | .move q r => .move (f q) (f r)
  | .measure qs key => .measure (qs.map f) key
  | .prx q angle phase => .prx (f q) angle phase

/-- The same action on other components, if their number fits. -/
def withQubits? : Action → Locus → Option Action
  | .barrier _, qs => some (.barrier qs)
  | .cz _ _, [a, b] => some (.cz a b)
  | .move _ _, [q, r] => some (.move q r)
  | .measure _ key, qs => some (.measure qs key)
  | .prx _ angle phase, [q] => some (.prx q angle phase)
  | _, _ => none

/-- The action of an operation with the given components and arguments, if they fit. -/
def ofParts? (name : String) (qubits : Locus) (args : Table String Json) : Option Action :=
  match name, qubits, args.entries with
  | "barrier", qs, [] => some (.barrier qs)
  | "cz", [a, b], [] => some (.cz a b)
  | "move", [q, r], [] => some (.move q r)
  | "measure", qs, [("key", .str key)] => some (.measure qs key)
  | "prx", [q], [("angle_t", .num angle), ("phase_t", .num phase)] =>
    some (.prx q (some angle) (some phase))
  | _, _, _ => none

@[simp] theorem operation_mapQubits (f : String → String) (a : Action) :
    (a.mapQubits f).operation = a.operation := by cases a <;> rfl

@[simp] theorem qubits_mapQubits (f : String → String) (a : Action) :
    (a.mapQubits f).qubits = a.qubits.map f := by cases a <;> rfl

@[simp] theorem args_mapQubits (f : String → String) (a : Action) :
    (a.mapQubits f).args = a.args := by cases a <;> rfl

@[simp] theorem mapQubits_mapQubits (f g : String → String) (a : Action) :
    (a.mapQubits f).mapQubits g = a.mapQubits (g ∘ f) := by cases a <;> simp [mapQubits]

@[simp] theorem mapQubits_id (a : Action) : a.mapQubits id = a := by cases a <;> simp [mapQubits]

end Action

/-- A native instruction: what it does, and the implementation it asks for. -/
structure Instruction where
  action : Action
  /-- The implementation asked for; the architecture's default one if there is none. -/
  implementation : Option String := none
  deriving DecidableEq

namespace Instruction

/-- The name of the operation. -/
def name (i : Instruction) : String := i.action.operation.name

/-- The components the instruction acts on. -/
def qubits (i : Instruction) : Locus := i.action.qubits

/-- The arguments by name. -/
def args (i : Instruction) : Table String Json := i.action.args

/-- Is it a MOVE? -/
def isMove (i : Instruction) : Bool := i.action matches .move _ _

/-- Is it a controlled-Z? -/
def isCz (i : Instruction) : Bool := i.action matches .cz _ _

/-- The key of a measurement. -/
def measurementKey? (i : Instruction) : Option String :=
  match i.action with
  | .measure _ key => some key
  | _ => none

/-- The same instruction on renamed components. -/
def mapQubits (f : String → String) (i : Instruction) : Instruction :=
  { i with action := i.action.mapQubits f }

/-- The same instruction on other components, if their number fits. -/
def withQubits? (i : Instruction) (qubits : Locus) : Option Instruction :=
  (i.action.withQubits? qubits).map fun action => { i with action }

/-- Asks for an implementation, which has to have a name. -/
def withImplementation (i : Instruction) (implementation : String) :
    Except BuildError Instruction :=
  if implementation = "" then .error .emptyImplementation
  else .ok { i with implementation := some implementation }

/-- Leaves the choice of the implementation to the architecture. -/
def withoutImplementation (i : Instruction) : Instruction := { i with implementation := none }

/-! ### Building -/

/-- The controlled-Z between two components. -/
def cz (a b : String) : Instruction := ⟨.cz a b, none⟩

/-- The MOVE between a qubit and a resonator. -/
def move (qubit resonator : String) : Instruction := ⟨.move qubit resonator, none⟩

/-- The rotation by angles that may be any floating point numbers. -/
def prx (qubit : String) (angle phase : Binary64) : Instruction :=
  let angle? (x : Binary64) : Angle := if x.isFinite then some (.float x) else none
  ⟨.prx qubit (angle? angle) (angle? phase), none⟩

/-- The measurement of qubits under a key. -/
def measure (qubits : Locus) (key : String) : Instruction := ⟨.measure qubits key, none⟩

/-- The barrier over the components. -/
def barrier (qubits : Locus) : Instruction := ⟨.barrier qubits, none⟩

/-- The first argument of the signature whose value has another type. -/
def wrongArgument? (args : Table String Json) :
    List (String × ArgumentType) → Option BuildError
  | [] => none
  | (name, type) :: rest =>
    match args.get? name with
    | some value =>
      if type.accepts value then wrongArgument? args rest
      else some (.argumentType name type value.typeName)
    | none => wrongArgument? args rest

/-- Builds an instruction from names and untyped arguments. The first of these checks that fails is
reported: the name, the implementation, the number of components, the names of the arguments, their
types. -/
def build (name : String) (implementation : Option String) (qubits : Locus)
    (args : Table String Json) : Except BuildError Instruction :=
  match Operation.find? name with
  | none => .error (.unknownInstruction name)
  | some op =>
    if implementation = some "" then .error .emptyImplementation
    else if op.arity.any (· ≠ qubits.length) then
      .error (.arity name (op.arity.getD 0) qubits)
    else if args.size ≠ op.args.length ∨ !op.args.all fun (arg, _) => args.contains arg then
      .error (.argumentNames name (op.args.map (·.1)) args.keys)
    else
      match wrongArgument? args op.args with
      | some e => .error e
      | none =>
        match Action.ofParts? op.currentName qubits args with
        | some action => .ok ⟨action, implementation⟩
        -- not reached: the checks leave no other arguments
        | none => .error (.unknownInstruction name)

@[simp] theorem name_mapQubits (f : String → String) (i : Instruction) :
    (i.mapQubits f).name = i.name := by simp [name, mapQubits]

@[simp] theorem qubits_mapQubits (f : String → String) (i : Instruction) :
    (i.mapQubits f).qubits = i.qubits.map f := by simp [qubits, mapQubits]

@[simp] theorem args_mapQubits (f : String → String) (i : Instruction) :
    (i.mapQubits f).args = i.args := by simp [args, mapQubits]

end Instruction

end StarQpu
