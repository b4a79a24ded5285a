import StarQpu.BuildError
import StarQpu.Json.Reader
import StarQpu.Uuid

/-!
# StarQpu.Json.Decoder

**From documents to typed values.** A decoder walks a `Source` in order and stops at the first
fault, be it one of the text, a value of the wrong shape or a value that one of the library's own
checks rejects. A structure is read from an object (fields in any order, unknown ones skipped, known
ones at most once) or from the list of its fields in declaration order.

The fields of a structure are collected in a record of optional values; `slot` describes how one
field fills its place there.
-/

namespace StarQpu

/-- Why a document does not give a value. -/
inductive DecodeError where
  /-- The document itself is at fault. -/
  | fault (f : Fault)
  /-- The value was read and then rejected. -/
  | rejected (e : BuildError)
  deriving DecidableEq

/-- The result of decoding. -/
abbrev Decoded (α : Type) := Except DecodeError α

/-- A way to read values of a type. -/
abbrev Decoder (α : Type) := Origin → Source → Decoded α

namespace Decoder

/-- The failure of a value of the wrong shape. -/
def mismatch {α : Type} : Decoded α := .error (.fault .mismatch)

/-- Passes a fault on. -/
def liftFault {α : Type} : Except Fault α → Decoded α
  | .ok a => .ok a
  | .error f => .error (.fault f)

/-- Passes on the failure of one of the library's own checks. -/
def liftBuild {α : Type} : Except BuildError α → Decoded α
  | .ok a => .ok a
  | .error e => .error (.rejected e)

/-- The failure of a source that has none of the shapes a decoder looks for. -/
def unexpected {α : Type} : Source → Decoded α
  | .fault _ f => .error (.fault f)
  | _ => mismatch

/-! ### Simple values -/

/-- Any value, its objects in canonical form. -/
def json : Decoder Json := fun _ s => liftFault s.toJson

/-- A text. -/
def string : Decoder String := fun _ s =>
  match s with
  | .str t => .ok t
  | s => unexpected s

/-- An integer between two bounds, both included. -/
def integer (low high : Int) : Decoder Int := fun _ s =>
  match s with
  | .num (.int n) => if low ≤ n ∧ n ≤ high then .ok n else mismatch
  | s => unexpected s

/-- A finite 64-bit floating point number, also when written as an integer. -/
def binary64 : Decoder Binary64 := fun _ s =>
  match s with
  | .num (.float x) => if x.isFinite then .ok x else mismatch
  | .num (.int n) =>
    let x := Binary64.ofInt n
    if x.isFinite then .ok x else mismatch
  | s => unexpected s

/-- An identifier. -/
def uuid : Decoder Uuid := fun o s =>
  match string o s with
  | .ok t =>
    match Uuid.ofText? t with
    | some u => .ok u
    | none => mismatch
  | .error e => .error e

/-- One of several named variants, written as its name or as an object from its name to null. The
decision falls at the first character: what begins in another way is of the wrong kind even if it
breaks off later. Likewise the brace has to follow the content at once, and what stands in the place
of a further field does not matter. -/
def variant {α : Type} (variants : List (String × α)) : Decoder α := fun o s =>
  let byName (name : String) : Decoded α :=
    match variants.lookup name with
    | some a => .ok a
    | none => mismatch
  let wrongKind : Decoded α := .error (.fault (if o = .text then .malformed else .mismatch))
  match s with
  | .str name => byName name
  | .obj [] (.nameless _ asText) => .error (.fault asText)
  | .obj ((name, content) :: more) ending => do
    if o = .value ∧ more ≠ [] then mismatch
    let a ← byName name
    match content with
    | .null => pure ()
    | s => unexpected s
    match more, ending with
    | [], .closed => pure a
    | [], .broken f => .error (.fault f)
    | _, _ => wrongKind
  | .fault .nothing f => .error (.fault f)
  | .fault .quote f => .error (.fault f)
  | _ => wrongKind

/-! ### Composite values -/

/-- A value or null. What begins as null does has to be null. -/
def option {α : Type} (d : Decoder α) : Decoder (Option α) := fun o s =>
  match s with
  | .null => .ok none
  | .fault .null f => .error (.fault f)
  | s => (d o s).map some

/-- The items of a list, in order. -/
def items {α : Type} (d : Decoder α) (o : Origin) : List Source → Decoded (List α)
  | [] => .ok []
  | s :: rest => do
    let a ← d o s
    let as ← items d o rest
    pure (a :: as)

/-- A list. -/
def list {α : Type} (d : Decoder α) : Decoder (List α) := fun o s =>
  match s with
  | .arr sources cut => do
    let as ← items d o sources
    liftFault (Fault.raise cut)
    pure as
  | s => unexpected s

/-- The fields of an object, filed one after the other into `filed`. -/
def entries {α : Type} (d : Decoder α) (o : Origin) :
    List (String × Source) → Table String α → Decoded (Table String α)
  | [], filed => .ok filed
  | (k, s) :: rest, filed => do
    let a ← d o s
    entries d o rest (filed.insert k a)

/-- A map by field names; of two fields with one name the later stays. -/
def table {α : Type} (d : Decoder α) : Decoder (Table String α) := fun o s =>
  match s with
  | .obj fields ending => do
    let t ← entries d o fields .empty
    liftFault ending.raise
    pure t
  | s => unexpected s

/-! ### Structures -/

/-- What a field of a structure does to the record in which the fields are collected. -/
abbrev Slot (ρ : Type) := ρ → Decoder ρ

/-- A field that is kept in one place of the record and may be met once. -/
def slot {ρ α : Type} (get : ρ → Option α) (set : ρ → α → ρ) (d : Decoder α) : Slot ρ :=
  fun r o s => if (get r).isSome then mismatch else (d o s).map (set r)

/-- Meets the fields of an object one after the other. -/
def meetFields {ρ : Type} (slots : List (String × Slot ρ)) (o : Origin) :
    ρ → List (String × Source) → Decoded ρ
  | r, [] => .ok r
  | r, (k, s) :: rest =>
    match slots.lookup k with
    | some fill => do
      let r ← fill r o s
      meetFields slots o r rest
    | none => meetFields slots o r rest

/-- Meets the items of a list as the fields in declaration order; the slots without an item and the
items without a slot are left. -/
def meetItems {ρ : Type} (o : Origin) :
    ρ → List (String × Slot ρ) → List Source → Decoded (ρ × List (String × Slot ρ) × List Source)
  | r, (_, fill) :: slots, s :: rest => do
    let r ← fill r o s
    meetItems o r slots rest
  | r, slots, rest => .ok (r, slots, rest)

/-- A structure with the given fields in declaration order, of which a list has to give at least the
first `needed`. -/
def record {ρ : Type} (slots : List (String × Slot ρ)) (needed : Nat) (start : ρ) : Decoder ρ :=
  fun o s =>
    match s with
    | .obj fields ending => do
      let r ← meetFields slots o start fields
      liftFault ending.raise
      pure r
    | .arr sources cut => do
      let (r, left, surplus) ← meetItems o start slots sources
      if surplus ≠ [] then
        .error (.fault (if o = .text then .malformed else .mismatch))
      liftFault (Fault.raise cut)
      if slots.length - left.length < needed then mismatch
      pure r
    | s => unexpected s

/-- The value of a field that has to be there. -/
def required {α : Type} : Option α → Decoded α
  | some a => .ok a
  | none => mismatch

/-! ### Whole documents -/

/-- Reads a value. -/
def ofValue {α : Type} (d : Decoder α) (j : Json) : Decoded α := d .value j.toSource

/-- Reads a text that holds one value. -/
def ofText {α : Type} (d : Decoder α) (text : String) : Decoded α := do
  let (source, behind) := Source.read text
  let a ← d .text source
  liftFault (Fault.raise behind)
  pure a

end Decoder

end StarQpu
