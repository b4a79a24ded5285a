import StarQpu.Json.Basic

/-!
# StarQpu.Json.Source

**A document as it was read, up to where reading stopped.** A text can be wrong in two ways at
once: it may hold a value of the wrong shape and, further on, break off. Which of the two is
reported depends on which comes first. A `Source` keeps both: it is the tree of what was read, in
the order of the text and with repeated fields, in which every list and object remembers the fault
that cut it short. Whoever walks the tree in order meets the first fault first; whoever skips a
field does not see faults inside it.

A value that could not be read keeps how it begins (`Beginning`), because a reader may turn down a
value at its first character and never come to the fault behind it.
-/

namespace StarQpu

/-- What is wrong with a document. -/
inductive Fault where
  /-- Well-formed, but of the wrong shape. -/
  | mismatch
  /-- Not JSON. -/
  | malformed
  /-- Ends too early. -/
  | truncated
  deriving DecidableEq, Inhabited

/-- Where a document comes from. A surplus item or a wrong kind of variant is a wrong shape in a
value, but a text is already malformed there. -/
inductive Origin where
  | value
  | text
  deriving DecidableEq

/-- How a value begins that could not be read. -/
inductive Beginning where
  /-- No value begins there. -/
  | nothing
  /-- As null does. -/
  | null
  /-- By a quote. -/
  | quote
  /-- In any other way. -/
  | other
  deriving DecidableEq, Inhabited

/-- How an object ends. -/
inductive Ending where
  /-- By its brace. -/
  | closed
  /-- By a fault behind a field. -/
  | broken (f : Fault)
  /-- By the lack of a name where a field should begin, at the opening brace or behind a comma. It
  is the fault `f` for a reader of fields and `asText` for one that looks for any text there. -/
  | nameless (f asText : Fault)
  deriving DecidableEq, Inhabited

/-- A document as it was read. -/
inductive Source where
  | null
  | bool (b : Bool)
  | num (n : Number)
  | str (s : String)
  /-- A list, and the fault that ended it before its bracket. -/
  | arr (items : List Source) (cut : Option Fault)
  /-- An object in the order of the text, and how it ended. -/
  | obj (fields : List (String × Source)) (ending : Ending)
  /-- A value that could not be read. -/
  | fault (b : Beginning) (f : Fault)
  deriving Inhabited

mutual
/-- A value is a document without faults. -/
def Json.toSource : Json → Source
  | .null => .null
  | .bool b => .bool b
  | .num n => .num n
  | .str s => .str s
  | .arr items => .arr (itemsToSource items) none
  | .obj fields => .obj (fieldsToSource fields) .closed

/-- `Json.toSource` on the items of a list. -/
def itemsToSource : List Json → List Source
  | [] => []
  | item :: rest => item.toSource :: itemsToSource rest

/-- `Json.toSource` on the fields of an object. -/
def fieldsToSource : List (String × Json) → List (String × Source)
  | [] => []
  | (k, v) :: rest => (k, v.toSource) :: fieldsToSource rest
end

/-- Success, unless the list was cut short. -/
def Fault.raise : Option Fault → Except Fault Unit
  | none => .ok ()
  | some f => .error f

/-- Success, unless the object was cut short for a reader of its fields. -/
def Ending.raise : Ending → Except Fault Unit
  | .closed => .ok ()
  | .broken f => .error f
  | .nameless f _ => .error f

/-- What a reader that looks for a text says of anything else. -/
def Source.notText : Source → Fault
  | .fault _ f => f
  | _ => .mismatch

mutual
/-- The canonical value of a document, or the first fault in it. -/
def Source.toJson : Source → Except Fault Json
  | .null => .ok .null
  | .bool b => .ok (.bool b)
  | .num n => .ok (.num n)
  | .str s => .ok (.str s)
  | .arr items cut => do
    let values ← itemsToJson items
    Fault.raise cut
    pure (.arr values)
  | .obj fields ending => do
    let values ← fieldsToJson fields []
    ending.raise
    pure (.obj values)
  | .fault _ f => .error f

/-- `Source.toJson` on the items of a list. -/
def itemsToJson : List Source → Except Fault (List Json)
  | [] => .ok []
  | item :: rest => do
    let value ← item.toJson
    let values ← itemsToJson rest
    pure (value :: values)

/-- `Source.toJson` on fields, filed one after the other into `filed`. -/
def fieldsToJson : List (String × Source) → List (String × Json) →
    Except Fault (List (String × Json))
  | [], filed => .ok filed
  | (k, v) :: rest, filed => do
    let value ← v.toJson
    fieldsToJson rest (Table.insertEntry k value filed)
end

end StarQpu
