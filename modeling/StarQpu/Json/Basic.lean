import StarQpu.Number.Binary64
import StarQpu.Table

/-!
# StarQpu.Json.Basic

**JSON values.** A number keeps its kind: an integer that was written as one stays an integer, all
else is a 64-bit floating point number. The fields of an object are a list; a value that went
through a reader is *canonical*: in every object the keys ascend strictly, so two canonical values
with the same content are equal.
-/

namespace StarQpu

/-- A JSON number. -/
inductive Number where
  /-- A number written as an integer. -/
  | int (n : Int)
  /-- A number written with a point or an exponent, or too large for an integer. -/
  | float (x : Binary64)
  deriving DecidableEq, Inhabited

/-- A JSON value. -/
inductive Json where
  | null
  | bool (b : Bool)
  | num (n : Number)
  | str (s : String)
  | arr (items : List Json)
  | obj (fields : List (String × Json))
  deriving Inhabited

namespace Json

/-- The name of a value's type, as messages write it. -/
def typeName : Json → String
  | .null => "null"
  | .bool _ => "boolean"
  | .num _ => "number"
  | .str _ => "string"
  | .arr _ => "array"
  | .obj _ => "object"

/-- A list of texts. -/
def ofStrings (names : List String) : Json := .arr (names.map .str)

/-- A table, its keys as field names. -/
def ofTable {α : Type} (encode : α → Json) (t : Table String α) : Json :=
  .obj (t.entries.map fun (k, v) => (k, encode v))

/-- A floating point number; one that is not finite has no JSON form and becomes null. -/
def ofBinary64 (x : Binary64) : Json := if x.isFinite then .num (.float x) else .null

/-- An object with the fields that are present, in the given order. -/
def ofPresent (fields : List (String × Option Json)) : Json :=
  .obj (fields.filterMap fun (k, v) => v.map (k, ·))

/-- The value of a field, if the value is an object that has it. -/
def field? (j : Json) (name : String) : Option Json :=
  match j with
  | .obj fields => fields.lookup name
  | _ => none

mutual
/-- The value with the keys of every object in ascending order; of two fields with one key the
later stays. -/
def canonical : Json → Json
  | .null => .null
  | .bool b => .bool b
  | .num n => .num n
  | .str s => .str s
  | .arr items => .arr (canonicalItems items)
  | .obj fields => .obj (canonicalFields fields [])

/-- `canonical` on the items of a list. -/
def canonicalItems : List Json → List Json
  | [] => []
  | item :: rest => canonical item :: canonicalItems rest

/-- `canonical` on fields, filed one after the other into `filed`. -/
def canonicalFields : List (String × Json) → List (String × Json) → List (String × Json)
  | [], filed => filed
  | (k, v) :: rest, filed => canonicalFields rest (Table.insertEntry k (canonical v) filed)
end

end Json

end StarQpu
