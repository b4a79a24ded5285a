import StarQpu.Architecture.Dynamic
import StarQpu.Table

/-!
# StarQpu.QubitMapping

**Logical names of components.** A qubit mapping sends the names a circuit uses to the physical
names of an architecture. Its inverse is used to write results in the names of the circuit; of two
logical names for one component the inverse knows the later one.
-/

namespace StarQpu

/-- Logical names to physical names. -/
abbrev QubitMapping := Table String String

/-- The name that `names` gives to a component, or the component's own name. -/
def renamed (names : Table String String) (component : String) : String :=
  names.getD component component

namespace QubitMapping

/-- Physical names to logical names. -/
def inverse (m : QubitMapping) : Table String String :=
  .ofList (m.entries.map fun (logical, physical) => (physical, logical))

/-- The mapping with an entry of its own name for each component it does not target, unless that
name stands for something else. -/
def complete (m : QubitMapping) (a : DynamicArchitecture) : QubitMapping :=
  a.components.foldl
    (fun filled c => if m.values.contains c then filled else filled.insertNew c c) m

end QubitMapping

end StarQpu
