import StarQpu.BuildError
import StarQpu.Locus.Key

/-!
# StarQpu.Architecture.Static

**The static description of a quantum processor** and the comparison of two tables of operations.
The comparison looks through presentation: loci of operations on several components are compared
with multiplicity and, when the operation has no direction, in any order of their components; loci
of other operations are compared as sets.
-/

namespace StarQpu

/-- Operation names to allowed loci. -/
abbrev OperationTable := Table String (List Locus)

/-- The static description of a quantum processor. -/
structure StaticArchitecture where
  name : String
  operations : OperationTable
  qubits : List String
  /-- The coupled pairs of qubits. -/
  connectivity : List Locus
  deriving DecidableEq

/-- Names in the order of their code points. -/
def sortNames (names : List String) : List String :=
  names.mergeSort fun a b => (compare a b).isLE

/-- Loci in the order of their code points. -/
def sortPlainLoci (loci : List Locus) : List Locus :=
  loci.mergeSort fun a b => (compare a b).isLE

/-- Loci in a form that does not depend on their order nor, without a direction, on the order of
the components in a locus. -/
def normalizedLoci (directed : Bool) (loci : List Locus) : List Locus :=
  sortPlainLoci (if directed then loci else loci.map sortNames)

/-- Do the two lists hold the same loci, whatever their number? -/
def sameLoci (loci others : List Locus) : Bool :=
  loci.all others.contains && others.all loci.contains

/-- Do the loci of an operation agree up to presentation? -/
def lociAgree (name : String) (loci others : List Locus) : Bool :=
  if isMultiQubit name then
    normalizedLoci (isDirected name) loci == normalizedLoci (isDirected name) others
  else sameLoci loci others

/-- Do two tables of operations agree up to presentation? -/
def compareOperations (a b : OperationTable) : Bool :=
  a.keys == b.keys &&
    a.entries.all fun (name, loci) =>
      match b.get? name with
      | some others => lociAgree name loci others
      | none => false

namespace StaticArchitecture

/-- Do both processors support the same operations on the same loci? -/
def hasEquivalentOperations (a b : StaticArchitecture) : Bool :=
  compareOperations a.operations b.operations

/-- How a description lists its operations. -/
inductive OperationList where
  /-- With their loci. -/
  | byLoci (t : OperationTable)
  /-- By name only. -/
  | byName (names : List String)

/-- The table of operations under their current names. Listed by name only, an operation on several
components is allowed on the coupled pairs, any other one on each qubit. -/
def OperationList.table (l : OperationList) (qubits : List String) (connectivity : List Locus) :
    OperationTable :=
  match l with
  | .byLoci t => .ofList (t.entries.map fun (name, loci) => (currentName name, loci))
  | .byName names =>
    .ofList (names.map fun name =>
      let name := currentName name
      (name, if isMultiQubit name then connectivity else qubits.map fun q => [q]))

/-- The description with the given operations; it has to have a name. -/
def build (name : String) (operations : OperationList) (qubits : List String)
    (connectivity : List Locus) : Except BuildError StaticArchitecture :=
  if name = "" then .error (.invalidArchitecture .emptyName)
  else .ok ⟨name, operations.table qubits connectivity, qubits, connectivity⟩

end StaticArchitecture

end StarQpu
