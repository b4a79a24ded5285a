import StarQpu.Proofs.Renaming.Insertion
import StarQpu.Proofs.Validation.Batch

/-!
# StarQpu.Proofs.Renaming.Validation

**Validation of logical circuits is validation of the physical ones.** Instructions are checked on
mapped names, MOVEs on logical ones: there every component has the name that the inverse of the
mapping gives it, or its own where the mapping does not target it. Its own name may be the logical
name of another component, so the names of the components need not be distinct. But an instruction
that is valid by itself names nothing but targets, and on the targets the mapping is a part of a
permutation. So neither the names of untargeted components nor those that no MOVE uses make a
difference (`Occupation.exists_run_mapQubits`).
-/

namespace StarQpu

variable {a : DynamicArchitecture} {m : QubitMapping} {mode : MoveValidation} {c : Circuit}
  {circuits : List Circuit} {i : Instruction} {q r : String} {l : List Instruction}

/-! ### Instructions -/

theorem validateInstruction_mapQubits_iff (covered : ∀ q ∈ i.qubits, m.contains q = true) :
    validateInstruction a (i.mapQubits (renamed m)) none = .ok () ↔
      validateInstruction a i (some m) = .ok () := by
  rw [validateInstruction_none_eq_ok_iff, validateInstruction_some_eq_ok_iff,
    DynamicArchitecture.permits_mapQubits, Instruction.qubits_mapQubits]
  exact (and_iff_right covered).symm

theorem covered_of_validateInstruction (valid : validateInstruction a i (some m) = .ok ()) :
    ∀ q ∈ i.qubits, m.contains q = true :=
  (validateInstruction_some_eq_ok_iff.1 valid).1

@[simp] theorem measurementKeys_mapQubits (f : String → String) (l : List Instruction) :
    measurementKeys (l.map (·.mapQubits f)) = measurementKeys l := by
  rw [measurementKeys, List.filterMap_map, measurementKeys]
  refine List.filterMap_congr fun i _ => ?_
  obtain ⟨action, implementation⟩ := i
  cases action <;> rfl

/-- A MOVE that is valid by itself goes from a qubit to a resonator. -/
theorem ends_of_validateInstruction (moves : a.MovesIntoResonators)
    (valid : validateInstruction a i none = .ok ()) (hmove : i.action = .move q r) :
    a.isQubit q = true ∧ a.isResonator r = true := by
  have hlocus := calibrated_of_permits_move hmove (validateInstruction_none_eq_ok_iff.1 valid)
  exact ⟨moves.isQubit hlocus, moves.isResonator hlocus⟩

/-! ### MOVEs -/

/-- Under new names a list runs to its end as before, whatever other names there are. -/
theorem Occupation.exists_run_mapQubits (g : Equiv.Perm String)
    {qubits resonators qubits' resonators' : List String}
    (ends : ∀ i ∈ l.map (·.mapQubits g), ∀ q r, i.action = .move q r →
      q ∈ qubits' ∧ r ∈ resonators')
    (h : ∃ o, run qubits resonators mode .empty l = .ok o ∧ o.entries = []) :
    ∃ o, run qubits' resonators' mode .empty (l.map (·.mapQubits g)) = .ok o ∧
      o.entries = [] := by
  obtain ⟨o, hrun, hnone⟩ := h
  obtain ⟨o', hrun', hrenamed⟩ := (Renamed.empty g).run hrun
  exact ⟨o', run_of_ends hrun' ends, hrenamed.entries_eq_nil hnone⟩

theorem renamed_inverse_renamed (injective : m.Injective) (hq : m.contains q = true) :
    renamed m.inverse (renamed m q) = q := by
  obtain ⟨p, hp⟩ := Table.contains_iff.1 hq
  rw [renamed_of_get? hp]
  exact renamed_of_get? ((QubitMapping.get?_inverse_iff injective).2 hp)

section Lists

variable (moves : a.MovesIntoResonators) (injective : m.Injective)
  (valid : ∀ i ∈ l, validateInstruction a i (some m) = .ok ())
include moves injective valid

/-- The components are found under the logical names of the MOVEs. -/
theorem logical_ends {i : Instruction} (hi : i ∈ l) (hmove : i.action = .move q r) :
    q ∈ a.qubits.map (renamed m.inverse) ∧ r ∈ a.resonators.map (renamed m.inverse) := by
  have hqubits : i.qubits = [q, r] := by rw [Instruction.qubits, hmove, Action.qubits]
  have covered := covered_of_validateInstruction (valid i hi)
  obtain ⟨hqubit, hresonator⟩ := ends_of_validateInstruction moves
    ((validateInstruction_mapQubits_iff covered).2 (valid i hi))
    (Instruction.mapQubits_of_move hmove (renamed m))
  constructor
  · exact List.mem_map.2 ⟨renamed m q, List.contains_iff_mem.1 hqubit,
      renamed_inverse_renamed injective (covered q (by simp [hqubits]))⟩
  · exact List.mem_map.2 ⟨renamed m r, List.contains_iff_mem.1 hresonator,
      renamed_inverse_renamed injective (covered r (by simp [hqubits]))⟩

/-- The sandwiches of valid instructions, before or after the translation. -/
theorem validateMoveList_mapQubits_iff :
    validateMoveList a (l.map (·.mapQubits (renamed m))) none mode = .ok () ↔
      validateMoveList a l (some m) mode = .ok () := by
  by_cases hmode : mode = .unchecked
  · simp [validateMoveList, hmode]
  cases supports : a.supportsMove with
  | false =>
      have hany : (l.map (·.mapQubits (renamed m))).any (·.isMove) = l.any (·.isMove) := by
        simp [List.any_map, Function.comp_def]
      simp [validateMoveList, hmode, supports, hany]
  | true =>
      -- what the mapping does to the names of the list is done by a permutation
      obtain ⟨g, hg⟩ := injective.exists_perm
      have hmap : l.map (·.mapQubits (renamed m)) = l.map (·.mapQubits g) := by
        refine List.map_congr_left fun i hi => Instruction.mapQubits_congr fun q hq => ?_
        obtain ⟨p, hp⟩ := Table.contains_iff.1 (covered_of_validateInstruction (valid i hi) q hq)
        rw [renamed_of_get? hp, hg q p hp]
      rw [validateMoveList_eq_ok_iff supports hmode, validateMoveList_eq_ok_iff_run supports hmode,
        Option.map_some, Option.getD_some]
      constructor
      · intro h
        rw [hmap] at h
        rw [← map_mapQubits_symm g l]
        refine Occupation.exists_run_mapQubits g.symm (fun i hi q r hmove => ?_) h
        rw [map_mapQubits_symm] at hi
        exact logical_ends moves injective valid hi hmove
      · intro h
        rw [hmap]
        refine Occupation.exists_run_mapQubits g (fun j hj q r hmove => ?_) h
        rw [← hmap] at hj
        obtain ⟨i, hi, rfl⟩ := List.mem_map.1 hj
        have covered := covered_of_validateInstruction (valid i hi)
        obtain ⟨hqubit, hresonator⟩ := ends_of_validateInstruction moves
          ((validateInstruction_mapQubits_iff covered).2 (valid i hi)) hmove
        exact ⟨List.contains_iff_mem.1 hqubit, List.contains_iff_mem.1 hresonator⟩

end Lists

/-! ### Batches -/

/-- Circuits on logical names are valid exactly if the circuits on physical names are. -/
theorem validateCircuits_mapQubits_iff (moves : a.MovesIntoResonators) (injective : m.Injective)
    (covered : ∀ c ∈ circuits, ∀ i ∈ c.instructions, ∀ q ∈ i.qubits, m.contains q = true) :
    validateCircuits a (circuits.map (·.mapQubits (renamed m))) none mode = .ok () ↔
      validateCircuits a circuits (some m) mode = .ok () := by
  rw [validateCircuits_eq_ok_iff, validateCircuits_eq_ok_iff, List.forall_mem_map]
  refine forall₂_congr fun c hc => ?_
  rw [validateCircuit_eq_ok_iff, validateCircuit_eq_ok_iff]
  show (∀ j ∈ c.instructions.map (·.mapQubits (renamed m)), _) ∧
    (measurementKeys (c.instructions.map (·.mapQubits (renamed m)))).Nodup ∧
    validateMoveList a (c.instructions.map (·.mapQubits (renamed m))) none mode = .ok () ↔ _
  rw [measurementKeys_mapQubits, List.forall_mem_map]
  have hinstructions : (∀ i ∈ c.instructions,
      validateInstruction a (i.mapQubits (renamed m)) none = .ok ()) ↔
      ∀ i ∈ c.instructions, validateInstruction a i (some m) = .ok () :=
    forall₂_congr fun i hi => validateInstruction_mapQubits_iff (covered c hc i hi)
  rw [hinstructions]
  refine and_congr_right fun valid => and_congr_right fun _ => ?_
  exact validateMoveList_mapQubits_iff moves injective valid

/-- **Validation does not depend on the names.** Circuits on logical names and the same circuits on
physical names are both valid or both in violation of the architecture, also where a logical name is
the physical name of another component. -/
theorem validateCircuits_mapQubits (moves : a.MovesIntoResonators) (injective : m.Injective)
    (covered : ∀ c ∈ circuits, ∀ i ∈ c.instructions, ∀ q ∈ i.qubits, m.contains q = true)
    (mode : MoveValidation) :
    (validateCircuits a circuits (some m) mode = .ok () ↔
      validateCircuits a (circuits.map (·.mapQubits (renamed m))) none mode = .ok ()) ∧
    (validateCircuits a circuits (some m) mode ≠ .ok () →
      ∃ v w : Violation, validateCircuits a circuits (some m) mode = .error v ∧
        validateCircuits a (circuits.map (·.mapQubits (renamed m))) none mode = .error w) := by
  have hiff := @validateCircuits_mapQubits_iff a m mode circuits moves injective covered
  refine ⟨hiff.symm, fun hinvalid => ?_⟩
  have hphysical := mt hiff.1 hinvalid
  cases hlogical : validateCircuits a circuits (some m) mode with
  | ok u => exact absurd hlogical hinvalid
  | error v =>
      cases hmapped : validateCircuits a (circuits.map (·.mapQubits (renamed m))) none mode with
      | ok u => exact absurd hmapped hphysical
      | error w => exact ⟨v, w, rfl, rfl⟩

/-- Each of three components of the star has the name of the next one. -/
def shiftedStar : QubitMapping :=
  ((Table.empty.insert "CR1" "QB1").insert "QB1" "QB2").insert "QB2" "CR1"

theorem get?_shiftedStar_eq_some_iff {name p : String} : shiftedStar.get? name = some p ↔
    name = "CR1" ∧ p = "QB1" ∨ name = "QB1" ∧ p = "QB2" ∨ name = "QB2" ∧ p = "CR1" := by
  rw [shiftedStar, Table.get?_insert, Table.get?_insert, Table.get?_insert, Table.get?_empty]
  by_cases hsecond : name = "QB2"
  · simp [hsecond, eq_comm]
  · by_cases hfirst : name = "QB1"
    · simp [hfirst, eq_comm]
    · by_cases hresonator : name = "CR1"
      · simp [hresonator, eq_comm]
      · simp [hsecond, hfirst, hresonator]

theorem injective_shiftedStar : shiftedStar.Injective := by
  intro l l' p h h'
  rw [get?_shiftedStar_eq_some_iff] at h h'
  rcases h with ⟨rfl, rfl⟩ | ⟨rfl, rfl⟩ | ⟨rfl, rfl⟩ <;> simpa [eq_comm] using h'

/-- A sandwich under these names. -/
def shiftedSandwich : Circuit where
  name := "shifted"
  instructions := [.move "CR1" "QB2", .cz "QB1" "QB2", .move "CR1" "QB2",
    .measure ["CR1", "QB1"] "m"]
  name_ne_empty := by decide
  instructions_ne_nil := List.cons_ne_nil _ _

/-- The physical circuit reads as a sandwich on the star; read without the mapping the logical one
has MOVEs that go the wrong way. -/
theorem validateCircuits_mapQubits_shifted :
    validateCircuits (starArchitecture 2) [shiftedSandwich] (some shiftedStar) .strict = .ok () ∧
      validateCircuits (starArchitecture 2) [shiftedSandwich.mapQubits (renamed shiftedStar)] none
        .strict = .ok () ∧
      validateCircuits (starArchitecture 2) [shiftedSandwich] none .strict ≠ .ok () := by
  have hcovered : ∀ c ∈ [shiftedSandwich], ∀ i ∈ c.instructions, ∀ q ∈ i.qubits,
      shiftedStar.contains q = true := by decide +kernel
  have hlogical : validateCircuits (starArchitecture 2) [shiftedSandwich] (some shiftedStar)
      .strict = .ok () := by cbv
  refine ⟨hlogical, ?_, by decide +kernel⟩
  exact (validateCircuits_mapQubits (movesIntoResonators_star 2) injective_shiftedStar hcovered
    .strict).1.1 hlogical

end StarQpu
