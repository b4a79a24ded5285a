import StarQpu.Codec.Circuit
import StarQpu.Proofs.Codec.Record
import StarQpu.Proofs.Instruction

/-!
# StarQpu.Proofs.Codec.Circuit

**Instructions and circuits are read as they were written.** An instruction is written under the
current name of its operation, so building it again from what was written changes nothing
(`build_parts`). Not every instruction can be read back: one that a document gives has a rotation's
angles and, if it asks for an implementation, a name for it (`Buildable`).
-/

namespace StarQpu

open Decoder

/-! ### Building an instruction from its parts -/

namespace Action

/-- Has the action the angles without which a rotation is not built? -/
def HasAngles : Action → Prop
  | .prx _ angle phase => angle ≠ none ∧ phase ≠ none
  | _ => True

theorem hasAngles_of_ofParts? {name : String} {qubits : Locus} {args : Table String Json}
    {action : Action} (h : ofParts? name qubits args = some action) : action.HasAngles := by
  unfold ofParts? at h
  split at h
  all_goals cases h
  all_goals simp [HasAngles]

/-- An action is put together from its own parts. -/
theorem ofParts?_parts {action : Action} (h : action.HasAngles) :
    ofParts? action.operation.currentName action.qubits action.args = some action := by
  cases action with
  | prx qubit angle phase =>
      obtain ⟨hangle, hphase⟩ := h
      obtain ⟨n, rfl⟩ := Option.ne_none_iff_exists'.1 hangle
      obtain ⟨m, rfl⟩ := Option.ne_none_iff_exists'.1 hphase
      rfl
  | _ => rfl

theorem arity_qubits (action : Action) :
    action.operation.arity.any (· ≠ action.qubits.length) = false := by
  cases action <;> rfl

theorem size_args (action : Action) : action.args.size = action.operation.args.length := by
  cases action <;> rfl

theorem contains_args (action : Action) :
    (action.operation.args.all fun (arg, _) => action.args.contains arg) = true := by
  cases action <;> rfl

theorem wrongArgument?_args {action : Action} (h : action.HasAngles) :
    Instruction.wrongArgument? action.args action.operation.args = none := by
  cases action with
  | prx qubit angle phase =>
      obtain ⟨hangle, hphase⟩ := h
      obtain ⟨n, rfl⟩ := Option.ne_none_iff_exists'.1 hangle
      obtain ⟨m, rfl⟩ := Option.ne_none_iff_exists'.1 hphase
      rfl
  | _ => rfl

/-- The arguments of an action are no objects. -/
theorem canonical_args (action : Action) : ∀ v ∈ action.args.values, v.IsCanonical := by
  have hangle (angle : Angle) : (angleJson angle).IsCanonical := by cases angle <;> rfl
  cases action with
  | measure qubits key => exact List.forall_mem_singleton.2 rfl
  | prx qubit angle phase =>
      exact List.forall_mem_cons.2 ⟨hangle angle, List.forall_mem_singleton.2 (hangle phase)⟩
  | _ => exact fun v hv => absurd hv List.not_mem_nil

end Action

namespace Instruction

/-- Can the instruction be built from its parts? -/
def Buildable (i : Instruction) : Prop := i.action.HasAngles ∧ i.implementation ≠ some ""

theorem buildable_of_build {name : String} {implementation : Option String} {qubits : Locus}
    {args : Table String Json} {i : Instruction}
    (h : build name implementation qubits args = .ok i) : i.Buildable := by
  obtain ⟨hnamed, rfl, op, -, -, -, -, hparts⟩ := build_eq_ok_iff.1 h
  exact ⟨Action.hasAngles_of_ofParts? hparts, hnamed⟩

/-- An instruction is built again from its own parts. -/
theorem build_parts {i : Instruction} (h : i.Buildable) :
    build i.name i.implementation i.qubits i.args = .ok i := by
  have hsize : i.args.size = i.action.operation.args.length := Action.size_args i.action
  have hcontains : (i.action.operation.args.all fun (arg, _) => i.args.contains arg) = true :=
    Action.contains_args i.action
  refine build_eq_ok_iff.2 ⟨h.2, rfl, i.action.operation, Action.find?_operation i.action,
    Action.arity_qubits i.action, ?_, Action.wrongArgument?_args h.1, Action.ofParts?_parts h.1⟩
  rw [hsize, hcontains]
  simp

/-! ### The format of instructions -/

theorem slots_independent : Independent slots where
  distinct := by simp [slots]
  commute := by simp [slots]

theorem meetsAll (i : Instruction) : MeetsAll slots
    [("name", some (.str i.name)), ("implementation", i.implementation.map .str),
      ("qubits", some (.ofStrings i.qubits)), ("args", some i.argsJson)]
    {} ⟨some i.name, i.implementation.map some, some i.qubits, some i.args⟩ :=
  .cons (meets_slot rfl (reads_string i.name)) <|
  .cons (meets_option (fun r v => { r with implementation := v }) rfl rfl (fun _ => rfl)
    (fun t _ => reads_string t) nofun) <|
  .cons (meets_slot rfl (reads_list fun t _ => reads_string t)) <|
  .cons (meets_slot rfl (reads_table fun _ hv => reads_json (i.action.canonical_args _ hv))) .nil

theorem reads_of_buildable {i : Instruction} (h : i.Buildable) : Reads decoder i.toJson i := by
  refine reads_build slots_independent (meetsAll i) ?_
  rw [ofFields, getD_map_some]
  exact liftBuild_eq_ok_iff.2 (build_parts h)

theorem buildable_of_gives {i : Instruction} (h : Gives decoder i) : i.Buildable := by
  obtain ⟨o, s, r, -, hbuild⟩ := exists_record_of_gives h
  obtain ⟨name, -, hbuild⟩ := do_eq_ok_iff.1 hbuild
  obtain ⟨qubits, -, hbuild⟩ := do_eq_ok_iff.1 hbuild
  exact buildable_of_build (liftBuild_eq_ok_iff.1 hbuild)

theorem settles : Settles decoder toJson :=
  fun _ h => reads_of_buildable (buildable_of_gives h)

end Instruction

/-! ### The format of circuits -/

namespace Circuit

theorem slots_independent : Independent slots where
  distinct := by simp [slots]
  commute := by simp [slots]

theorem instructions_of_build {name : String} {instructions : List Instruction} {c : Circuit}
    (h : build name instructions = .ok c) : c.instructions = instructions := by
  unfold build at h
  split at h
  · cases h
  · split at h
    · cases h
    · cases h
      rfl

/-- Can every part of the circuit be read back? -/
structure Readable (c : Circuit) : Prop where
  buildable : ∀ i ∈ c.instructions, i.Buildable
  metadata : ∀ j, c.metadata = some j → j.IsCanonical ∧ j ≠ .null

theorem readable_of_gives {c : Circuit} (h : Gives decoder c) : c.Readable := by
  obtain ⟨o, s, r, hr, hbuild⟩ := exists_record_of_gives h
  have hinstructions : ∀ is, r.instructions = some is → Gives (list Instruction.decoder) is :=
    gives_record Fields.instructions hr rfl (by simp [slots])
  have hmetadata : ∀ v, r.metadata = some v → Gives (option json) v :=
    gives_record Fields.metadata hr rfl (by simp [slots])
  obtain ⟨name, -, hbuild⟩ := do_eq_ok_iff.1 hbuild
  obtain ⟨instructions, hrequired, hbuild⟩ := do_eq_ok_iff.1 hbuild
  obtain ⟨built, hbuilt, hattach⟩ := do_eq_ok_iff.1 hbuild
  cases hattach
  have hgiven := hinstructions instructions (required_eq_ok_iff.1 hrequired)
  refine ⟨fun i hi => ?_, fun j hj => ?_⟩
  · rw [instructions_of_build (liftBuild_eq_ok_iff.1 hbuilt)] at hi
    exact Instruction.buildable_of_gives (gives_list hgiven i hi)
  · exact gives_option_json (gives_of_getD hmetadata hj)

theorem meetsAll {c : Circuit} (h : c.Readable) : MeetsAll slots
    [("name", some (.str c.name)),
      ("instructions", some (.arr (c.instructions.map Instruction.toJson))),
      ("metadata", c.metadata.map id)]
    {} ⟨some c.name, some c.instructions, c.metadata.map some⟩ :=
  .cons (meets_slot rfl (reads_string c.name)) <|
  .cons (meets_slot rfl
    (reads_list fun i hi => Instruction.reads_of_buildable (h.buildable i hi))) <|
  .cons (meets_option (fun r v => { r with metadata := v }) rfl rfl (fun _ => rfl)
    (fun j hj => reads_json (h.metadata j hj).1) fun j hj => (h.metadata j hj).2) .nil

theorem build_parts (c : Circuit) :
    build c.name c.instructions = .ok { c with metadata := none } := by
  rw [build, dif_neg c.name_ne_empty, dif_neg c.instructions_ne_nil]

theorem reads_of_readable {c : Circuit} (h : c.Readable) : Reads decoder c.toJson c := by
  have hbuilt : ofFields ⟨some c.name, some c.instructions, c.metadata.map some⟩ = .ok c := by
    refine do_eq_ok_iff.2 ⟨c.name, rfl, do_eq_ok_iff.2 ⟨c.instructions, rfl, ?_⟩⟩
    refine do_eq_ok_iff.2 ⟨_, liftBuild_eq_ok_iff.2 (build_parts c), ?_⟩
    rw [getD_map_some]
    rfl
  have hmeets := meetsAll h
  rw [Option.map_id] at hmeets
  exact reads_build slots_independent hmeets hbuilt

theorem settles : Settles decoder toJson :=
  fun _ h => reads_of_readable (readable_of_gives h)

end Circuit

end StarQpu
