import StarQpu.Instruction

/-!
# StarQpu.Proofs.Instruction

**What building an instruction depends on.** An instruction is built exactly when every check passes
(`build_eq_ok_iff`). The checks look at the implementation only for whether it has a name, and at
the components only for their number. So what is built from other components, or for another
implementation, is the same action there (`build_eq_ok_iff_of_build`).
-/

namespace StarQpu

/-! ### The parts of an action -/

namespace Action

variable {name : String} {qubits others : Locus} {args : Table String Json} {action other : Action}

theorem operation_mem_table (action : Action) : action.operation ∈ Operation.table := by
  cases action <;> simp [operation, Operation.table]

theorem find?_operation (action : Action) :
    Operation.find? action.operation.name = some action.operation := by
  cases action <;> rfl

theorem operation_of_withQubits? (h : action.withQubits? others = some other) :
    other.operation = action.operation := by
  unfold withQubits? at h
  split at h <;> cases h <;> rfl

theorem qubits_of_withQubits? (h : action.withQubits? others = some other) :
    other.qubits = others := by
  unfold withQubits? at h
  split at h <;> cases h <;> rfl

/-- An action goes over to other components if there are as many as it needs. -/
theorem exists_withQubits?_iff : (∃ other, action.withQubits? others = some other) ↔
    action.operation.arity.any (· ≠ others.length) = false := by
  cases action <;> rcases others with _ | ⟨p, _ | ⟨q, _ | ⟨r, rest⟩⟩⟩ <;>
    simp [withQubits?, operation, Operation.barrier, Operation.cz, Operation.move,
      Operation.measure, Operation.prx]

theorem name_of_ofParts? (h : ofParts? name qubits args = some action) :
    action.operation.name = name := by
  unfold ofParts? at h
  split at h
  all_goals cases h
  all_goals rfl

/-- The row that an action was put together from needs as many components as the row it belongs to,
which is another one if the name was no longer current. -/
theorem arity_of_ofParts? {op : Operation} (hop : op ∈ Operation.table)
    (h : ofParts? op.currentName qubits args = some action) :
    op.arity = action.operation.arity := by
  have hrow : ∀ op ∈ Operation.table,
      (Operation.find? op.currentName).map (·.arity) = some op.arity := by decide
  have harity := hrow op hop
  rw [← name_of_ofParts? h, find?_operation] at harity
  exact (Option.some.inj harity).symm

/-- On other components the same name and arguments make the same action. -/
theorem ofParts?_eq_withQubits? (h : ofParts? name qubits args = some action) :
    ofParts? name others args = action.withQubits? others := by
  unfold ofParts? at h
  split at h
  all_goals cases h
  all_goals
    next hargs =>
      unfold ofParts?
      rw [hargs]
      rcases others with _ | ⟨p, _ | ⟨q, _ | ⟨r, rest⟩⟩⟩ <;> rfl

end Action

/-! ### Building -/

namespace Instruction

variable {name : String} {implementation asked : Option String} {qubits others : Locus}
  {args : Table String Json} {i j : Instruction}

/-- **An instruction is built exactly when every check passes.** -/
theorem build_eq_ok_iff : build name implementation qubits args = .ok i ↔
    implementation ≠ some "" ∧ i.implementation = implementation ∧
      ∃ op, Operation.find? name = some op ∧ op.arity.any (· ≠ qubits.length) = false ∧
        ¬ (args.size ≠ op.args.length ∨ !op.args.all fun (arg, _) => args.contains arg) ∧
        wrongArgument? args op.args = none ∧
        Action.ofParts? op.currentName qubits args = some i.action := by
  constructor
  · intro h
    unfold build at h
    split at h
    next => cases h
    next op hop =>
      split at h
      next => cases h
      next hnamed =>
        split at h
        next => cases h
        next harity =>
          split at h
          next => cases h
          next hnames =>
            split at h
            next => cases h
            next htypes =>
              split at h
              next action hparts =>
                cases h
                rw [Bool.not_eq_true] at harity
                exact ⟨hnamed, rfl, op, hop, harity, hnames, htypes, hparts⟩
              next => cases h
  · intro h
    obtain ⟨hnamed, rfl, op, hop, harity, hnames, htypes, hparts⟩ := h
    unfold build
    rw [hop]
    dsimp only
    rw [if_neg hnamed, harity, if_neg Bool.false_ne_true, if_neg hnames, htypes, hparts]

/-- **What else is built under a name and with arguments that an instruction is built from**: the
same action on as many components, for any implementation that has a name. -/
theorem build_eq_ok_iff_of_build (built : build name implementation qubits args = .ok i) :
    build name asked others args = .ok j ↔
      asked ≠ some "" ∧ j.implementation = asked ∧ i.action.withQubits? others = some j.action := by
  obtain ⟨-, -, op, hop, -, hnames, htypes, hparts⟩ := build_eq_ok_iff.1 built
  have hmoved : Action.ofParts? op.currentName others args = i.action.withQubits? others :=
    Action.ofParts?_eq_withQubits? hparts
  constructor
  · intro h
    obtain ⟨hnamed, hasked, op', hop', -, -, -, hparts'⟩ := build_eq_ok_iff.1 h
    obtain rfl := Option.some.inj (hop.symm.trans hop')
    exact ⟨hnamed, hasked, hmoved.symm.trans hparts'⟩
  · intro h
    obtain ⟨hnamed, hasked, hothers⟩ := h
    refine build_eq_ok_iff.2 ⟨hnamed, hasked, op, hop, ?_, hnames, htypes, hmoved.trans hothers⟩
    rw [Action.arity_of_ofParts? (List.mem_of_find?_eq_some hop) hparts]
    exact Action.exists_withQubits?_iff.1 ⟨j.action, hothers⟩

theorem arity_of_build (built : build name implementation qubits args = .ok i) :
    i.action.operation.arity.any (· ≠ qubits.length) = false :=
  Action.exists_withQubits?_iff.1 ⟨i.action, ((build_eq_ok_iff_of_build built).1 built).2.2⟩

end Instruction

end StarQpu
