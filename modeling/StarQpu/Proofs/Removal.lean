import StarQpu.Proofs.Bank.Setup
import StarQpu.Proofs.Result
import StarQpu.Routing.Removal

/-!
# StarQpu.Proofs.Removal

**Removal, one instruction at a time.** The events that removal logs never change its result, so the
result has one equation for a MOVE and one for any other instruction, and so has the precondition. A
circuit without MOVEs is its own removal.
-/

namespace StarQpu

variable {b : ResonatorBank} {i : Instruction} {q r : String} {rest : List Instruction}

/-! ### Kinds of instructions -/

theorem Action.mapQubits_congr {f g : String → String} {action : Action}
    (h : ∀ q ∈ action.qubits, f q = g q) : action.mapQubits f = action.mapQubits g := by
  cases action with
  | barrier qs => exact congrArg Action.barrier (List.map_congr_left h)
  | measure qs key => exact congrArg (Action.measure · key) (List.map_congr_left h)
  | cz p q => rw [mapQubits, mapQubits, h p (by simp [qubits]), h q (by simp [qubits])]
  | move q r => rw [mapQubits, mapQubits, h q (by simp [qubits]), h r (by simp [qubits])]
  | prx q angle phase => rw [mapQubits, mapQubits, h q (by simp [qubits])]

namespace Instruction

/-- What becomes of an instruction depends on the components it acts on. -/
theorem mapQubits_congr {f g : String → String} (h : ∀ q ∈ i.qubits, f q = g q) :
    i.mapQubits f = i.mapQubits g := by
  rw [mapQubits, mapQubits, Action.mapQubits_congr h]

@[simp] theorem mapQubits_mapQubits (f g : String → String) (i : Instruction) :
    (i.mapQubits f).mapQubits g = i.mapQubits (g ∘ f) := by
  simp [mapQubits]

@[simp] theorem mapQubits_id (i : Instruction) : i.mapQubits id = i := by
  simp [mapQubits]

theorem mapQubits_eq_self {f : String → String} (h : ∀ q ∈ i.qubits, f q = q) :
    i.mapQubits f = i :=
  (mapQubits_congr h).trans (mapQubits_id i)

theorem isMove_iff : i.isMove = true ↔ ∃ q r, i.action = .move q r := by
  obtain ⟨action, implementation⟩ := i
  cases action <;> simp [isMove]

theorem isCz_iff : i.isCz = true ↔ ∃ p q, i.action = .cz p q := by
  obtain ⟨action, implementation⟩ := i
  cases action <;> simp [isCz]

theorem not_isMove_of_isCz (h : i.isCz = true) : i.isMove = false := by
  obtain ⟨action, implementation⟩ := i
  cases action <;> simp [isCz, isMove] at h ⊢

@[simp] theorem isMove_mapQubits (f : String → String) (i : Instruction) :
    (i.mapQubits f).isMove = i.isMove := by
  obtain ⟨action, implementation⟩ := i
  cases action <;> rfl

theorem mapQubits_of_move (hmove : i.action = .move q r) (f : String → String) :
    (i.mapQubits f).action = .move (f q) (f r) := by
  simp [mapQubits, hmove, Action.mapQubits]

@[simp] theorem isCz_mapQubits (f : String → String) (i : Instruction) :
    (i.mapQubits f).isCz = i.isCz := by
  obtain ⟨action, implementation⟩ := i
  cases action <;> rfl

theorem isMove_eq_false_iff : i.isMove = false ↔ ∀ q r, i.action ≠ .move q r := by
  rw [← Bool.not_eq_true, isMove_iff]
  simp only [not_exists, ne_eq]

theorem name_eq_cz_iff : i.name = "cz" ↔ i.isCz = true := by
  obtain ⟨action, implementation⟩ := i
  cases action <;> simp [name, isCz, Action.operation, Operation.barrier, Operation.cz,
    Operation.move, Operation.measure, Operation.prx]

theorem name_eq_move_iff : i.name = "move" ↔ i.isMove = true := by
  obtain ⟨action, implementation⟩ := i
  cases action <;> simp [name, isMove, Action.operation, Operation.barrier, Operation.cz,
    Operation.move, Operation.measure, Operation.prx]

theorem qubits_of_cz (hcz : i.action = .cz q r) : i.qubits = [q, r] := by
  rw [qubits, hcz]
  rfl

end Instruction

theorem Circuit.containsMoves_eq_false_iff {c : Circuit} :
    c.containsMoves = false ↔ ∀ i ∈ c.instructions, i.isMove = false := by
  simp only [Circuit.containsMoves, List.any_eq_false, Bool.not_eq_true]

/-! ### Circuits with other instructions -/

theorem Circuit.withBody_eq_ok_iff {c c' : Circuit} {instructions : List Instruction} :
    c.withBody instructions = .ok c' ↔
      ∃ h : instructions ≠ [], c' = { c with instructions, instructions_ne_nil := h } := by
  rw [withBody, withInstructions]
  by_cases h : instructions = []
  · simp [h, Except.mapError]
  · simp only [h, dite_false, Except.mapError, Except.ok.injEq, ne_eq, not_false_eq_true,
      exists_true_left]
    exact eq_comm

theorem Circuit.withBody_self (c : Circuit) : c.withBody c.instructions = .ok c :=
  withBody_eq_ok_iff.2 ⟨c.instructions_ne_nil, rfl⟩

/-! ### What becomes of an instruction -/

theorem resolveInstruction_of_not_tracks (h : ∀ q ∈ i.qubits, b.tracks q = false) :
    resolveInstruction b i = i := by
  have hsame : i.qubits.map b.resolve = i.qubits.map id :=
    List.map_congr_left fun q hq => ResonatorBank.resolve_of_not_tracks (h q hq)
  rw [List.map_id] at hsame
  rw [resolveInstruction, if_pos hsame]

theorem emptyResonatorIn?_eq_none_iff {locus : Locus} :
    emptyResonatorIn? b locus = none ↔ ∀ c ∈ locus, b.holder? c ≠ some c := by
  simp only [emptyResonatorIn?, List.find?_eq_none, decide_eq_true_eq, ne_eq]

theorem emptyResonatorIn?_of_not_tracks {locus : Locus} (h : ∀ c ∈ locus, b.tracks c = false) :
    emptyResonatorIn? b locus = none := by
  rw [emptyResonatorIn?_eq_none_iff]
  intro c hc
  rw [ResonatorBank.tracks_eq_false_iff.1 (h c hc)]
  simp

theorem removeFrom_result_move (circuit : String) (hmove : i.action = .move q r) :
    (removeFrom circuit b (i :: rest)).result =
      (b.apply q r).bind fun next => (removeFrom circuit next rest).result := by
  rw [removeFrom, hmove]
  exact Logged.result_bind _ _

theorem removeFrom_result_other (circuit : String) (hother : i.isMove = false) :
    (removeFrom circuit b (i :: rest)).result =
      (removeFrom circuit b rest).result.bind fun more =>
        .ok (resolveInstruction b i :: more) := by
  have hbody : (removeFrom circuit b rest >>= fun more =>
      (pure (resolveInstruction b i :: more) : Logged RoutingError _)).result =
      (removeFrom circuit b rest).result.bind fun more =>
        .ok (resolveInstruction b i :: more) :=
    Logged.result_bind _ _
  rw [removeFrom, ← hbody]
  -- the warning about an empty resonator goes to the log only
  cases haction : i.action with
  | move q r => exact absurd haction (Instruction.isMove_eq_false_iff.1 hother q r)
  | _ =>
      cases emptyResonatorIn? b i.qubits with
      | none => rfl
      | some resonator => exact Logged.result_bind _ _

theorem checkRemovable_move (hmove : i.action = .move q r) :
    checkRemovable b (i :: rest) = (b.apply q r).bind fun next => checkRemovable next rest := by
  rw [checkRemovable, hmove]
  rfl

theorem checkRemovable_other (hother : i.isMove = false)
    (held : emptyResonatorIn? b i.qubits = none) :
    checkRemovable b (i :: rest) = checkRemovable b rest := by
  rw [checkRemovable]
  cases haction : i.action with
  | move q r => exact absurd haction (Instruction.isMove_eq_false_iff.1 hother q r)
  | _ => simp only [held]

/-- The check refuses the instructions that removal warns of. -/
theorem checkRemovable_other_iff (hother : i.isMove = false) :
    checkRemovable b (i :: rest) = .ok () ↔
      emptyResonatorIn? b i.qubits = none ∧ checkRemovable b rest = .ok () := by
  cases hempty : emptyResonatorIn? b i.qubits with
  | none =>
      rw [checkRemovable_other hother hempty]
      simp
  | some resonator =>
      rw [checkRemovable]
      cases haction : i.action with
      | move q r => exact absurd haction (Instruction.isMove_eq_false_iff.1 hother q r)
      | _ => simp [hempty]

/-! ### Circuits without MOVEs -/

theorem not_tracks_ofCircuit {c : Circuit} (noMoves : c.containsMoves = false) (r : String) :
    (ResonatorBank.ofCircuit c).tracks r = false := by
  rw [← Bool.not_eq_true, ResonatorBank.ofCircuit, ResonatorBank.tracks_ofInstructions_iff]
  intro h
  obtain ⟨i, hi, q, hmove⟩ := h
  exact Instruction.isMove_eq_false_iff.1
    (Circuit.containsMoves_eq_false_iff.1 noMoves i hi) q r hmove

/-- Instructions that are no MOVEs and touch no tracked resonator stay as they are. -/
theorem removeFrom_result_self (circuit : String) {instructions : List Instruction}
    (other : ∀ i ∈ instructions, i.isMove = false)
    (free : ∀ i ∈ instructions, ∀ q ∈ i.qubits, b.tracks q = false) :
    (removeFrom circuit b instructions).result = .ok instructions := by
  -- without a MOVE the bank is the same at every instruction
  induction instructions with
  | nil => rfl
  | cons i rest ih =>
      rw [List.forall_mem_cons] at other free
      rw [removeFrom_result_other circuit other.1, ih other.2 free.2,
        resolveInstruction_of_not_tracks free.1]
      rfl

theorem checkRemovable_of_not_move {instructions : List Instruction}
    (other : ∀ i ∈ instructions, i.isMove = false)
    (free : ∀ i ∈ instructions, ∀ q ∈ i.qubits, b.tracks q = false) :
    checkRemovable b instructions = .ok () := by
  induction instructions with
  | nil => rfl
  | cons i rest ih =>
      rw [List.forall_mem_cons] at other free
      rw [checkRemovable_other other.1 (emptyResonatorIn?_of_not_tracks free.1)]
      exact ih other.2 free.2

/-- A circuit without MOVEs can always be freed of its MOVEs. -/
theorem removalPrecondition_of_not_containsMoves {c : Circuit} (noMoves : c.containsMoves = false) :
    removalPrecondition c = .ok () :=
  checkRemovable_of_not_move (Circuit.containsMoves_eq_false_iff.1 noMoves)
    fun _ _ q _ => not_tracks_ofCircuit noMoves q

/-- A circuit without MOVEs is its own removal. -/
theorem removeMoves_result_self {c : Circuit} (noMoves : c.containsMoves = false) :
    (removeMoves c).result = .ok c := by
  have hself : (removeFrom c.name (.ofCircuit c) c.instructions).result = .ok c.instructions :=
    removeFrom_result_self c.name (Circuit.containsMoves_eq_false_iff.1 noMoves)
      fun i _ q _ => not_tracks_ofCircuit noMoves q
  have hsome : c.instructions.isEmpty = false := by
    rw [List.isEmpty_eq_false_iff]
    exact c.instructions_ne_nil
  rw [removeMoves, Logged.result_bind, hself]
  simp only [Except.bind, hsome, Bool.false_eq_true, if_false]
  exact c.withBody_self

@[simp] theorem isMove_resolveInstruction (b : ResonatorBank) (i : Instruction) :
    (resolveInstruction b i).isMove = i.isMove := by
  rw [resolveInstruction]
  split
  next => rfl
  next => exact Instruction.isMove_mapQubits _ i

/-- Removal leaves no MOVE. -/
theorem not_isMove_of_removeFrom {circuit : String} {instructions out : List Instruction}
    (h : (removeFrom circuit b instructions).result = .ok out) : ∀ i ∈ out, i.isMove = false := by
  induction instructions generalizing b out with
  | nil =>
      obtain rfl : [] = out := Except.ok.inj h
      exact fun i hi => absurd hi List.not_mem_nil
  | cons i rest ih =>
      cases hmove : i.isMove with
      | true =>
          obtain ⟨q, r, haction⟩ := Instruction.isMove_iff.1 hmove
          rw [removeFrom_result_move circuit haction, bind_eq_ok_iff] at h
          obtain ⟨next, -, hrest⟩ := h
          exact ih hrest
      | false =>
          rw [removeFrom_result_other circuit hmove, bind_eq_ok_iff] at h
          obtain ⟨more, hrest, hout⟩ := h
          rw [← Except.ok.inj hout, List.forall_mem_cons, isMove_resolveInstruction]
          exact ⟨hmove, ih hrest⟩

/-- The log aside, removal walks the instructions and makes a circuit of what it finds. -/
theorem removeMoves_result (c : Circuit) : (removeMoves c).result =
    (removeFrom c.name (.ofCircuit c) c.instructions).result.bind fun instructions =>
      if instructions = [] then .error (.transpilation (.onlyMoves c.name))
      else c.withBody instructions := by
  rw [removeMoves, Logged.result_bind]
  congr 1
  funext instructions
  cases instructions <;> rfl

/-- What a successful removal did. -/
theorem removeMoves_result_eq_ok {c d : Circuit} (h : (removeMoves c).result = .ok d) :
    ∃ instructions, (removeFrom c.name (.ofCircuit c) c.instructions).result = .ok instructions ∧
      c.withBody instructions = .ok d := by
  rw [removeMoves_result, bind_eq_ok_iff] at h
  obtain ⟨instructions, hremove, h⟩ := h
  refine ⟨instructions, hremove, ?_⟩
  by_cases hnone : instructions = []
  · rw [if_pos hnone] at h
    exact absurd h (by simp)
  · rw [if_neg hnone] at h
    exact h

/-- What removal leaves makes a circuit as soon as it is not empty. -/
theorem removeMoves_result_of_removeFrom {c : Circuit} {instructions : List Instruction}
    (h : (removeFrom c.name (.ofCircuit c) c.instructions).result = .ok instructions)
    (hsome : instructions ≠ []) :
    (removeMoves c).result = c.withBody instructions := by
  rw [removeMoves_result, h]
  exact if_neg hsome

end StarQpu
