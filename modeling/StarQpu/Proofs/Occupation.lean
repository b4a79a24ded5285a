import StarQpu.Proofs.Bank.Moving
import StarQpu.Proofs.Mapping
import StarQpu.Proofs.Removal
import StarQpu.Proofs.Table
import StarQpu.Validation.Moves

/-!
# StarQpu.Proofs.Occupation

**The occupation follows the bank.** Validation and routing keep track of the resonators on their
own: validation lists the occupied ones, a bank gives every resonator a holder. An occupation
`Agrees` with a bank if it lists exactly the resonators that hold the state of another component. A
MOVE that the bank allows is a valid one, and leads from agreeing states to agreeing states
(`Agrees.step_move`).
-/

namespace StarQpu

/-- Barriers may act on a qubit whose state is in a resonator, and rotations where the mode allows
it. -/
theorem MoveValidation.tolerates_iff {mode : MoveValidation} {i : Instruction} :
    mode.tolerates i = true ↔ i.name = "barrier" ∨ mode = .allowPrx ∧ i.name = "prx" := by
  obtain ⟨action, implementation⟩ := i
  cases action <;> simp [tolerates, Instruction.name, Action.operation, Operation.barrier,
    Operation.cz, Operation.move, Operation.measure, Operation.prx]

end StarQpu

namespace StarQpu.Occupation

variable {o o' : Occupation} {b b₁ : ResonatorBank} {i : Instruction} {q r : String}
  {qubits resonators : List String} {mode : MoveValidation} {instructions rest : List Instruction}

theorem holds_iff : o.holds q = true ↔ ∃ r, o.get? r = some q := by
  rw [holds, List.contains_iff_mem, Table.mem_values_iff]

theorem get?_release (s : String) :
    (o.release r).get? s = if s = r then none else o.get? s := by
  rw [release, Table.get?_filter]
  by_cases hs : s = r
  · simp [hs]
  · cases o.get? s with
    | none => simp [hs]
    | some q => simp [hs]

/-- A MOVE fills an empty resonator with a state that is in no other one, or empties it again. -/
theorem move_eq_ok_iff : o.move q r = .ok o' ↔
    (o.get? r = none ∧ o.holds q = false ∧ o' = Table.insert o r q) ∨
      (o.get? r = some q ∧ o' = o.release r) := by
  rw [move]
  cases o.get? r with
  | none => cases o.holds q <;> simp [@eq_comm _ o']
  | some occupant => by_cases hself : occupant = q <;> simp [hself, @eq_comm _ o']

/-! ### Steps -/

theorem step_move (hmove : i.action = .move q r) (hq : q ∈ qubits) (hr : r ∈ resonators) :
    o.step qubits resonators mode i = o.move q r := by
  rw [step, hmove]
  simp [hq, hr]

/-- A MOVE has to go from a qubit to a resonator. -/
theorem step_move_eq_ok_iff (hmove : i.action = .move q r) :
    o.step qubits resonators mode i = .ok o' ↔
      (q ∈ qubits ∧ r ∈ resonators) ∧ o.move q r = .ok o' := by
  by_cases hends : q ∈ qubits ∧ r ∈ resonators
  · rw [step_move hmove hends.1 hends.2]
    exact (and_iff_right hends).symm
  · rw [step, hmove]
    simp [hends]

/-- What may stand inside of a sandwich. -/
theorem step_other_eq_ok_iff (hother : i.isMove = false) :
    o.step qubits resonators mode i = .ok o' ↔
      o' = o ∧ (mode.tolerates i = true ∨ ∀ q ∈ i.qubits, o.holds q = false) := by
  have hstep : o.step qubits resonators mode i =
      if mode.tolerates i || (i.qubits.filter o.holds).isEmpty then .ok o
      else .error (.heldState i.name i.qubits (i.qubits.filter o.holds) o.entries) := by
    rw [step]
    cases haction : i.action with
    | move q r => exact absurd haction (Instruction.isMove_eq_false_iff.1 hother q r)
    | _ => rfl
  have hfree : (i.qubits.filter o.holds).isEmpty = true ↔ ∀ q ∈ i.qubits, o.holds q = false := by
    rw [List.isEmpty_iff, List.filter_eq_nil_iff]
    simp only [Bool.not_eq_true]
  rw [hstep, ← hfree, ← Bool.or_eq_true]
  by_cases hpass : (mode.tolerates i || (i.qubits.filter o.holds).isEmpty) = true
  · rw [if_pos hpass, Except.ok.injEq]
    constructor
    · intro h
      exact ⟨h.symm, hpass⟩
    · intro h
      exact h.1.symm
  · rw [if_neg hpass]
    constructor
    · intro h
      simp at h
    · intro h
      exact absurd h.2 hpass

@[simp] theorem run_nil : run qubits resonators mode o [] = .ok o := rfl

theorem run_cons : run qubits resonators mode o (i :: rest) =
    (o.step qubits resonators mode i).bind fun next => run qubits resonators mode next rest := rfl

/-- Validation gets past MOVEs from qubits to resonators only. -/
theorem mem_of_run (h : run qubits resonators mode o instructions = .ok o') (hi : i ∈ instructions)
    (hmove : i.action = .move q r) : q ∈ qubits ∧ r ∈ resonators := by
  induction instructions generalizing o with
  | nil => exact absurd hi List.not_mem_nil
  | cons j rest ih =>
      rw [run_cons, bind_eq_ok_iff] at h
      obtain ⟨o₁, hstep, hrest⟩ := h
      rcases List.mem_cons.1 hi with rfl | hi
      · exact ((step_move_eq_ok_iff hmove).1 hstep).1
      · exact ih hrest hi

/-- Where all MOVEs go from qubits to resonators, it does not matter which other ones there are. -/
theorem run_of_ends {qubits' resonators' : List String}
    (h : run qubits resonators mode o instructions = .ok o')
    (ends : ∀ i ∈ instructions, ∀ q r, i.action = .move q r → q ∈ qubits' ∧ r ∈ resonators') :
    run qubits' resonators' mode o instructions = .ok o' := by
  induction instructions generalizing o with
  | nil => exact h
  | cons i rest ih =>
      obtain ⟨hends, ends⟩ := List.forall_mem_cons.1 ends
      rw [run_cons, bind_eq_ok_iff] at h
      obtain ⟨o₁, hstep, hrest⟩ := h
      have hstep' : o.step qubits' resonators' mode i = .ok o₁ := by
        cases hmove : i.isMove with
        | true =>
            obtain ⟨q, r, haction⟩ := Instruction.isMove_iff.1 hmove
            exact (step_move_eq_ok_iff haction).2
              ⟨hends q r haction, ((step_move_eq_ok_iff haction).1 hstep).2⟩
        | false =>
            exact (step_other_eq_ok_iff hmove).2 ((step_other_eq_ok_iff hmove).1 hstep)
      rw [run_cons, hstep']
      exact ih hrest ends

/-- Nothing is held as long as nothing is moved. -/
theorem run_empty_of_not_move (hother : ∀ i ∈ instructions, i.isMove = false) :
    run qubits resonators mode .empty instructions = .ok .empty := by
  induction instructions with
  | nil => rfl
  | cons i rest ih =>
      have hstep : step qubits resonators mode .empty i = .ok .empty :=
        (step_other_eq_ok_iff (hother i List.mem_cons_self)).2 ⟨rfl, Or.inr fun q _ => rfl⟩
      rw [run_cons, hstep]
      exact ih fun j hj => hother j (List.mem_cons_of_mem _ hj)

end StarQpu.Occupation

namespace StarQpu

/-- A list without MOVEs has no invalid sandwich. -/
theorem validateMoveList_of_not_move {a : DynamicArchitecture} {instructions : List Instruction}
    (mapping : Option QubitMapping) (mode : MoveValidation)
    (hother : ∀ i ∈ instructions, i.isMove = false) :
    validateMoveList a instructions mapping mode = .ok () := by
  have hany : instructions.any (·.isMove) = false := by
    rw [List.any_eq_false]
    intro i hi
    rw [hother i hi]
    decide
  rw [validateMoveList, hany]
  by_cases hunchecked : mode = .unchecked
  · rw [if_pos hunchecked]
  · rw [if_neg hunchecked]
    by_cases hsupport : (!a.supportsMove) = true
    · rw [if_pos hsupport]
      rfl
    · rw [if_neg hsupport]
      dsimp only
      rw [Occupation.run_empty_of_not_move hother]
      rfl

/-- A list is valid exactly when its run, on the names that the components have, leaves nothing in a
resonator. -/
theorem validateMoveList_eq_ok_iff_run {a : DynamicArchitecture} {instructions : List Instruction}
    {mapping : Option QubitMapping} {mode : MoveValidation} (supports : a.supportsMove = true)
    (hmode : mode ≠ .unchecked) :
    validateMoveList a instructions mapping mode = .ok () ↔
      ∃ o, Occupation.run (a.qubits.map (renamed ((mapping.map (·.inverse)).getD .empty)))
          (a.resonators.map (renamed ((mapping.map (·.inverse)).getD .empty))) mode .empty
          instructions = .ok o ∧ o.entries = [] := by
  rw [validateMoveList, if_neg hmode, supports]
  simp only [Bool.not_true, Bool.false_eq_true, if_false]
  cases Occupation.run (a.qubits.map (renamed ((mapping.map (·.inverse)).getD .empty)))
      (a.resonators.map (renamed ((mapping.map (·.inverse)).getD .empty))) mode .empty
      instructions with
  | error v => simp [bind, Except.bind]
  | ok o =>
      cases hentries : o.entries with
      | nil => simp [bind, Except.bind, hentries, pure, Except.pure]
      | cons e rest => simp [bind, Except.bind, hentries, throw, throwThe, MonadExceptOf.throw]

theorem validateMoveList_eq_ok_iff {a : DynamicArchitecture} {instructions : List Instruction}
    {mode : MoveValidation} (supports : a.supportsMove = true) (hmode : mode ≠ .unchecked) :
    validateMoveList a instructions none mode = .ok () ↔
      ∃ o, Occupation.run a.qubits a.resonators mode .empty instructions = .ok o ∧
        o.entries = [] := by
  have hnames : renamed .empty = id := by
    funext c
    exact renamed_of_get?_eq_none (Table.get?_empty c)
  rw [validateMoveList_eq_ok_iff_run supports hmode, Option.map_none, Option.getD_none, hnames,
    List.map_id, List.map_id]

namespace Occupation

variable {o : Occupation} {b b₁ : ResonatorBank} {i : Instruction} {q r : String}
  {qubits resonators : List String} {mode : MoveValidation}

/-! ### Agreement with a bank -/

/-- The occupation lists the resonators of the bank that hold the state of another component. -/
def Agrees (o : Occupation) (b : ResonatorBank) : Prop :=
  ∀ r q, o.get? r = some q ↔ b.holder? r = some q ∧ q ≠ r

theorem Agrees.empty (rest : b.AtRest) : Agrees .empty b := by
  intro r q
  rw [Table.get?_empty]
  constructor
  · intro h
    simp at h
  · intro h
    exact absurd (rest r q h.1) h.2

namespace Agrees

variable (agrees : o.Agrees b)
include agrees

theorem holds_iff : o.holds q = true ↔ ∃ r, b.holder? r = some q ∧ q ≠ r := by
  rw [Occupation.holds_iff]
  simp only [agrees _ q]

theorem holds_eq_false_iff : o.holds q = false ↔ ∀ r, b.holder? r = some q → q = r := by
  rw [← Bool.not_eq_true, holds_iff agrees, not_exists]
  simp only [not_and, not_not]

/-- The occupation is empty as soon as every resonator holds its own state. -/
theorem entries_eq_nil (rest : b.AtRest) : o.entries = [] := by
  rw [Table.entries_eq_nil_iff]
  intro r
  cases hget : o.get? r with
  | none => rfl
  | some q =>
      obtain ⟨hheld, hne⟩ := (agrees r q).1 hget
      exact absurd (rest r q hheld) hne

/-- The state in a resonator leaves on both sides. -/
theorem release (hr : b.holder? r = some q) : (o.release r).Agrees (b.setHolder r r) := by
  intro s p
  rw [get?_release, ResonatorBank.holder?_setHolder]
  by_cases hs : s = r
  · subst hs
    simp [hr, eq_comm]
  · simp only [hs, if_false]
    exact agrees s p

/-- A state enters a resonator on both sides. -/
theorem insert {h : String} (hr : b.holder? r = some h) (hne : q ≠ r) :
    Agrees (Table.insert o r q) (b.setHolder r q) := by
  intro s p
  rw [Table.get?_insert, ResonatorBank.holder?_setHolder]
  by_cases hs : s = r
  · subst hs
    simp only [if_true, hr, Option.map_some, Option.some.injEq]
    constructor
    · intro h
      exact ⟨h, h ▸ hne⟩
    · intro h
      exact h.1
  · simp only [hs, if_false]
    exact agrees s p

/-- **A MOVE that the bank allows is valid**, and the states agree after it. -/
theorem step_move (hmove : i.action = .move q r) (hq : q ∈ qubits) (hr : r ∈ resonators)
    (hb : b.Separated) (applied : b.applied? q r = some b₁) :
    ∃ o₁, o.step qubits resonators mode i = .ok o₁ ∧ o₁.Agrees b₁ := by
  obtain ⟨hallow, rfl⟩ := ResonatorBank.applied?_eq_some_iff.1 applied
  obtain ⟨hmem, hheld, honly⟩ := (ResonatorBank.allows_iff hb.nodup).1 hallow
  have hne := hb.ne_of_mem_qubitsOf hmem
  rw [Occupation.step_move hmove hq hr]
  rcases hheld with hout | hin
  · -- the state of the qubit leaves the resonator
    have hoccupied : b.holder? r ≠ some r := by
      rw [hout, ne_eq, Option.some.injEq]
      exact hne
    have hget := (agrees r q).2 ⟨hout, hne⟩
    rw [if_neg hoccupied]
    exact ⟨o.release r, move_eq_ok_iff.2 (Or.inr ⟨hget, rfl⟩), agrees.release hout⟩
  · -- the state of the qubit enters the empty resonator
    have hget : o.get? r = none := by
      cases hget : o.get? r with
      | none => rfl
      | some p =>
          obtain ⟨hp, hpr⟩ := (agrees r p).1 hget
          rw [hin, Option.some.injEq] at hp
          exact absurd hp.symm hpr
    have hfree : o.holds q = false := by
      rw [agrees.holds_eq_false_iff]
      intro s hs
      rw [honly s hs, hin, Option.some.injEq] at hs
      exact absurd hs.symm hne
    rw [if_pos hin]
    exact ⟨o.insert r q, move_eq_ok_iff.2 (Or.inl ⟨hget, hfree, rfl⟩), agrees.insert hin hne⟩

end Agrees

end Occupation

end StarQpu
