import StarQpu.Proofs.Routing.RemovalMeaning
import StarQpu.Proofs.Routing.Writing

/-!
# StarQpu.Proofs.Validation.Replay

**Validation is a replay on the bank of the circuit.** Validation knows the occupied resonators, the
bank of a circuit knows the MOVEs of the circuit and a holder for each of their resonators. As long
as the bank `Covers` the instructions that are still to come, the two do the same steps: where
validation gets on the bank allows the MOVE and no instruction acts on a qubit that is a holder
(`Agrees.follow_of_step`), and the other way round (`Agrees.step_of_follow`). So a circuit is
accepted exactly when its own bank follows it from rest to rest and spares the holders on the way
(`validateMoves_eq_ok_iff_follows`).
-/

namespace StarQpu

variable {a : DynamicArchitecture} {b b₁ b' : ResonatorBank} {o o₁ : Occupation} {c : Circuit}
  {i : Instruction} {l : List Instruction} {mode : MoveValidation}

namespace ResonatorBank

/-! ### Following step by step -/

theorem follows_cons_iff :
    b.Follows (i :: l) b' ↔ ∃ b₁, b.follow i = .ok b₁ ∧ b₁.Follows l b' := by
  constructor
  · intro h
    cases h with
    | move moves applied rest =>
        exact ⟨_, RoutingContext.follow_eq_ok_iff.2 (Or.inl ⟨_, _, moves, applied⟩), rest⟩
    | other other rest => exact ⟨b, RoutingContext.follow_of_not_move other, rest⟩
  · intro h
    obtain ⟨b₁, followed, rest⟩ := h
    exact rest.cons followed

/-- The instruction acts on no qubit whose state is in a resonator, unless it is a barrier, or a
rotation where the mode allows it. -/
def Spares (b : ResonatorBank) (a : DynamicArchitecture) (mode : MoveValidation)
    (i : Instruction) : Prop :=
  (i.name = "barrier" ∨ mode = .allowPrx ∧ i.name = "prx") ∨
    ∀ q ∈ i.qubits, a.isQubit q = true → ∀ r, b.holder? r ≠ some q

/-- While the bank follows the list, every instruction other than a MOVE spares the holders that it
finds in its place. -/
def SparesAll (b : ResonatorBank) (a : DynamicArchitecture) (mode : MoveValidation)
    (l : List Instruction) : Prop :=
  ∀ before i after u, l = before ++ i :: after → b.Follows before u → i.isMove = false →
    u.Spares a mode i

theorem sparesAll_nil : b.SparesAll a mode [] := by
  intro before i after u hsplit
  simp at hsplit

theorem sparesAll_cons_iff (followed : b.follow i = .ok b₁) :
    b.SparesAll a mode (i :: l) ↔
      (i.isMove = false → b.Spares a mode i) ∧ b₁.SparesAll a mode l := by
  constructor
  · intro h
    refine ⟨h [] i l b rfl (.done b), fun before j after u hsplit hfollows => ?_⟩
    exact h (i :: before) j after u (congrArg (i :: ·) hsplit)
      (follows_cons_iff.2 ⟨b₁, followed, hfollows⟩)
  · intro h before j after u hsplit hfollows
    cases before with
    | nil =>
        obtain ⟨rfl, -⟩ := List.cons.inj hsplit
        cases hfollows
        exact h.1
    | cons k before =>
        obtain ⟨rfl, hrest⟩ := List.cons.inj hsplit
        obtain ⟨b₂, hfollow, hfollows⟩ := follows_cons_iff.1 hfollows
        rw [followed] at hfollow
        obtain rfl := Except.ok.inj hfollow
        exact h.2 before j after u hrest hfollows

/-! ### Banks of lists -/

/-- The bank is made for the MOVEs of a list: it knows them all, and tells qubits from resonators as
the architecture does. -/
structure Covers (b : ResonatorBank) (a : DynamicArchitecture) (l : List Instruction) : Prop
    extends b.Separated where
  listed : ∀ i ∈ l, ∀ q r, i.action = .move q r → q ∈ b.qubitsOf r
  isQubit : ∀ {q r}, q ∈ b.qubitsOf r → a.isQubit q = true
  isResonator : ∀ {r}, b.tracks r = true → a.isResonator r = true

theorem covers_ofInstructions (checked : a.check = .ok ())
    (ends : ∀ i ∈ l, ∀ q r, i.action = .move q r → a.isQubit q = true ∧ a.isResonator r = true) :
    (ofInstructions l).Covers a l where
  toSeparated := separated_ofInstructions checked ends
  listed := fun i hi q r hmove => mem_qubitsOf_ofInstructions_iff.2 ⟨i, hi, hmove⟩
  isQubit := by
    intro q r hq
    obtain ⟨i, hi, hmove⟩ := mem_qubitsOf_ofInstructions_iff.1 hq
    exact (ends i hi q r hmove).1
  isResonator := by
    intro r hr
    obtain ⟨i, hi, q, hmove⟩ := tracks_ofInstructions_iff.1 hr
    exact (ends i hi q r hmove).2

theorem Covers.follow (hb : b.Covers a (i :: l)) (followed : b.follow i = .ok b₁) :
    b₁.Covers a l := by
  rcases RoutingContext.follow_eq_ok_iff.1 followed with ⟨q, r, -, applied⟩ | ⟨-, rfl⟩
  · refine ⟨hb.toSeparated.applied applied, ?_, ?_, ?_⟩
    · rw [qubitsOf_applied applied]
      exact (List.forall_mem_cons.1 hb.listed).2
    · rw [qubitsOf_applied applied]
      exact hb.isQubit
    · rw [tracks_applied applied]
      exact hb.isResonator
  · exact ⟨hb.toSeparated, (List.forall_mem_cons.1 hb.listed).2, hb.isQubit, hb.isResonator⟩

end ResonatorBank

namespace Occupation

section Steps

variable (agrees : o.Agrees b) (hb : b.Covers a (i :: l))
include agrees hb

/-- Where validation gets on, the bank does. -/
theorem Agrees.follow_of_step (checked : a.check = .ok ())
    (hstep : o.step a.qubits a.resonators mode i = .ok o₁) :
    ∃ b₁, b.follow i = .ok b₁ ∧ (i.isMove = false → b.Spares a mode i) ∧ o₁.Agrees b₁ := by
  cases hmove : i.isMove with
  | true =>
      obtain ⟨q, r, haction⟩ := Instruction.isMove_iff.1 hmove
      obtain ⟨-, hmoved⟩ := (step_move_eq_ok_iff haction).1 hstep
      have hq := hb.listed i List.mem_cons_self q r haction
      obtain ⟨b₁, applied, agrees₁⟩ := agrees.applied_of_move hb.toSeparated hq hmoved
      have hfollow := RoutingContext.follow_eq_ok_iff.2 (Or.inl ⟨q, r, haction, applied⟩)
      exact ⟨b₁, hfollow, fun h => absurd h (by decide), agrees₁⟩
  | false =>
      obtain ⟨rfl, hpass⟩ := (step_other_eq_ok_iff hmove).1 hstep
      refine ⟨b, RoutingContext.follow_of_not_move hmove, fun _ => ?_, agrees⟩
      refine hpass.imp MoveValidation.tolerates_iff.1 fun hnone q hq hqubit r hr => ?_
      -- a qubit that is a holder is away, as it is no resonator
      have hqr := agrees.holds_eq_false_iff.1 (hnone q hq) r hr
      have htracks := hb.isResonator (ResonatorBank.tracks_iff.2 ⟨q, hr⟩)
      rw [← hqr, DynamicArchitecture.not_isResonator_of_isQubit checked hqubit] at htracks
      exact absurd htracks (by decide)

/-- Where the bank gets on and the instruction spares its holders, validation gets on. -/
theorem Agrees.step_of_follow (hfollow : b.follow i = .ok b₁)
    (hspares : i.isMove = false → b.Spares a mode i) :
    ∃ o₁, o.step a.qubits a.resonators mode i = .ok o₁ ∧ o₁.Agrees b₁ := by
  rcases RoutingContext.follow_eq_ok_iff.1 hfollow with ⟨q, r, haction, applied⟩ | ⟨hother, rfl⟩
  · have hq := hb.listed i List.mem_cons_self q r haction
    have hr := hb.isResonator (ResonatorBank.tracks_of_mem_qubitsOf hq)
    exact agrees.step_move haction (List.contains_iff_mem.1 (hb.isQubit hq))
      (List.contains_iff_mem.1 hr) hb.toSeparated applied
  · refine ⟨o, (step_other_eq_ok_iff hother).2 ⟨rfl, ?_⟩, agrees⟩
    refine (hspares hother).imp MoveValidation.tolerates_iff.2 fun hnone q hq => ?_
    -- whatever is away is a qubit
    rw [agrees.holds_eq_false_iff]
    intro r hr
    by_contra hne
    exact hnone q hq (hb.isQubit ((hb.holder_mem hr).resolve_left hne)) r hr

end Steps

/-- **Validation and the bank accept the same runs.** -/
theorem Agrees.exists_run_iff (agrees : o.Agrees b) (hb : b.Covers a l)
    (checked : a.check = .ok ()) :
    (∃ o', run a.qubits a.resonators mode o l = .ok o' ∧ o'.entries = []) ↔
      ∃ b', b.Follows l b' ∧ b.SparesAll a mode l ∧ b'.AtRest := by
  -- on the list: each instruction leads both from agreeing states to agreeing states
  induction l generalizing o b with
  | nil =>
      simp only [run_nil, Except.ok.injEq, exists_eq_left']
      constructor
      · intro hnone
        exact ⟨b, .done b, ResonatorBank.sparesAll_nil, agrees.atRest hnone⟩
      · intro h
        obtain ⟨b', follows, -, rest⟩ := h
        cases follows
        exact agrees.entries_eq_nil rest
  | cons i l ih =>
      constructor
      · intro h
        obtain ⟨o', hrun, hnone⟩ := h
        obtain ⟨o₁, hstep, hrest⟩ := bind_eq_ok_iff.1 (run_cons ▸ hrun)
        obtain ⟨b₁, hfollow, hspares, agrees₁⟩ := agrees.follow_of_step hb checked hstep
        obtain ⟨b', follows, spares, rest⟩ :=
          (ih agrees₁ (hb.follow hfollow)).1 ⟨o', hrest, hnone⟩
        exact ⟨b', ResonatorBank.follows_cons_iff.2 ⟨b₁, hfollow, follows⟩,
          (ResonatorBank.sparesAll_cons_iff hfollow).2 ⟨hspares, spares⟩, rest⟩
      · intro h
        obtain ⟨b', follows, spares, rest⟩ := h
        obtain ⟨b₁, hfollow, follows⟩ := ResonatorBank.follows_cons_iff.1 follows
        obtain ⟨hspares, spares⟩ := (ResonatorBank.sparesAll_cons_iff hfollow).1 spares
        obtain ⟨o₁, hstep, agrees₁⟩ := agrees.step_of_follow hb hfollow hspares
        obtain ⟨o', hrest, hnone⟩ :=
          (ih agrees₁ (hb.follow hfollow)).2 ⟨b', follows, spares, rest⟩
        refine ⟨o', ?_, hnone⟩
        rw [run_cons, hstep]
        exact hrest

end Occupation

/-- **Validation is a replay.** On an architecture with a MOVE gate, a circuit has valid sandwiches
exactly when all its MOVEs go from qubits to resonators, the bank of the circuit allows each MOVE
when it is reached and has only empty resonators at the end, and no other instruction acts on a
qubit while it is the holder of a resonator, barriers (and rotations where the mode allows them)
apart. -/
theorem validateMoves_eq_ok_iff_follows (checked : a.check = .ok ())
    (supports : a.supportsMove = true) (hmode : mode ≠ .unchecked) :
    validateMoves a c none mode = .ok () ↔
      (∀ i ∈ c.instructions, ∀ q r, i.action = .move q r →
        a.isQubit q = true ∧ a.isResonator r = true) ∧
      ∃ b, (ResonatorBank.ofCircuit c).Follows c.instructions b ∧
        (ResonatorBank.ofCircuit c).SparesAll a mode c.instructions ∧ b.AtRest := by
  have hrest : (ResonatorBank.ofInstructions c.instructions).AtRest :=
    fun r h hheld => ResonatorBank.holder?_ofInstructions hheld
  rw [validateMoves, validateMoveList_eq_ok_iff supports hmode]
  constructor
  · intro h
    have ends : ∀ i ∈ c.instructions, ∀ q r, i.action = .move q r →
        a.isQubit q = true ∧ a.isResonator r = true := by
      obtain ⟨o, hrun, -⟩ := h
      intro i hi q r hmove
      obtain ⟨hq, hr⟩ := Occupation.mem_of_run hrun hi hmove
      exact ⟨List.contains_iff_mem.2 hq, List.contains_iff_mem.2 hr⟩
    exact ⟨ends, ((Occupation.Agrees.empty hrest).exists_run_iff
      (ResonatorBank.covers_ofInstructions checked ends) checked).1 h⟩
  · intro h
    exact ((Occupation.Agrees.empty hrest).exists_run_iff
      (ResonatorBank.covers_ofInstructions checked h.1) checked).2 h.2

/-- A qubit is rotated while its state is in a resonator. -/
def rotatedInSandwich : Circuit where
  name := "c"
  instructions := [.move "Q1" "R1", ⟨.prx "Q1" none none, none⟩, .cz "Q2" "R1", .move "Q1" "R1"]
  name_ne_empty := DynamicArchitecture.sampleName_ne_empty
  instructions_ne_nil := List.cons_ne_nil _ _

/-- The bank follows the circuit to its end; whether the rotation is spared is up to the mode. -/
theorem validateMoves_eq_ok_iff_follows_rotated :
    (∃ b, (ResonatorBank.ofCircuit rotatedInSandwich).Follows rotatedInSandwich.instructions b ∧
      (ResonatorBank.ofCircuit rotatedInSandwich).SparesAll .twoResonators .allowPrx
        rotatedInSandwich.instructions ∧ b.AtRest) ∧
      ¬ ∃ b, (ResonatorBank.ofCircuit rotatedInSandwich).Follows rotatedInSandwich.instructions b ∧
        (ResonatorBank.ofCircuit rotatedInSandwich).SparesAll .twoResonators .strict
          rotatedInSandwich.instructions ∧ b.AtRest := by
  have hrelaxed := validateMoves_eq_ok_iff_follows (c := rotatedInSandwich)
    DynamicArchitecture.check_twoResonators (by decide +kernel)
    (show MoveValidation.allowPrx ≠ .unchecked by decide)
  have hstrict := validateMoves_eq_ok_iff_follows (c := rotatedInSandwich)
    DynamicArchitecture.check_twoResonators (by decide +kernel)
    (show MoveValidation.strict ≠ .unchecked by decide)
  obtain ⟨ends, hreplay⟩ := hrelaxed.1 (by cbv)
  refine ⟨hreplay, fun hall => ?_⟩
  have hnot : validateMoves .twoResonators rotatedInSandwich none .strict ≠ .ok () := by
    decide +kernel
  exact hnot (hstrict.2 ⟨ends, hall⟩)

end StarQpu
