import StarQpu.Proofs.Routing.Stability

/-!
# StarQpu.Proofs.Routing.RemovalMeaning

**Removal keeps the meaning of valid sandwiches.** The bank of the removal knows nothing but the
MOVEs of the circuit, and for those it is as good as one of the architecture: validation lets MOVEs
pass only from qubits to resonators, so the bank is separated, and it follows whatever validation
follows. What removal puts in the place of a component is then the component's state
(`resolve_eq_placement`), unless the component is a qubit whose state is away; validation tolerates
only barriers there.
-/

namespace StarQpu

variable {a : DynamicArchitecture} {b b' : ResonatorBank} {c : Circuit} {i : Instruction}
  {p : Placement} {l : List Instruction}

namespace Placement

/-- The same operation with the same arguments acts on the same states, unless it is a barrier. -/
structure Kept (e e' : Instruction × List String) : Prop where
  name : e.1.name = e'.1.name
  args : e.1.args = e'.1.args
  states : (∀ qubits, e.1.action ≠ .barrier qubits) → e.2 = e'.2

theorem trace_eq (p : Placement) (l : List Instruction) :
    p.trace l = (p.views l).map fun e => (e.1, e.1.qubits.map e.2) := by
  induction l generalizing p with
  | nil => rfl
  | cons i rest ih =>
      cases hmove : i.isMove with
      | true => rw [trace_cons_of_move hmove, views_cons_of_move hmove, ih]
      | false => rw [trace_cons_of_not_move hmove, views_cons_of_not_move hmove, ih, List.map_cons]

/-- An instruction on the states of its components, where all states are in their places. -/
theorem own_trace_cons (hother : i.isMove = false) :
    own.trace (i :: l) = (i, i.qubits) :: own.trace l := by
  have hown : i.qubits.map own = i.qubits := List.map_id _
  rw [trace_cons_of_not_move hother, hown]

end Placement

theorem MoveValidation.strict_tolerates_iff :
    MoveValidation.strict.tolerates i = true ↔ ∃ qubits, i.action = .barrier qubits := by
  rw [tolerates]
  cases i.action <;> simp

namespace ResonatorBank

section Movable

variable (hb : b.Separated) (movable : ∀ q r, q ∈ b.qubitsOf r → a.isQubit q = true)
include hb movable

/-- Under each name of an instruction that finds its qubits' own states, the bank finds the state
that the component holds. -/
theorem resolve_eq_placement (own : a.FindsOwn (i, b.placement)) :
    ∀ c ∈ i.qubits, b.resolve c = b.placement c := by
  intro c hc
  rcases placement_cases hb c with ⟨h, hheld, hp⟩ | ⟨hfree, s, hs, hp⟩ | ⟨hfree, -, hp⟩
  · rw [resolve_of_holder? hheld, hp]
  · -- a state that is away is the one of a qubit
    have hmem := (hb.holder_mem hs).resolve_left (ne_of_not_tracks hfree hs)
    have hplace : b.placement c = c := own c hc (movable c s hmem)
    rw [resolve_of_not_tracks hfree, hplace]
  · rw [resolve_of_not_tracks hfree, hp]

/-- **Removal along its own bank** keeps the states that instructions act on. -/
theorem Follows.exists_removeFrom (follows : b.Follows l b')
    (found : ∀ e ∈ b.placement.views l,
      MoveValidation.strict.tolerates e.1 = true ∨ a.FindsOwn e) (circuit : String) :
    ∃ out, (removeFrom circuit b l).result = .ok out ∧
      List.Forall₂ Placement.Kept (b.placement.trace l) (Placement.own.trace out) := by
  induction follows with
  | done => exact ⟨[], rfl, .nil⟩
  | @move b b₁ b' i q r l moves applied _ ih =>
      have hmove := Instruction.isMove_iff.2 ⟨q, r, moves⟩
      rw [Placement.views_cons_of_move hmove, Placement.step_of_action moves,
        ← placement_applied hb applied] at found
      rw [← qubitsOf_applied applied] at movable
      obtain ⟨out, hout, hkept⟩ := ih (hb.applied applied) movable found
      refine ⟨out, ?_, ?_⟩
      · rw [removeFrom_result_move circuit moves, apply, applied]
        exact hout
      · rw [Placement.trace_cons_of_move hmove, Placement.step_of_action moves,
          ← placement_applied hb applied]
        exact hkept
  | @other b b' i l other _ ih =>
      rw [Placement.views_cons_of_not_move other, List.forall_mem_cons] at found
      obtain ⟨out, hout, hkept⟩ := ih hb movable found.2
      refine ⟨resolveInstruction b i :: out, ?_, ?_⟩
      · rw [removeFrom_result_other circuit other, hout]
        rfl
      · have hother : (resolveInstruction b i).isMove = false := by
          rw [isMove_resolveInstruction, other]
        rw [Placement.trace_cons_of_not_move other, Placement.own_trace_cons hother,
          Instruction.resolveInstruction_eq]
        refine .cons ⟨?_, ?_, fun hbarrier => ?_⟩ hkept
        · exact (Instruction.name_resolvedBy _ i).symm
        · exact (Instruction.args_resolvedBy _ i).symm
        · have hown : a.FindsOwn (i, b.placement) := by
            refine found.1.resolve_left fun htolerated => ?_
            obtain ⟨qubits, haction⟩ := MoveValidation.strict_tolerates_iff.1 htolerated
            exact hbarrier qubits haction
          show i.qubits.map b.placement = (i.resolvedBy b.resolve).qubits
          rw [Instruction.qubits_resolvedBy]
          exact (List.map_congr_left (resolve_eq_placement hb movable hown)).symm

end Movable

end ResonatorBank

/-- **Removal keeps the meaning.** A circuit whose sandwiches are strictly valid, and that has more
than MOVEs, can be freed of them. One for one and in order, its other instructions stay the same
operations and act on the same states as before, the barriers apart. -/
theorem removeMoves_keeps_meaning (checked : a.check = .ok ()) (supports : a.supportsMove = true)
    (hother : ∃ i ∈ c.instructions, i.isMove = false)
    (valid : validateMoves a c none .strict = .ok ()) :
    ∃ d, (removeMoves c).result = .ok d ∧ d.name = c.name ∧ d.metadata = c.metadata ∧
      d.containsMoves = false ∧
      List.Forall₂ Placement.Kept (Placement.own.trace c.instructions)
        (Placement.own.trace d.instructions) := by
  rw [validateMoves, validateMoveList_eq_ok_iff supports (by decide)] at valid
  obtain ⟨o, hrun, -⟩ := valid
  have ends : ∀ i ∈ c.instructions, ∀ q r, i.action = .move q r →
      a.isQubit q = true ∧ a.isResonator r = true := by
    intro i hi q r hmove
    obtain ⟨hq, hr⟩ := Occupation.mem_of_run hrun hi hmove
    exact ⟨List.contains_iff_mem.2 hq, List.contains_iff_mem.2 hr⟩
  have hb := ResonatorBank.separated_ofInstructions checked ends
  have hrest : (ResonatorBank.ofInstructions c.instructions).AtRest :=
    fun r h hheld => ResonatorBank.holder?_ofInstructions hheld
  have hown := ResonatorBank.placement_own hb hrest
  have movable : ∀ q r, q ∈ (ResonatorBank.ofInstructions c.instructions).qubitsOf r →
      a.isQubit q = true := by
    intro q r hq
    obtain ⟨i, hi, hmove⟩ := ResonatorBank.mem_qubitsOf_ofInstructions_iff.1 hq
    exact (ends i hi q r hmove).1
  have free : ∀ q, a.isQubit q = true →
      (ResonatorBank.ofInstructions c.instructions).tracks q = false := by
    intro q hq
    rw [← Bool.not_eq_true, ResonatorBank.tracks_ofInstructions_iff]
    intro htracks
    obtain ⟨i, hi, p, hmove⟩ := htracks
    have hnot := DynamicArchitecture.not_isResonator_of_isQubit checked hq
    rw [(ends i hi p q hmove).2] at hnot
    exact absurd hnot (by decide)
  obtain ⟨b', follows, -, hviews⟩ := (Occupation.Agrees.empty hrest).exists_follows hb free
    (fun i hi q r hmove => ResonatorBank.mem_qubitsOf_ofInstructions_iff.2 ⟨i, hi, hmove⟩) hrun
  obtain ⟨out, hout, hkept⟩ := follows.exists_removeFrom hb movable hviews c.name
  rw [hown] at hkept
  have hsome : out ≠ [] := by
    rintro rfl
    obtain ⟨i, hi, hi'⟩ := hother
    have hnil := List.forall₂_nil_right_iff.1 hkept
    rw [Placement.trace_eq, List.map_eq_nil_iff] at hnil
    exact Placement.views_ne_nil hi' hi hnil
  have hresult := removeMoves_result_of_removeFrom hout hsome
  rw [Circuit.withBody_eq_ok_iff.2 ⟨hsome, rfl⟩] at hresult
  exact ⟨_, hresult, rfl, rfl, containsMoves_of_removeMoves hresult, hkept⟩

/-- Two sandwiches of which one ends inside of the other; a barrier names a qubit that is away. -/
def interleavedSandwiches : Circuit where
  name := "c"
  instructions := [.move "Q1" "R1", .move "Q2" "R2", .cz "R1" "R2", .barrier ["Q1", "R2"],
    .move "Q1" "R1", .cz "Q1" "R2", .measure ["R2", "Q3"] "m", .move "Q2" "R2"]
  name_ne_empty := DynamicArchitecture.sampleName_ne_empty
  instructions_ne_nil := List.cons_ne_nil _ _

/-- The circuit on the qubits whose states it acts on. -/
def gatesOfSandwiches : Circuit where
  name := "c"
  instructions := [.cz "Q1" "Q2", .barrier ["Q1", "Q2"], .cz "Q1" "Q2", .measure ["Q2", "Q3"] "m"]
  name_ne_empty := DynamicArchitecture.sampleName_ne_empty
  instructions_ne_nil := List.cons_ne_nil _ _

theorem removeMoves_keeps_meaning_interleaved :
    (removeMoves interleavedSandwiches).result = .ok gatesOfSandwiches ∧
      gatesOfSandwiches.containsMoves = false ∧
      List.Forall₂ Placement.Kept (Placement.own.trace interleavedSandwiches.instructions)
        (Placement.own.trace gatesOfSandwiches.instructions) := by
  have hremoved : (removeMoves interleavedSandwiches).result = .ok gatesOfSandwiches := by cbv
  obtain ⟨d, hd, -, -, hnone, hkept⟩ := removeMoves_keeps_meaning (c := interleavedSandwiches)
    DynamicArchitecture.check_twoResonators (by decide +kernel)
    ⟨.cz "R1" "R2", by decide, rfl⟩ (by cbv)
  rw [hremoved, Except.ok.injEq] at hd
  subst hd
  exact ⟨hremoved, hnone, hkept⟩

end StarQpu
