import StarQpu.Proofs.Result
import StarQpu.Proofs.Routing.Meaning

/-!
# StarQpu.Proofs.Routing.Sandwich

**When the result of insertion has valid sandwiches.** The occupation that validation keeps follows
the bank of the router, so every MOVE of the router is a valid one, and so is every instruction that
touches no held state. The one kind of instruction that is kept whatever is held is a controlled-Z
that is calibrated as it stands. So the result is valid exactly when each controlled-Z between
qubits in it finds the states of these qubits (`validateMoves_insertMoves_iff`).
-/

namespace StarQpu

variable {a : DynamicArchitecture} {b b₁ b' : ResonatorBank} {o o' : Occupation} {i j : Instruction}
  {q r partner moved : String} {source out : List Instruction}

namespace Occupation

/-- A qubit is held exactly when it does not have its own state. -/
theorem Agrees.holds_eq_false_iff_placement (agrees : o.Agrees b) (hb : b.Separated)
    (hfree : b.tracks q = false) : o.holds q = false ↔ b.placement q = q := by
  rw [agrees.holds_eq_false_iff]
  constructor
  · intro h
    refine ResonatorBank.placement_of_free hb hfree fun s hs => ?_
    exact ResonatorBank.ne_of_not_tracks hfree hs (h s hs)
  · intro h s hs
    rw [← h]
    exact ResonatorBank.placement_of_held hb hs hfree

/-- No state of a resonator is held by another one. -/
theorem Agrees.holds_resonator (agrees : o.Agrees b) (hb : b.Separated)
    (hr : b.tracks r = true) : o.holds r = false := by
  rw [agrees.holds_eq_false_iff]
  intro s hs
  rcases hb.holder_cases hs with heq | hfree
  · exact heq
  · rw [hr] at hfree
    exact absurd hfree (by decide)

/-- A MOVE that the bank allows is valid on the architecture that the bank serves. -/
theorem Agrees.step_applied (agrees : o.Agrees b) (moves : a.MovesIntoResonators)
    (hb : b.Serves a) (applied : b.applied? q r = some b₁) (mode : MoveValidation) :
    ∃ o₁, o.step a.qubits a.resonators mode (.move q r) = .ok o₁ ∧ o₁.Agrees b₁ := by
  obtain ⟨hallow, -⟩ := ResonatorBank.applied?_eq_some_iff.1 applied
  obtain ⟨hr, hmove⟩ := hb.mem_qubitsOf_iff.1 (ResonatorBank.mem_qubitsOf_of_allows hallow)
  have hq := moves.isQubit hmove
  rw [DynamicArchitecture.isQubit, List.contains_iff_mem] at hq
  rw [DynamicArchitecture.isResonator, List.contains_iff_mem] at hr
  exact agrees.step_move rfl hq hr hb.toSeparated applied

theorem strict_tolerates_of_isCz (hcz : i.isCz = true) :
    MoveValidation.strict.tolerates i = false := by
  obtain ⟨p, q, haction⟩ := Instruction.isCz_iff.1 hcz
  rw [MoveValidation.tolerates, haction]

theorem exists_run_cons_of_not_move {qubits resonators : List String} {mode : MoveValidation}
    {rest : List Instruction} (hother : i.isMove = false) :
    (∃ o', run qubits resonators mode o (i :: rest) = .ok o') ↔
      (mode.tolerates i = true ∨ ∀ q ∈ i.qubits, o.holds q = false) ∧
        ∃ o', run qubits resonators mode o rest = .ok o' := by
  rw [run_cons, exists_bind_eq_ok_iff]
  simp only [step_other_eq_ok_iff hother]
  constructor
  · intro h
    obtain ⟨o₁, ⟨rfl, hpass⟩, hrest⟩ := h
    exact ⟨hpass, hrest⟩
  · intro h
    exact ⟨o, ⟨rfl, h.1⟩, h.2⟩

end Occupation

namespace RoutingContext

/-- Each controlled-Z between qubits acts on the states of these qubits. -/
def DirectOnOwn (a : DynamicArchitecture) (trace : List (Instruction × List String)) : Prop :=
  ∀ e ∈ trace, e.1.isCz = true → (∀ q ∈ e.1.qubits, a.isQubit q = true) → e.2 = e.1.qubits

/-! ### Instructions other than MOVEs -/

section Step

variable (hb : b.Serves a) (agrees : o.Agrees b) (checked : a.check = .ok ())
include hb checked

/-- A rerouted gate acts on a resonator. -/
theorem Reroutes.not_between_qubits (h : (ofMapping a none).Reroutes b i j partner moved r) :
    ¬ ∀ q ∈ j.qubits, a.isQubit q = true := by
  intro hall
  rw [h.qubits_plain] at hall
  have hnot := DynamicArchitecture.not_isResonator_of_isQubit checked
    (hall r (List.mem_cons_of_mem _ List.mem_cons_self))
  rw [hb.isResonator_of_holder? h.held] at hnot
  exact absurd hnot (by decide)

variable (qubits : ∀ q ∈ i.qubits, a.isQubit q = true)
include agrees qubits

/-- Neither end of a rerouted gate is a qubit whose state is held. -/
theorem Reroutes.passes (h : (ofMapping a none).Reroutes b i j partner moved r) :
    ∀ q ∈ j.qubits, o.holds q = false := by
  have hpartner := hb.not_tracks
    (DynamicArchitecture.not_isResonator_of_isQubit checked (qubits _ h.partner_mem_qubits))
  have hnone := h.partner_free hb.toSeparated hpartner
  rw [h.qubits_plain]
  refine List.forall_mem_cons.2 ⟨?_, List.forall_mem_singleton.2 ?_⟩
  · exact agrees.holds_eq_false_iff.2 fun s hs => absurd hs (hnone s)
  · exact agrees.holds_resonator hb.toSeparated (ResonatorBank.tracks_iff.2 ⟨_, h.held⟩)

/-- An instruction that is kept passes unless it is a gate between qubits of which one does not have
its own state. -/
theorem Keeps.passes_iff (kept : (ofMapping a none).Keeps b i) :
    (MoveValidation.strict.tolerates i = true ∨ ∀ q ∈ i.qubits, o.holds q = false) ↔
      (i.isCz = true → (∀ q ∈ i.qubits, a.isQubit q = true) →
        i.qubits.map b.placement = i.qubits) := by
  have hfree : ∀ q ∈ i.qubits, b.tracks q = false := fun q hq => hb.not_tracks
    (DynamicArchitecture.not_isResonator_of_isQubit checked (qubits q hq))
  have hfinds : (∀ q ∈ i.qubits, o.holds q = false) ↔ i.qubits.map b.placement = i.qubits := by
    rw [Placement.map_eq_self_iff]
    exact forall₂_congr fun q hq =>
      agrees.holds_eq_false_iff_placement hb.toSeparated (hfree q hq)
  rcases kept.ready with ⟨hcz, -⟩ | ⟨hcz, hnone⟩
  · -- nothing looked at what is held
    have hstrict := Occupation.strict_tolerates_of_isCz hcz
    simp only [hstrict, Bool.false_eq_true, false_or, hfinds, hcz, true_implies]
    exact ⟨fun h _ => h, fun h => h qubits⟩
  · rw [locus_plain] at hnone
    have hown := states_of_holding_eq_nil hb.toSeparated hfree hnone
    exact iff_of_true (Or.inr (hfinds.2 hown)) fun _ _ => hown

end Step

/-! ### Runs -/

section Run

variable (run : (ofMapping a none).Routes b source out b') (moves : a.MovesIntoResonators)
  (noMoves : ∀ i ∈ source, i.isMove = false) (hb : b.Serves a) (agrees : o.Agrees b)
include run moves noMoves hb agrees

/-- The occupation follows the bank along a run. -/
theorem Routes.agrees_end (h : Occupation.run a.qubits a.resonators .strict o out = .ok o') :
    o'.Agrees b' := by
  induction run generalizing o with
  | done =>
      rw [Occupation.run_nil, Except.ok.injEq] at h
      exact h ▸ agrees
  | move applied _ _ ih =>
      obtain ⟨o₁, hstep, agrees₁⟩ := agrees.step_applied moves hb applied .strict
      rw [logical_plain, logical_plain, Occupation.run_cons, hstep] at h
      exact ih noMoves (hb.applied applied) agrees₁ h
  | @follow b b₁ b' i q r source out _ hmove _ _ _ _ =>
      exact absurd hmove
        (Instruction.isMove_eq_false_iff.1 (noMoves i List.mem_cons_self) q r)
  | keep kept _ ih =>
      rw [List.forall_mem_cons] at noMoves
      rw [Occupation.run_cons, bind_eq_ok_iff] at h
      obtain ⟨o₁, hstep, hrest⟩ := h
      obtain ⟨rfl, -⟩ := (Occupation.step_other_eq_ok_iff kept.other).1 hstep
      exact ih noMoves.2 hb agrees hrest
  | reroute rerouted _ ih =>
      rw [List.forall_mem_cons] at noMoves
      rw [Occupation.run_cons, bind_eq_ok_iff] at h
      obtain ⟨o₁, hstep, hrest⟩ := h
      rw [rerouted.replacement] at hstep
      obtain ⟨rfl, -⟩ := (Occupation.step_other_eq_ok_iff rfl).1 hstep
      exact ih noMoves.2 hb agrees hrest

variable (checked : a.check = .ok ())
  (qubits : ∀ i ∈ source, ∀ q ∈ i.qubits, a.isQubit q = true)
include checked qubits

/-- **Validation gets through a run** exactly when each controlled-Z between qubits finds the states
of these qubits. -/
theorem Routes.exists_run_iff :
    (∃ o', Occupation.run a.qubits a.resonators .strict o out = .ok o') ↔
      DirectOnOwn a (b.placement.trace out) := by
  -- on the run: the occupation keeps agreeing with the bank, the only thing that either side needs
  induction run generalizing o with
  | done => simp [DirectOnOwn, Placement.trace]
  | move applied _ _ ih =>
      obtain ⟨o₁, hstep, agrees₁⟩ := agrees.step_applied moves hb applied .strict
      rw [Placement.trace_cons_of_move rfl, Placement.step_move, logical_plain, logical_plain,
        ← ResonatorBank.placement_applied hb.toSeparated applied, Occupation.run_cons, hstep]
      exact ih noMoves (hb.applied applied) agrees₁ qubits
  | @follow b b₁ b' i q r source out _ hmove _ _ _ _ =>
      exact absurd hmove
        (Instruction.isMove_eq_false_iff.1 (noMoves i List.mem_cons_self) q r)
  | keep kept _ ih =>
      rw [List.forall_mem_cons] at noMoves qubits
      rw [Occupation.exists_run_cons_of_not_move kept.other,
        Placement.trace_cons_of_not_move kept.other, DirectOnOwn, List.forall_mem_cons]
      exact and_congr (kept.passes_iff hb agrees checked qubits.1) (ih noMoves.2 hb agrees qubits.2)
  | reroute rerouted _ ih =>
      rw [List.forall_mem_cons] at noMoves qubits
      rw [Occupation.exists_run_cons_of_not_move rerouted.not_isMove,
        Placement.trace_cons_of_not_move rerouted.not_isMove, DirectOnOwn, List.forall_mem_cons]
      refine and_congr ?_ (ih noMoves.2 hb agrees qubits.2)
      -- it passes, and it is no gate between qubits
      refine iff_of_true (Or.inr (rerouted.passes hb agrees checked qubits.1)) fun _ hall => ?_
      exact absurd hall (rerouted.not_between_qubits hb checked)

end Run

/-- Where nothing is moved every instruction finds its own states. -/
theorem directOnOwn_of_not_move (hother : ∀ i ∈ out, i.isMove = false) :
    DirectOnOwn a (Placement.own.trace out) := by
  induction out with
  | nil => simp [DirectOnOwn, Placement.trace]
  | cons i rest ih =>
      rw [List.forall_mem_cons] at hother
      rw [Placement.trace_cons_of_not_move hother.1, DirectOnOwn, List.forall_mem_cons]
      exact ⟨fun _ _ => Placement.map_eq_self_iff.2 fun _ _ => rfl, ih hother.2⟩

end RoutingContext

/-- **The result of an insertion has valid sandwiches** exactly when each controlled-Z between
qubits in it finds the states of these qubits. -/
theorem validateMoves_insertMoves_iff {c c' : Circuit} {existing : Option ExistingMoves}
    (checked : a.check = .ok ()) (moves : a.MovesIntoResonators)
    (noMoves : c.containsMoves = false)
    (qubits : ∀ i ∈ c.instructions, ∀ q ∈ i.qubits, a.isQubit q = true)
    (h : (insertMoves c a existing none).result = .ok c') :
    validateMoves a c' none .strict = .ok () ↔
      RoutingContext.DirectOnOwn a (Placement.own.trace c'.instructions) := by
  have hother := Circuit.containsMoves_eq_false_iff.1 noMoves
  have hb := ResonatorBank.serves_ofArchitecture checked moves
  have hnone : ∀ instructions : List Instruction, (∀ i ∈ instructions, i.isMove = false) →
      (validateMoveList a instructions none .strict = .ok () ↔
        RoutingContext.DirectOnOwn a (Placement.own.trace instructions)) := fun l hl =>
    iff_of_true (validateMoveList_of_not_move none .strict hl)
      (RoutingContext.directOnOwn_of_not_move hl)
  rw [validateMoves]
  rcases routes_of_insertMoves checked moves noMoves h with ⟨-, rfl⟩ | ⟨-, -, b', run, hend⟩
  · exact hnone _ hother
  · cases hsupport : a.supportsMove with
    | false =>
        refine hnone _ fun i hi => Instruction.isMove_eq_false_iff.2 fun l l' hmove => ?_
        obtain ⟨q, r, -, -, hq⟩ := run.move_of_mem hother hi hmove
        have hlocus := (hb.mem_qubitsOf_iff.1 hq).2
        rw [DynamicArchitecture.moveLoci_eq_nil hsupport] at hlocus
        exact absurd hlocus List.not_mem_nil
    | true =>
        have hempty := Occupation.Agrees.empty (ResonatorBank.atRest_ofArchitecture a)
        have hown :=
          ResonatorBank.placement_own hb.toSeparated (ResonatorBank.atRest_ofArchitecture a)
        rw [← hown, ← run.exists_run_iff moves hother hb hempty checked qubits,
          validateMoveList_eq_ok_iff hsupport (by decide)]
        constructor
        · intro h
          obtain ⟨o, ho, -⟩ := h
          exact ⟨o, ho⟩
        · intro h
          obtain ⟨o, ho⟩ := h
          exact ⟨o, ho, (run.agrees_end moves hother hb hempty ho).entries_eq_nil hend⟩

end StarQpu
