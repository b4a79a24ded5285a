import Mathlib.Data.List.Forall2
import StarQpu.Proofs.Routing.Insertion
import StarQpu.Proofs.Routing.Placement
import StarQpu.Proofs.Samples

/-!
# StarQpu.Proofs.Routing.Meaning

**Insertion keeps the meaning of a circuit.** A run of the router keeps its bank and the states in
step (`Routes.after_eq`). When an instruction of the circuit is reached, the states it is about are
either in their places or, for a controlled-Z on a resonator, one of them is in the resonator that
stands in its place. So the circuit finds its states in order (`Routes.alike`), and as the run
empties all resonators at the end, every component has its own state again.
-/

namespace StarQpu

variable {a : DynamicArchitecture} {c c' : Circuit} {existing : Option ExistingMoves}
  {b b' : ResonatorBank} {i j : Instruction} {q r partner moved : String}
  {source out : List Instruction}

namespace RoutingContext

/-- The bank tells where the states are at the end of a run. -/
theorem Routes.after_eq (run : (ofMapping a none).Routes b source out b') (hb : b.Separated) :
    b.placement.after out = b'.placement := by
  induction run with
  | done => rfl
  | move applied _ _ ih =>
      rw [Placement.after_cons, Placement.step_move, logical_plain, logical_plain,
        ← ResonatorBank.placement_applied hb applied]
      exact ih (hb.applied applied)
  | follow _ moves _ applied _ ih =>
      rw [renamed_mapping_plain, renamed_mapping_plain] at applied
      rw [Placement.after_cons, Placement.step_of_action moves,
        ← ResonatorBank.placement_applied hb applied]
      exact ih (hb.applied applied)
  | keep kept _ ih =>
      rw [Placement.after_cons, Placement.step_of_not_move kept.other]
      exact ih hb
  | reroute rerouted _ ih =>
      rw [Placement.after_cons, Placement.step_of_not_move rerouted.not_isMove]
      exact ih hb

theorem Reroutes.qubits_plain (h : (ofMapping a none).Reroutes b i j partner moved r) :
    j.qubits = [partner, r] := by
  rw [h.replacement, logical_plain, logical_plain]
  rfl

theorem Reroutes.partner_mem_qubits (h : (ofMapping a none).Reroutes b i j partner moved r) :
    partner ∈ i.qubits := by
  have hmem := h.partner_mem
  rw [locus_plain] at hmem
  exact hmem

/-- The two states of a gate that goes through a resonator are in the resonator and at its
partner. -/
theorem Reroutes.states (h : (ofMapping a none).Reroutes b i j partner moved r)
    (hb : b.Separated) (hfree : b.tracks partner = false) :
    j.qubits.map b.placement = [partner, moved] := by
  rw [h.qubits_plain, List.map_cons, List.map_cons, List.map_nil,
    ResonatorBank.placement_of_free hb hfree (h.partner_free hb hfree),
    ResonatorBank.placement_of_holder? h.held]

/-- An instruction that touches no held state finds its own states. -/
theorem states_of_holding_eq_nil (hb : b.Separated) (hfree : ∀ q ∈ i.qubits, b.tracks q = false)
    (hnone : b.holding i.qubits = []) : i.qubits.map b.placement = i.qubits := by
  rw [Placement.map_eq_self_iff]
  intro q hq
  refine ResonatorBank.placement_of_free hb (hfree q hq) fun s hs => ?_
  have hmem : s ∈ b.holding i.qubits :=
    (ResonatorBank.mem_holding_iff hb.nodup).2 ⟨q, hs, hq, hfree q hq⟩
  rw [hnone] at hmem
  exact absurd hmem List.not_mem_nil

/-- A controlled-Z on qubits is not calibrated if every calibrated one uses a resonator. -/
theorem not_valid_of_cz (czs : ∀ locus ∈ a.calibrated "cz", ∃ c ∈ locus, a.isResonator c = true)
    (hcz : i.isCz = true) (hfree : ∀ q ∈ i.qubits, a.isResonator q = false) :
    (ofMapping a none).validate i ≠ .ok () := by
  intro hvalid
  obtain ⟨-, hpermits⟩ := validate_plain_iff.1 hvalid
  obtain ⟨locus, hlocus, hperm⟩ := calibrated_of_permits_cz hcz hpermits
  obtain ⟨r, hr, hresonator⟩ := czs locus hlocus
  rw [hfree r (hperm.mem_iff.1 hr)] at hresonator
  exact absurd hresonator (by decide)

/-- **Each instruction of the circuit finds its states.** -/
theorem Routes.alike (run : (ofMapping a none).Routes b source out b') (hb : b.Serves a)
    (czs : ∀ locus ∈ a.calibrated "cz", ∃ c ∈ locus, a.isResonator c = true)
    (noMoves : ∀ i ∈ source, i.isMove = false)
    (free : ∀ i ∈ source, ∀ q ∈ i.qubits, a.isResonator q = false) :
    List.Forall₂ Placement.Alike (Placement.own.trace source) (b.placement.trace out) := by
  -- the circuit has no MOVE, so the states it is about stay the own ones all along
  have hown : ∀ l : List String, l.map Placement.own = l := List.map_id
  induction run with
  | done => exact .nil
  | move applied _ _ ih =>
      rw [Placement.trace_cons_of_move rfl, Placement.step_move, logical_plain, logical_plain,
        ← ResonatorBank.placement_applied hb.toSeparated applied]
      exact ih (hb.applied applied) noMoves free
  | @follow b b₁ b' i q r source out _ moves _ _ _ _ =>
      exact absurd moves
        (Instruction.isMove_eq_false_iff.1 (noMoves i List.mem_cons_self) q r)
  | @keep b b' i source out kept _ ih =>
      rw [List.forall_mem_cons] at noMoves free
      rw [Placement.trace_cons_of_not_move kept.other, Placement.trace_cons_of_not_move kept.other,
        hown]
      refine .cons ⟨rfl, rfl, Or.inl ?_⟩ (ih hb noMoves.2 free.2)
      -- a controlled-Z between qubits is never kept here
      rcases kept.ready with ⟨hcz, hvalid⟩ | ⟨-, hnone⟩
      · exact absurd hvalid (not_valid_of_cz czs hcz free.1)
      · rw [locus_plain] at hnone
        exact (states_of_holding_eq_nil hb.toSeparated
          (fun q hq => hb.not_tracks (free.1 q hq)) hnone).symm
  | @reroute b b' i j partner moved r source out rerouted _ ih =>
      rw [List.forall_mem_cons] at noMoves free
      have hstates := rerouted.states hb.toSeparated
        (hb.not_tracks (free.1 partner rerouted.partner_mem_qubits))
      have hperm := rerouted.locus
      rw [locus_plain] at hperm
      obtain ⟨p, q, hcz⟩ := Instruction.isCz_iff.1 rerouted.cz
      rw [Placement.trace_cons_of_not_move noMoves.1,
        Placement.trace_cons_of_not_move rerouted.not_isMove, hown, hstates]
      refine .cons ⟨?_, ?_, ?_⟩ (ih hb noMoves.2 free.2)
      · rw [rerouted.replacement, Instruction.name, hcz]
        rfl
      · rw [rerouted.replacement, Instruction.args, hcz]
        rfl
      · rcases List.perm_pair.1 hperm with heq | heq
        · exact Or.inl heq
        · exact Or.inr ⟨rerouted.cz, heq⟩

end RoutingContext

/-! ### Insertion -/

theorem isResonator_eq_false_of_qubits (checked : a.check = .ok ())
    (qubits : ∀ i ∈ source, ∀ q ∈ i.qubits, a.isQubit q = true) :
    ∀ i ∈ source, ∀ q ∈ i.qubits, a.isResonator q = false := fun i hi q hq =>
  DynamicArchitecture.not_isResonator_of_isQubit checked (qubits i hi q hq)

/-- **Insertion keeps the meaning.** On an architecture whose controlled-Z gates all use a
resonator, the instructions of a circuit without MOVEs act on the same states before and after the
insertion, one for one and in order, and at the end every component has its own state again. -/
theorem insertMoves_keeps_meaning (checked : a.check = .ok ()) (moves : a.MovesIntoResonators)
    (czs : ∀ locus ∈ a.calibrated "cz", ∃ c ∈ locus, a.isResonator c = true)
    (noMoves : c.containsMoves = false)
    (qubits : ∀ i ∈ c.instructions, ∀ q ∈ i.qubits, a.isQubit q = true)
    (h : (insertMoves c a existing none).result = .ok c') :
    List.Forall₂ Placement.Alike (Placement.own.trace c.instructions)
        (Placement.own.trace c'.instructions) ∧
      Placement.own.after c'.instructions = Placement.own := by
  have hother := Circuit.containsMoves_eq_false_iff.1 noMoves
  have hb := ResonatorBank.serves_ofArchitecture checked moves
  have hown := ResonatorBank.placement_own hb.toSeparated (ResonatorBank.atRest_ofArchitecture a)
  rcases routes_of_insertMoves checked moves noMoves h with ⟨-, rfl⟩ | ⟨-, -, b', run, hend⟩
  · exact ⟨List.forall₂_refl _, Placement.after_of_not_move hother⟩
  · have halike := run.alike hb czs hother
      (isResonator_eq_false_of_qubits checked qubits)
    have hafter := run.after_eq hb.toSeparated
    rw [hown] at halike hafter
    rw [ResonatorBank.placement_own (run.separated hb.toSeparated) hend] at hafter
    exact ⟨halike, hafter⟩

theorem insertMoves_keeps_meaning_chain :
    List.Forall₂ Placement.Alike (Placement.own.trace (chainOn "QB1").instructions)
        (Placement.own.trace (routedChainOn "QB1").instructions) ∧
      Placement.own.after (routedChainOn "QB1").instructions = Placement.own := by
  have hrouted : (insertMoves (chainOn "QB1") (starArchitecture 3) none none).result =
      .ok (routedChainOn "QB1") := by cbv
  exact insertMoves_keeps_meaning (check_star 3) (movesIntoResonators_star 3)
    (exists_resonator_star 3) rfl (by decide +kernel) hrouted

end StarQpu
