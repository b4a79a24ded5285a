import StarQpu.Proofs.Routing.Realizable

/-!
# StarQpu.Proofs.Routing.SingleGate

**A controlled-Z on its own.** Before any other gate no state is held, so each qubit of the gate may
be moved. The router then succeeds exactly when the gate can be realized: its qubits are coupled to
each other, or one of them is coupled to a resonator to which the other one has a MOVE
(`exists_route_cz_iff`). The simplified architecture has the gate under the same condition
(`permits_simplified_cz_iff`), whatever else is calibrated. Two gates in a row can differ, as the
router may be stuck with the states of the first one.
-/

namespace StarQpu

variable {a : DynamicArchitecture} {b : ResonatorBank} {c : Circuit} {i : Instruction}
  {p q : String} {rest lookahead : List Instruction}

namespace DynamicArchitecture

/-- A controlled-Z between the components can be realized: they are coupled, or the state of one of
them can be fetched for it. -/
def Realizes (a : DynamicArchitecture) (p q : String) : Prop :=
  a.Couples p q ∨ ∃ partner moved, partner ≠ moved ∧ [p, q].Perm [partner, moved] ∧
    a.Fetches moved partner

theorem permits_cz_iff : a.permits (.cz p q) [p, q] = true ↔ a.Couples p q := by
  constructor
  · exact calibrated_of_permits_cz rfl
  · rintro ⟨locus, hlocus, hperm⟩
    exact permits_cz_of_calibrated p q hlocus hperm

section Qubits

variable (moves : a.MovesIntoResonators) (hp : a.isQubit p = true) (hq : a.isQubit q = true)
include moves hp hq

/-- **The simplified architecture has the gates that can be realized.** -/
theorem permits_simplified_cz_iff (checked : a.check = .ok ()) :
    (simplifiedArchitecture a).permits (.cz p q) [p, q] = true ↔ a.Realizes p q := by
  have hfree : ∀ c ∈ [p, q], a.isResonator c = false := List.forall_mem_cons.2
    ⟨not_isResonator_of_isQubit checked hp,
      List.forall_mem_singleton.2 (not_isResonator_of_isQubit checked hq)⟩
  rw [permits_cz_iff]
  constructor
  · rintro ⟨locus', hlocus', hperm⟩
    obtain ⟨locus, hlocus, hsource⟩ := (mem_calibrated_simplified_iff (by decide)).1 hlocus'
    rcases mem_simplifyLocus_iff.1 hsource with ⟨-, rfl⟩ | ⟨s, r, t, -, hr, ht, hne, hpair⟩
    · exact Or.inl ⟨_, hlocus, hperm⟩
    · have hmove := (ResonatorBank.mem_qubitsOf_ofArchitecture_iff.1 ht).2
      rcases hpair with ⟨rfl, rfl⟩ | ⟨rfl, rfl⟩
      · exact Or.inr ⟨s, t, hne.symm, hperm.symm, r, hmove, _, hlocus, .refl _⟩
      · exact Or.inr ⟨s, t, hne.symm, hperm.symm.trans (.swap _ _ []), r, hmove, _, hlocus,
          .swap _ _ []⟩
  · rintro (⟨locus, hlocus, hperm⟩ |
      ⟨partner, moved, hne, hperm, r, hmove, locus, hlocus, hcouples⟩)
    · -- a locus of qubits stands for itself
      refine ⟨locus, (mem_calibrated_simplified_iff (by decide)).2 ⟨locus, hlocus, ?_⟩, hperm⟩
      exact mem_simplifyLocus_iff.2 (Or.inl ⟨fun c hc => hfree c (hperm.mem_iff.1 hc), rfl⟩)
    · have hr := moves.isResonator hmove
      have hpartner := hfree partner (hperm.mem_iff.2 List.mem_cons_self)
      obtain ⟨locus', hlocus', hperm'⟩ := exists_mem_simplifyLocus_pair hpartner hr
        (List.perm_pair.1 hcouples)
        (ResonatorBank.mem_qubitsOf_ofArchitecture_iff.2 ⟨hr, hmove⟩) hne.symm
      exact ⟨locus', (mem_calibrated_simplified_iff (by decide)).2 ⟨locus, hlocus, hlocus'⟩,
        hperm'.trans hperm.symm⟩

/-- **From empty resonators the router gets past the gates that can be realized.** -/
theorem exists_route_cz_iff (hb : b.Serves a) (rested : b.AtRest) :
    (∃ out b', (RoutingContext.ofMapping a none).route b (.cz p q)
        ((RoutingContext.ofMapping a none).locus (.cz p q)) lookahead = .ok (out, b')) ↔
      a.Realizes p q := by
  have hcomponent : ∀ c ∈ [p, q], a.hasComponent c = true := List.forall_mem_cons.2
    ⟨hasComponent_of_isQubit hp, List.forall_mem_singleton.2 (hasComponent_of_isQubit hq)⟩
  by_cases hcouples : a.Couples p q
  · refine iff_of_true ?_ (Or.inl hcouples)
    have hvalid := RoutingContext.validate_of_couples (hasComponent_of_isQubit hp)
      (hasComponent_of_isQubit hq) hcouples
    exact RoutingContext.exists_route_of_valid hb.toSeparated rfl hvalid lookahead
  · have hinvalid : (RoutingContext.ofMapping a none).validate (.cz p q) ≠ .ok () := fun hvalid =>
      hcouples (RoutingContext.couples_of_valid_cz rfl hvalid)
    have hsources : b.sources [p, q] = [p, q] := by
      rw [ResonatorBank.sources, rested.holding_eq_nil hb.nodup]
      rfl
    rw [RoutingContext.route_of_invalid_cz rfl hinvalid, RoutingContext.locus_plain, Realizes,
      or_iff_right hcouples, show (Instruction.cz p q).qubits = [p, q] from rfl,
      RoutingContext.exists_throughResonator_iff hb.toSeparated, hsources]
    constructor
    · rintro ⟨r, moved, j, hsource, hmoved, husable⟩
      obtain ⟨partner, hne, hperm, rfl, hvalid⟩ :=
        (RoutingContext.usable_pair_iff hsource).1 husable
      rw [RoutingContext.logical_plain, RoutingContext.logical_plain] at hvalid
      exact ⟨partner, moved, hne, hperm, r, (hb.mem_qubitsOf_iff.1 hmoved).2,
        RoutingContext.couples_of_valid_cz rfl hvalid⟩
    · rintro ⟨partner, moved, hne, hperm, r, hmove, hpr⟩
      have hr := moves.isResonator hmove
      have hsource : moved ∈ [p, q] := hperm.mem_iff.2 (List.mem_cons_of_mem _ List.mem_cons_self)
      exact ⟨r, moved, _, hsource, hb.mem_qubitsOf_iff.2 ⟨hr, hmove⟩,
        RoutingContext.usable_plain hsource hne hperm (RoutingContext.validate_of_couples
          (hcomponent partner (hperm.mem_iff.2 List.mem_cons_self))
          (hasComponent_of_isResonator hr) hpr)⟩

end Qubits

end DynamicArchitecture

/-! ### The circuit of one gate -/

/-- Of a circuit with one instruction only that one is reached, with the bank from the start. -/
theorem RoutingContext.reaches_singleton_iff {x : RoutingContext} {b' : ResonatorBank}
    {j : Instruction} : x.Reaches b [i] (j :: rest) b' ↔ j = i ∧ rest = [] ∧ b' = b := by
  constructor
  · intro h
    cases h with
    | here => exact ⟨rfl, rfl, rfl⟩
    | step routed more => cases more
  · rintro ⟨rfl, rfl, rfl⟩
    exact .here _ _

namespace DynamicArchitecture

/-- **A gate alone can be routed exactly when the simplified architecture has it.** -/
theorem exists_insertMoves_cz_iff (checked : a.check = .ok ()) (moves : a.MovesIntoResonators)
    (hsome : a.moveLoci ≠ []) (hp : a.isQubit p = true) (hq : a.isQubit q = true)
    (hc : c.instructions = [.cz p q]) :
    (∃ c', (insertMoves c a none none).result = .ok c') ↔
      validateInstruction (simplifiedArchitecture a) (.cz p q) none = .ok () := by
  have hb := ResonatorBank.serves_ofArchitecture checked moves
  have noMoves : c.containsMoves = false := by
    rw [Circuit.containsMoves_eq_false_iff, hc]
    exact List.forall_mem_singleton.2 rfl
  have hmapped : ∀ i ∈ c.instructions, (RoutingContext.ofMapping a none).Mapped i := by
    rw [hc]
    refine List.forall_mem_singleton.2 (RoutingContext.mapped_plain_iff.2 ?_)
    exact List.forall_mem_cons.2
      ⟨hasComponent_of_isQubit hp, List.forall_mem_singleton.2 (hasComponent_of_isQubit hq)⟩
  rw [exists_insertMoves_iff checked moves noMoves (moves.supportsMove_iff.2 hsome) hmapped,
    validateInstruction_none_eq_ok_iff,
    show (Instruction.cz p q).qubits = [p, q] from rfl,
    permits_simplified_cz_iff moves hp hq checked,
    ← exists_route_cz_iff moves hp hq hb (ResonatorBank.atRest_ofArchitecture a), hc]
  constructor
  · intro h
    exact h _ _ _ (RoutingContext.reaches_singleton_iff.2 ⟨rfl, rfl, rfl⟩)
  · rintro h i rest b hreaches
    obtain ⟨rfl, rfl, rfl⟩ := RoutingContext.reaches_singleton_iff.1 hreaches
    exact h

/-- Couplings of all kinds: between qubits, with a resonator on either side, of three components, in
two implementations. -/
def mixedCouplings : DynamicArchitecture :=
  ((DynamicArchitecture.mk .nil ["Q1", "Q2", "Q3", "Q4"] ["R1", "R2"] .empty).withGate "cz"
    (((GateInfo.new "tgss").withImplementation "tgss"
      [["R1", "Q1"], ["Q2", "Q3"]]).withImplementation "crf"
      [["Q3", "R2"], ["Q1", "R2", "Q4"]])).withGate "move"
    (singleGate "tgss_crf" [["Q2", "R1"], ["Q4", "R2"]])

theorem moveLoci_mixedCouplings : mixedCouplings.moveLoci = [["Q2", "R1"], ["Q4", "R2"]] := by cbv

theorem movesIntoResonators_mixedCouplings : mixedCouplings.MovesIntoResonators := by
  rw [MovesIntoResonators, moveLoci_mixedCouplings]
  refine List.forall_mem_cons.2 ⟨?_, List.forall_mem_singleton.2 ?_⟩
  · exact ⟨"Q2", "R1", rfl, by decide, by decide⟩
  · exact ⟨"Q4", "R2", rfl, by decide, by decide⟩

/-- A circuit of one gate. -/
def gateAlone (p q : String) : Circuit where
  name := "c"
  instructions := [.cz p q]
  name_ne_empty := sampleName_ne_empty
  instructions_ne_nil := List.cons_ne_nil _ _

theorem exists_insertMoves_cz_iff_mixedCouplings :
    (∃ c', (insertMoves (gateAlone "Q2" "Q1") mixedCouplings none none).result = .ok c') ∧
      ¬ ∃ c', (insertMoves (gateAlone "Q1" "Q4") mixedCouplings none none).result = .ok c' := by
  have hsome : mixedCouplings.moveLoci ≠ [] := by
    rw [moveLoci_mixedCouplings]
    exact List.cons_ne_nil _ _
  have checked : mixedCouplings.check = .ok () := by cbv
  constructor
  · exact (exists_insertMoves_cz_iff checked movesIntoResonators_mixedCouplings hsome (by decide)
      (by decide) rfl).2 (by cbv)
  · intro h
    have hvalid := (exists_insertMoves_cz_iff checked movesIntoResonators_mixedCouplings hsome
      (by decide) (by decide) rfl).1 h
    have hinvalid : (validateInstruction (simplifiedArchitecture mixedCouplings) (.cz "Q1" "Q4")
        none).isOk = false := by cbv
    rw [hvalid] at hinvalid
    exact absurd hinvalid (by decide)

end DynamicArchitecture

end StarQpu
