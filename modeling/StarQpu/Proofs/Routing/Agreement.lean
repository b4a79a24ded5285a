import StarQpu.Proofs.Routing.Removed

/-!
# StarQpu.Proofs.Routing.Agreement

**What removal finds in the result of a run.** Removal reads the resonators that an instruction
names and nothing else. So the instructions of a circuit come back from the result of a run exactly
when each of them finds the same states in its resonators there as in the circuit
(`Routes.agrees_iff`). A controlled-Z that went through another resonator comes back in any case:
this resonator holds the state that was moved for it.
-/

namespace StarQpu

variable {a : DynamicArchitecture} {b b' u u' : ResonatorBank} {i j : Instruction}
  {e : Instruction × Placement} {f g : String → String} {p p' : Placement}
  {q r partner moved : String} {source out : List Instruction}

/-! ### Agreement -/

/-- The same operation with the same arguments on the same components; for a controlled-Z their
order does not matter. The implementations may differ. -/
structure Instruction.Agrees (i j : Instruction) : Prop where
  name : i.name = j.name
  args : i.args = j.args
  qubits : i.qubits = j.qubits ∨ i.isCz = true ∧ i.qubits = j.qubits.reverse

instance : Std.Refl Instruction.Agrees := ⟨fun _ => ⟨rfl, rfl, Or.inl rfl⟩⟩

theorem Instruction.agrees_iff : i.Agrees j ↔ i.name = j.name ∧ i.args = j.args ∧
    (i.qubits = j.qubits ∨ i.isCz = true ∧ i.qubits = j.qubits.reverse) :=
  ⟨fun h => ⟨h.name, h.args, h.qubits⟩, fun h => ⟨h.1, h.2.1, h.2.2⟩⟩

theorem Instruction.agrees_resolvedBy_iff (hname : i.name = j.name) (hargs : i.args = j.args) :
    (i.resolvedBy f).Agrees (j.resolvedBy g) ↔
      i.qubits.map f = j.qubits.map g ∨
        i.isCz = true ∧ i.qubits.map f = (j.qubits.map g).reverse := by
  rw [agrees_iff, name_resolvedBy, name_resolvedBy, args_resolvedBy, args_resolvedBy,
    qubits_resolvedBy, qubits_resolvedBy, isCz_resolvedBy]
  simp only [hname, hargs, true_and]

namespace DynamicArchitecture

/-- The resonators that the first instruction names hold the same states in both views. -/
def SameResonators (a : DynamicArchitecture) (e e' : Instruction × Placement) : Prop :=
  ∀ r ∈ e.1.qubits, a.isResonator r = true → e'.2 r = e.2 r

instance (a : DynamicArchitecture) : DecidableRel a.SameResonators := fun e e' =>
  inferInstanceAs (Decidable (∀ r ∈ e.1.qubits, a.isResonator r = true → e'.2 r = e.2 r))

instance (a : DynamicArchitecture) : Std.Refl a.SameResonators := ⟨fun _ _ _ _ => rfl⟩

/-- A controlled-Z does not act on two resonators, or these are empty. -/
def Anchored (a : DynamicArchitecture) (e : Instruction × Placement) : Prop :=
  e.1.isCz = true → (∃ q ∈ e.1.qubits, a.isResonator q = false) ∨ ∀ q ∈ e.1.qubits, e.2 q = q

/-- The occupants are the same exactly when the states in resonators are. -/
theorem sameResonators_iff (p p' : Placement) :
    a.SameResonators (i, p) (j, p') ↔
      ∀ q ∈ i.qubits, p'.occupant a q = p.occupant a q := by
  refine forall₂_congr fun q _ => ?_
  cases hq : a.isResonator q with
  | true =>
      rw [Placement.occupant_of_isResonator hq, Placement.occupant_of_isResonator hq]
      exact ⟨fun h => h rfl, fun h _ => h⟩
  | false =>
      rw [Placement.occupant_of_not_isResonator hq, Placement.occupant_of_not_isResonator hq]
      exact iff_of_true (fun h => absurd h (by decide)) rfl

end DynamicArchitecture

/-! ### Instructions that stay -/

/-- A pair that agrees with another one crosswise agrees with it straight, too, as soon as one of
its ends is the same on both sides. -/
theorem eq_of_crosswise {x y x' y' : String} (hend : x = x' ∨ y = y')
    (hcross : [x, y] = [y', x']) : [x, y] = [x', y'] := by
  obtain ⟨rfl, rfl⟩ : x = y' ∧ y = x' := by simpa using hcross
  rcases hend with heq | heq
  · rw [heq]
  · rw [heq]

section Stays

variable (hb : b.Serves a)
include hb

/-- In a bank no resonator holds the state of another one, so the occupants of two empty resonators
cannot have been exchanged. -/
theorem Placement.occupant_eq_of_crosswise {x y : String}
    (hcross : [x, y] = [b.placement.occupant a y, b.placement.occupant a x]) :
    b.placement.occupant a x = x := by
  cases hx : a.isResonator x with
  | false => exact occupant_of_not_isResonator hx
  | true =>
      obtain ⟨hxy, hyx⟩ : x = b.placement.occupant a y ∧ y = b.placement.occupant a x := by
        simpa using hcross
      cases hy : a.isResonator y with
      | false =>
          rw [occupant_of_not_isResonator hy] at hxy
          rw [hxy, hy] at hx
          exact absurd hx (by decide)
      | true =>
          have htracks : b.tracks y = true := by
            rw [hb.tracks_eq]
            exact hy
          obtain ⟨h, hheld⟩ := ResonatorBank.tracks_iff.1 htracks
          rw [occupant_of_isResonator hy, ResonatorBank.placement_of_holder? hheld] at hxy
          have hsame : h = y := by
            refine (hb.holder_cases hheld).resolve_right ?_
            rw [← hxy, hb.tracks_eq, hx]
            decide
          rw [← hyx, ← hsame]
          exact hxy.symm

/-- **An instruction that stays** comes back exactly when it finds the same states in its
resonators. -/
theorem agrees_of_stays_iff (anchored : a.Anchored (i, p)) :
    (i.resolvedBy (p.occupant a)).Agrees (i.resolvedBy (b.placement.occupant a)) ↔
      a.SameResonators (i, p) (i, b.placement) := by
  rw [Instruction.agrees_resolvedBy_iff rfl rfl, DynamicArchitecture.sameResonators_iff]
  have hstraight : i.qubits.map (p.occupant a) = i.qubits.map (b.placement.occupant a) ↔
      ∀ q ∈ i.qubits, b.placement.occupant a q = p.occupant a q := by
    rw [List.map_inj_left]
    exact forall₂_congr fun q _ => eq_comm
  rw [← hstraight]
  refine or_iff_left_of_imp fun h => ?_
  obtain ⟨hcz, hcross⟩ := h
  obtain ⟨x, y, haction⟩ := Instruction.isCz_iff.1 hcz
  have hpair := anchored hcz
  rw [Instruction.qubits_of_cz haction] at hpair hcross ⊢
  simp only [List.map_cons, List.map_nil, List.reverse_cons, List.reverse_nil, List.nil_append,
    List.cons_append] at hcross ⊢
  refine eq_of_crosswise ?_ hcross
  rcases hpair with ⟨q, hq, hfree⟩ | hempty
  · -- the end that is no resonator is its own occupant on both sides
    have hsame : ∀ s : Placement, s.occupant a q = q := fun s =>
      Placement.occupant_of_not_isResonator hfree
    rcases List.mem_cons.1 hq with rfl | hq
    · exact Or.inl ((hsame p).trans (hsame _).symm)
    · rw [List.mem_singleton.1 hq] at hsame
      exact Or.inr ((hsame p).trans (hsame _).symm)
  · have hown : ∀ q ∈ [x, y], p.occupant a q = q := by
      intro q hq
      rw [Placement.occupant]
      split
      next => exact hempty q hq
      next => rfl
    rw [hown x (by simp), hown y (by simp)] at hcross
    rw [hown x (by simp)]
    exact Or.inl (Placement.occupant_eq_of_crosswise hb hcross).symm

end Stays

/-! ### Rerouted gates -/

/-- **A rerouted gate** comes back exactly when it finds the same state at its partner, which may be
a resonator: at the other end removal finds the qubit that was moved. -/
theorem RoutingContext.Reroutes.agrees_iff (h : (ofMapping a none).Reroutes b i j partner moved r)
    (hb : b.Serves a) (p : Placement) :
    (i.resolvedBy (p.occupant a)).Agrees (j.resolvedBy (b.placement.occupant a)) ↔
      a.SameResonators (i, p) (j, b.placement) := by
  have hname : i.name = j.name := by
    rw [Instruction.name_eq_cz_iff.2 h.cz, Instruction.name_eq_cz_iff.2 h.isCz_replacement]
  have hargs : i.args = j.args := by
    obtain ⟨x, y, haction⟩ := Instruction.isCz_iff.1 h.cz
    rw [h.replacement, Instruction.args, haction]
    rfl
  have hmoved : ∀ s : Placement, s.occupant a moved = moved := by
    have hfree := hb.apart h.reachable
    rw [hb.tracks_eq] at hfree
    exact fun s => Placement.occupant_of_not_isResonator hfree
  have hr : b.placement.occupant a r = moved := by
    rw [Placement.occupant_of_isResonator (hb.isResonator_of_holder? h.held),
      ResonatorBank.placement_of_holder? h.held]
  have hperm := h.locus
  rw [locus_plain] at hperm
  have hsame : (∀ q ∈ i.qubits, b.placement.occupant a q = p.occupant a q) ↔
      b.placement.occupant a partner = p.occupant a partner := by
    simp only [hperm.mem_iff, List.forall_mem_cons, hmoved, List.not_mem_nil, false_implies,
      implies_true, and_true]
  rw [Instruction.agrees_resolvedBy_iff hname hargs, DynamicArchitecture.sameResonators_iff, hsame,
    h.qubits_plain]
  -- the components of the gate stand in one order or the other
  rcases List.perm_pair.1 hperm with heq | heq
  · rw [heq]
    simp only [List.map_cons, List.map_nil, hmoved, hr, List.reverse_cons, List.reverse_nil,
      List.nil_append, List.cons_append, List.cons.injEq, and_true, h.cz, true_and]
    constructor
    · intro hor
      rcases hor with heq | ⟨hp, hq⟩
      · exact heq.symm
      · exact (hp.trans hq).symm
    · intro heq
      exact Or.inl heq.symm
  · rw [heq]
    simp only [List.map_cons, List.map_nil, hmoved, hr, List.reverse_cons, List.reverse_nil,
      List.nil_append, List.cons_append, List.cons.injEq, and_true, h.cz, true_and]
    constructor
    · intro hor
      rcases hor with ⟨hp, hq⟩ | heq
      · exact (hq.trans hp).symm
      · exact heq.symm
    · intro heq
      exact Or.inr heq.symm

/-! ### Runs -/

theorem DynamicArchitecture.removed_cons (e : Instruction × Placement)
    (views : List (Instruction × Placement)) :
    a.removed (e :: views) = e.1.resolvedBy (e.2.occupant a) :: a.removed views := rfl

/-- **Removal agrees before and after a run** exactly when every instruction finds the same states
in the resonators that it names. -/
theorem RoutingContext.Routes.agrees_iff (run : (ofMapping a none).Routes b source out b')
    (hb : b.Serves a) (hu : u.Separated) (follows : u.Follows source u')
    (anchored : ∀ e ∈ u.placement.views source, (ofMapping a none).validate e.1 = .ok () →
      a.Anchored e) :
    List.Forall₂ Instruction.Agrees (a.removed (u.placement.views source))
        (a.removed (b.placement.views out)) ↔
      List.Forall₂ a.SameResonators (u.placement.views source) (b.placement.views out) := by
  -- the bank `u` follows the circuit and never sees a MOVE of the router
  induction run generalizing u with
  | done => exact iff_of_true .nil .nil
  | move applied _ _ ih =>
      rw [Placement.views_cons_of_move rfl, Placement.step_move, logical_plain, logical_plain,
        ← ResonatorBank.placement_applied hb.toSeparated applied]
      exact ih (hb.applied applied) hu follows anchored
  | follow _ action _ applied _ ih =>
      have hmove := Instruction.isMove_iff.2 ⟨_, _, action⟩
      rw [renamed_mapping_plain, renamed_mapping_plain] at applied
      cases follows with
      | other other _ =>
          rw [other] at hmove
          exact absurd hmove (by decide)
      | move action' applied' follows =>
          obtain ⟨rfl, rfl⟩ := Action.move.inj (action'.symm.trans action)
          rw [Placement.views_cons_of_move hmove, Placement.step_of_action action,
            ← ResonatorBank.placement_applied hu applied'] at anchored ⊢
          rw [Placement.views_cons_of_move hmove, Placement.step_of_action action,
            ← ResonatorBank.placement_applied hb.toSeparated applied]
          exact ih (hb.applied applied) (hu.applied applied') follows anchored
  | @keep b b' i source out kept _ ih =>
      cases follows with
      | move action _ _ =>
          exact absurd action (Instruction.isMove_eq_false_iff.1 kept.other _ _)
      | other _ follows =>
          rw [Placement.views_cons_of_not_move kept.other, List.forall_mem_cons] at anchored
          rw [Placement.views_cons_of_not_move kept.other,
            Placement.views_cons_of_not_move kept.other, DynamicArchitecture.removed_cons,
            DynamicArchitecture.removed_cons, List.forall₂_cons, List.forall₂_cons]
          refine and_congr (agrees_of_stays_iff hb fun hcz => ?_) (ih hb hu follows anchored.2)
          rcases kept.ready with ⟨-, hvalid⟩ | ⟨hnot, -⟩
          · exact anchored.1 hvalid hcz
          · rw [hnot] at hcz
            exact absurd hcz (by decide)
  | reroute rerouted _ ih =>
      have hother := Instruction.not_isMove_of_isCz rerouted.cz
      cases follows with
      | move action _ _ =>
          exact absurd action (Instruction.isMove_eq_false_iff.1 hother _ _)
      | other _ follows =>
          rw [Placement.views_cons_of_not_move hother, List.forall_mem_cons] at anchored
          rw [Placement.views_cons_of_not_move hother,
            Placement.views_cons_of_not_move rerouted.not_isMove, DynamicArchitecture.removed_cons,
            DynamicArchitecture.removed_cons, List.forall₂_cons, List.forall₂_cons]
          exact and_congr (rerouted.agrees_iff hb _) (ih hb hu follows anchored.2)

end StarQpu
