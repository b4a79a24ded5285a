import StarQpu.Proofs.Routing.Agreement
import StarQpu.Proofs.Routing.Clash
import StarQpu.Proofs.Routing.Identity

/-!
# StarQpu.Proofs.Routing.Stability

**When removal takes back what was added around resonators.** An instruction that is accepted as it
stands is kept, and a MOVE of the circuit is followed, without a look at the states that the router
itself has in the resonators they name. So a circuit that uses resonators on its own, with MOVEs or
without, can find a state in them that is not meant for it. The circuits that come back are the ones
that find in every resonator what they would find without the router. All circuits come back on an
architecture only if no controlled-Z can go through a resonator at all.
-/

namespace StarQpu

variable {a : DynamicArchitecture} {b b' u : ResonatorBank} {c c' d e : Circuit} {i j : Instruction}
  {q r partner moved : String} {source out : List Instruction} {existing : Option ExistingMoves}

namespace DynamicArchitecture

/-- A controlled-Z of two components can go through a resonator. -/
def Reroutable (a : DynamicArchitecture) : Prop :=
  ∃ q r p, [q, r] ∈ a.moveLoci ∧ p ≠ q ∧ a.Couples p r

end DynamicArchitecture

namespace RoutingContext

/-! ### Nothing to reroute -/

theorem Reroutes.reroutable (h : (ofMapping a none).Reroutes b i j partner moved r)
    (hb : b.Serves a) : a.Reroutable := by
  have haction : j.action = .cz partner r := by
    rw [h.replacement, logical_plain, logical_plain]
    rfl
  exact ⟨moved, r, partner, (hb.mem_qubitsOf_iff.1 h.reachable).2, h.ne,
    couples_of_valid_cz haction h.valid⟩

theorem Routes.valid_of_isCz (run : (ofMapping a none).Routes b source out b') (hb : b.Serves a)
    (direct : ¬ a.Reroutable) :
    ∀ i ∈ source, i.isCz = true → (ofMapping a none).validate i = .ok () := by
  induction run with
  | done => exact fun i hi => absurd hi List.not_mem_nil
  | move applied _ _ ih => exact ih (hb.applied applied)
  | follow _ action _ applied _ ih =>
      rw [renamed_mapping_plain, renamed_mapping_plain] at applied
      refine List.forall_mem_cons.2 ⟨fun hcz => ?_, ih (hb.applied applied)⟩
      exact absurd action
        (Instruction.isMove_eq_false_iff.1 (Instruction.not_isMove_of_isCz hcz) _ _)
  | keep kept _ ih =>
      refine List.forall_mem_cons.2 ⟨fun hcz => ?_, ih hb⟩
      rcases kept.ready with ⟨-, hvalid⟩ | ⟨hnot, -⟩
      · exact hvalid
      · rw [hnot] at hcz
        exact absurd hcz (by decide)
  | reroute rerouted _ _ => exact absurd (rerouted.reroutable hb) direct

/-- An instruction other than a MOVE leaves one behind. -/
theorem Routes.exists_not_move {x : RoutingContext} (run : x.Routes b source out b')
    (hother : ∃ i ∈ source, i.isMove = false) : ∃ i ∈ out, i.isMove = false := by
  induction run with
  | done => exact hother
  | move _ _ _ ih =>
      obtain ⟨i, hi, hnot⟩ := ih hother
      exact ⟨i, List.mem_cons_of_mem _ hi, hnot⟩
  | follow _ action _ _ _ ih =>
      obtain ⟨i, hi, hnot⟩ := hother
      rcases List.mem_cons.1 hi with rfl | hi
      · exact absurd action (Instruction.isMove_eq_false_iff.1 hnot _ _)
      · obtain ⟨k, hk, hknot⟩ := ih ⟨i, hi, hnot⟩
        exact ⟨k, List.mem_cons_of_mem _ hk, hknot⟩
  | keep kept _ _ => exact ⟨_, List.mem_cons_self, kept.other⟩
  | reroute rerouted _ _ => exact ⟨_, List.mem_cons_self, rerouted.not_isMove⟩

end RoutingContext

section Checked

variable (checked : a.check = .ok ()) (moves : a.MovesIntoResonators)
include checked moves

/-- A circuit that is kept or trusted, and in which no held qubit is touched, stays as it is where
nothing can be rerouted. -/
theorem eq_of_not_reroutable {mode : ExistingMoves} (hkeep : mode ≠ .remove)
    (direct : ¬ a.Reroutable) (valid : validateMoves a c none .strict = .ok ())
    (untouched : a.Untouched c.instructions)
    (h : (insertMoves c a (some mode) none).result = .ok c') : c' = c := by
  cases hsupport : (ResonatorBank.ofArchitecture a).supportsMove with
  | false => exact (eq_of_not_supportsMove hkeep hsupport h).2
  | true =>
      have hb := ResonatorBank.serves_ofArchitecture checked moves
      have hcalibrated :=
        DynamicArchitecture.supportsMove_of_moveLoci (moves.supportsMove_iff.1 hsupport)
      obtain ⟨source, hsource, -, -, b', run, -⟩ := routes_of_supportsMove checked moves hsupport h
      rw [result_insertionSource_of_validateMoves hkeep valid, Except.ok.injEq] at hsource
      subst hsource
      obtain ⟨u, follows, hrest, -⟩ := exists_follows_of_validateMoves checked moves hcalibrated
        (by decide) (fun i hi q r hmove => run.source_mem_qubitsOf hi hmove) valid
      exact ((result_insertMoves_of_untouched checked moves hsupport follows hrest untouched
        (run.valid_of_isCz hb direct) hkeep valid).1 h).2

/-- Both the circuit and the result of a run over it can be freed of their MOVEs. What is left
agrees exactly when every instruction finds the same states in the resonators that it names. -/
theorem exists_removals_of_routes {b' : ResonatorBank}
    (run : (RoutingContext.ofMapping a none).Routes (.ofArchitecture a) c.instructions
      c'.instructions b')
    (follows : (ResonatorBank.ofArchitecture a).Follows c.instructions u)
    (hother : ∃ i ∈ c.instructions, i.isMove = false)
    (anchored : ∀ e ∈ Placement.own.views c.instructions,
      (RoutingContext.ofMapping a none).validate e.1 = .ok () → a.Anchored e) :
    ∃ d d', (removeMoves c).result = .ok d ∧ (removeMoves c').result = .ok d' ∧
      (List.Forall₂ Instruction.Agrees d.instructions d'.instructions ↔
        List.Forall₂ a.SameResonators (Placement.own.views c.instructions)
          (Placement.own.views c'.instructions)) := by
  have hb := ResonatorBank.serves_ofArchitecture checked moves
  have hown := ResonatorBank.placement_own hb.toSeparated (ResonatorBank.atRest_ofArchitecture a)
  obtain ⟨d, hd, hremoved⟩ := exists_removeMoves_of_follows checked moves follows hother
  obtain ⟨d', hd', hremoved'⟩ :=
    exists_removeMoves_of_follows checked moves run.follows (run.exists_not_move hother)
  rw [← hown] at anchored hremoved hremoved' ⊢
  refine ⟨d, d', hd, hd', ?_⟩
  rw [hremoved, hremoved']
  exact run.agrees_iff hb hb.toSeparated follows anchored

end Checked

/-! ### A state that is left in a resonator -/

namespace RoutingContext

/-- A gate that cannot run as it stands, and then a barrier over all resonators. -/
def reroutedThenBarrier (a : DynamicArchitecture) (p q implementation : String) :
    List Instruction :=
  [⟨.cz p q, some implementation⟩, .barrier a.resonators]

/-- A barrier over all resonators stays, whatever they hold. -/
theorem route_barrier (hb : b.Serves a) (lookahead : List Instruction) :
    (ofMapping a none).route b (.barrier a.resonators)
        ((ofMapping a none).locus (.barrier a.resonators)) lookahead =
      .ok ([.barrier a.resonators], b) := by
  have hresonator : ∀ s ∈ a.resonators, a.isResonator s = true := fun s hs =>
    List.contains_iff_mem.2 hs
  have hnone : b.holding (Instruction.barrier a.resonators).qubits = [] := by
    refine List.eq_nil_iff_forall_not_mem.2 fun s hs => ?_
    obtain ⟨h, -, hh, hfree⟩ := (ResonatorBank.mem_holding_iff hb.nodup).1 hs
    rw [hb.tracks_eq, hresonator h hh] at hfree
    exact absurd hfree (by decide)
  have hvalid : (ofMapping a none).validate (.barrier a.resonators) = .ok () := by
    have hcomponent : ∀ s ∈ a.resonators, a.hasComponent s = true := fun s hs =>
      DynamicArchitecture.hasComponent_of_isResonator (hresonator s hs)
    refine validate_plain_iff.2 ⟨hcomponent, ?_⟩
    rw [permits_barrier, List.all_eq_true]
    exact hcomponent
  exact (route_eq_ok_iff_of_ready (Or.inl hnone) (fun hcz => absurd hcz Bool.false_ne_true)
    (follow_of_not_move rfl)).2 ⟨hvalid, rfl, rfl⟩

/-- The state that was moved for the first gate is in a resonator when the barrier is reached. -/
theorem exists_routeAll_of_reroutable {implementation p : String} (hb : b.Serves a)
    (rest : b.AtRest) (hmove : [q, r] ∈ a.moveLoci) (hr : a.isResonator r = true) (hne : p ≠ q)
    (hp : a.hasComponent p = true) (hq : a.hasComponent q = true) (hpr : a.Couples p r)
    (unknown : ∀ loci, calibratedLoci a "cz" (some implementation) ≠ .ok loci) :
    ∃ out b' s, (ofMapping a none).routeAll b (reroutedThenBarrier a p q implementation)
        ((reroutedThenBarrier a p q implementation).map
          (·.mapQubits (renamed (ofMapping a none).mapping))) =
        .ok (out ++ [.barrier a.resonators], b') ∧
      (ofMapping a none).Routes b [⟨.cz p q, some implementation⟩] out b' ∧
      s ∈ a.resonators ∧ b'.placement s ≠ s := by
  have hlocus : (ofMapping a none).locus ⟨.cz p q, some implementation⟩ = [p, q] := locus_plain _
  have hmapped : (ofMapping a none).Mapped ⟨.cz p q, some implementation⟩ :=
    mapped_plain_iff.2 (List.forall_mem_cons.2 ⟨hp, List.forall_mem_singleton.2 hq⟩)
  obtain ⟨out, b', s, moved, hroute, hheld, hreach, -, -⟩ := exists_route_of_held hb rest hmove hr
    hne hp hpr (validate_unknown unknown) ((reroutedThenBarrier a p q implementation).map
      (·.mapQubits (renamed (ofMapping a none).mapping)))
  rw [← hlocus] at hroute
  have run := routes_of_route hb.toSeparated hmapped hroute
  have hb' := run.serves hb
  refine ⟨out, b', s, ?_, run, ?_, ?_⟩
  · exact routeAll_pair hroute (route_barrier hb' _)
  · exact List.contains_iff_mem.1 (hb'.isResonator_of_holder? hheld)
  · rw [ResonatorBank.placement_of_holder? hheld]
    exact hb.ne_of_mem_qubitsOf hreach

end RoutingContext

/-- The last views of two lists are related if all are. -/
theorem rel_last_of_forall₂ {α β : Type} {R : α → β → Prop} {x y : α} {z : β} {l : List β}
    (h : List.Forall₂ R [x, y] (l ++ [z])) : R y z := by
  have hreverse := List.forall₂_reverse_iff.2 h
  rw [List.reverse_append] at hreverse
  exact (List.forall₂_cons.1 hreverse).1

/-- **Where a gate can be rerouted**, an instruction on resonators can find a state that is not
meant for it. -/
theorem exists_not_same_of_reroutable (checked : a.check = .ok ()) (moves : a.MovesIntoResonators)
    (h : a.Reroutable) (existing : Option ExistingMoves) :
    ∃ c c' : Circuit, c.containsMoves = false ∧
      (insertMoves c a existing none).result = .ok c' ∧
      ¬ List.Forall₂ a.SameResonators (Placement.own.views c.instructions)
        (Placement.own.views c'.instructions) := by
  -- an implementation that does not exist makes the router look for a resonator
  obtain ⟨q, r, p, hmove, hne, hpr⟩ := h
  obtain ⟨name, -, unknown⟩ := RoutingContext.exists_unknown_implementation a "cz"
  have hb := ResonatorBank.serves_ofArchitecture checked moves
  have hown := ResonatorBank.placement_own hb.toSeparated (ResonatorBank.atRest_ofArchitecture a)
  have hp : a.hasComponent p = true := by
    obtain ⟨locus, hlocus, hperm⟩ := hpr
    exact DynamicArchitecture.hasComponent_of_calibrated checked hlocus
      (hperm.mem_iff.2 List.mem_cons_self)
  have hq := DynamicArchitecture.hasComponent_of_isQubit (moves.isQubit hmove)
  obtain ⟨out, b', s, hrouted, run, hs, hfilled⟩ :=
    RoutingContext.exists_routeAll_of_reroutable hb (ResonatorBank.atRest_ofArchitecture a) hmove
      (moves.isResonator hmove) hne hp hq hpr unknown
  have hmapped : ∀ i ∈ RoutingContext.reroutedThenBarrier a p q name,
      (RoutingContext.ofMapping a none).Mapped i := by
    refine List.forall_mem_cons.2 ⟨?_, List.forall_mem_singleton.2 ?_⟩
    · exact RoutingContext.mapped_plain_iff.2
        (List.forall_mem_cons.2 ⟨hp, List.forall_mem_singleton.2 hq⟩)
    · exact RoutingContext.mapped_plain_iff.2 fun t ht =>
        DynamicArchitecture.hasComponent_of_isResonator (List.contains_iff_mem.2 ht)
  have hsupport := moves.supportsMove_iff.2 (List.ne_nil_of_mem hmove)
  obtain ⟨c', hinserted, hout⟩ := exists_insertMoves_of_routeAll checked moves
    (c := ⟨"resonators", RoutingContext.reroutedThenBarrier a p q name, none, by decide,
      List.cons_ne_nil _ _⟩) rfl hsupport hmapped hrouted existing
  refine ⟨_, c', rfl, hinserted, fun hsame => ?_⟩
  have hback : ∀ i ∈ ResonatorBank.moveInstructions (RoutingContext.ofMapping a none).names
      (b'.occupied none), i.isMove = true := by
    intro i hi
    obtain ⟨move, -, rfl⟩ := List.mem_map.1 hi
    rfl
  have hafter := run.after_eq hb.toSeparated
  rw [hown] at hafter
  rw [hout, Placement.views_append, Placement.views_of_move hback, List.append_nil,
    Placement.views_append, hafter] at hsame
  have hlast := rel_last_of_forall₂ hsame
  exact hfilled (hlast s hs (List.contains_iff_mem.2 hs))

namespace DynamicArchitecture

/-! ### MOVEs that are kept -/

/-- A circuit with MOVEs that mean something: their sandwiches are valid, a resonator with MOVEs
holds a state whenever it is used, and no instruction acts on a qubit whose state is away. -/
structure Sandwiched (a : DynamicArchitecture) (c : Circuit) : Prop where
  other : ∃ i ∈ c.instructions, i.isMove = false
  valid : validateMoves a c none .strict = .ok ()
  removable : removalPrecondition c = .ok ()
  untouched : a.Untouched c.instructions

/-- A circuit without MOVEs is one of them. -/
theorem sandwiched_of_not_containsMoves (noMoves : c.containsMoves = false) : a.Sandwiched c where
  other := by
    obtain ⟨i, hi⟩ := List.exists_mem_of_ne_nil _ c.instructions_ne_nil
    exact ⟨i, hi, Circuit.containsMoves_eq_false_iff.1 noMoves i hi⟩
  valid := validateMoveList_of_not_move none .strict (Circuit.containsMoves_eq_false_iff.1 noMoves)
  removable := removalPrecondition_of_not_containsMoves noMoves
  untouched := untouched_of_not_move (Circuit.containsMoves_eq_false_iff.1 noMoves)

/-- Removal makes the same of a circuit before and after its MOVEs were kept and others inserted. -/
def KeepStable (a : DynamicArchitecture) : Prop :=
  ∀ c c' : Circuit, a.Sandwiched c → (insertMoves c a (some .keep) none).result = .ok c' →
    ∃ d d', (removeMoves c).result = .ok d ∧ (removeMoves c').result = .ok d' ∧
      List.Forall₂ Instruction.Agrees d.instructions d'.instructions

/-- A controlled-Z that is accepted acts on a qubit. -/
theorem anchored_of_validate {e : Instruction × Placement} (checked : a.check = .ok ())
    (cz : ∀ locus ∈ a.calibrated "cz", ∃ q ∈ locus, a.isQubit q = true)
    (hvalid : (RoutingContext.ofMapping a none).validate e.1 = .ok ()) : a.Anchored e := by
  intro hcz
  obtain ⟨locus, hlocus, hperm⟩ :=
    calibrated_of_permits_cz hcz (RoutingContext.validate_plain_iff.1 hvalid).2
  obtain ⟨q, hq, hqubit⟩ := cz locus hlocus
  exact Or.inl ⟨q, hperm.mem_iff.1 hq, not_isResonator_of_isQubit checked hqubit⟩

section Kept

variable (checked : a.check = .ok ()) (moves : a.MovesIntoResonators)
  (cz : ∀ locus ∈ a.calibrated "cz", ∃ q ∈ locus, a.isQubit q = true)
include checked moves cz

theorem exists_removals_of_keep (hc : a.Sandwiched c)
    (h : (insertMoves c a (some .keep) none).result = .ok c') :
    ∃ d d', (removeMoves c).result = .ok d ∧ (removeMoves c').result = .ok d' ∧
      (List.Forall₂ Instruction.Agrees d.instructions d'.instructions ↔
        List.Forall₂ a.SameResonators (Placement.own.views c.instructions)
          (Placement.own.views c'.instructions)) := by
  cases hsupport : (ResonatorBank.ofArchitecture a).supportsMove with
  | false =>
      obtain ⟨noMoves, rfl⟩ := eq_of_not_supportsMove (by decide) hsupport h
      exact ⟨c', c', removeMoves_result_self noMoves, removeMoves_result_self noMoves,
        iff_of_true (List.forall₂_refl _) (List.forall₂_refl _)⟩
  | true =>
      have hcalibrated := supportsMove_of_moveLoci (moves.supportsMove_iff.1 hsupport)
      obtain ⟨source, hsource, -, -, b', run, -⟩ := routes_of_supportsMove checked moves hsupport h
      rw [result_insertionSource_of_validateMoves (by decide) hc.valid, Except.ok.injEq] at hsource
      subst hsource
      obtain ⟨u, follows, -, -⟩ := exists_follows_of_validateMoves checked moves hcalibrated
        (by decide) (fun i hi q r hmove => run.source_mem_qubitsOf hi hmove) hc.valid
      exact exists_removals_of_routes checked moves run follows hc.other
        fun e _ hvalid => anchored_of_validate checked cz hvalid

/-- **When keeping MOVEs keeps what removal finds.** For one circuit it does exactly when every
instruction finds the same states in the resonators that it names, in the circuit and in the result;
for all circuits of an architecture exactly when no controlled-Z can be rerouted there. -/
theorem keep_stable_iff :
    (∀ c c' : Circuit, a.Sandwiched c → (insertMoves c a (some .keep) none).result = .ok c' →
        ∃ d d', (removeMoves c).result = .ok d ∧ (removeMoves c').result = .ok d' ∧
          (List.Forall₂ Instruction.Agrees d.instructions d'.instructions ↔
            List.Forall₂ a.SameResonators (Placement.own.views c.instructions)
              (Placement.own.views c'.instructions))) ∧
      (a.KeepStable ↔ ¬ a.Reroutable) := by
  refine ⟨fun c c' hc h => exists_removals_of_keep checked moves cz hc h, ?_, ?_⟩
  · intro hstable hreroutable
    obtain ⟨c, c', noMoves, h, hnot⟩ :=
      exists_not_same_of_reroutable checked moves hreroutable (some .keep)
    have hc : a.Sandwiched c := sandwiched_of_not_containsMoves noMoves
    obtain ⟨d, d', hd, hd', hagrees⟩ := hstable c c' hc h
    obtain ⟨t, t', ht, ht', hiff⟩ := exists_removals_of_keep checked moves cz hc h
    obtain rfl : d = t := Except.ok.inj (hd.symm.trans ht)
    obtain rfl : d' = t' := Except.ok.inj (hd'.symm.trans ht')
    exact hnot (hiff.1 hagrees)
  · intro direct c c' hc h
    obtain ⟨d, d', hd, hd', hiff⟩ := exists_removals_of_keep checked moves cz hc h
    obtain rfl := eq_of_not_reroutable checked moves (by decide) direct hc.valid hc.untouched h
    exact ⟨d, d', hd, hd', hiff.2 (List.forall₂_refl _)⟩

end Kept

/-- Three qubits around a resonator; one of them has the MOVE. -/
def sharedResonator : DynamicArchitecture :=
  ((DynamicArchitecture.mk .nil ["Q1", "Q2", "Q3"] ["R"] .empty).withGate "cz"
    (singleGate "tgss" [["Q1", "R"], ["Q2", "R"]])).withGate "move"
    (singleGate "tgss_crf" [["Q3", "R"]])

theorem check_sharedResonator : sharedResonator.check = .ok () := by cbv

theorem calibrated_cz_sharedResonator :
    sharedResonator.calibrated "cz" = [["Q1", "R"], ["Q2", "R"]] := by cbv

theorem moveLoci_sharedResonator : sharedResonator.moveLoci = [["Q3", "R"]] := by cbv

theorem movesIntoResonators_sharedResonator : sharedResonator.MovesIntoResonators := by
  rw [MovesIntoResonators, moveLoci_sharedResonator, List.forall_mem_singleton]
  exact ⟨"Q3", "R", rfl, by decide, by decide⟩

theorem exists_qubit_sharedResonator :
    ∀ locus ∈ sharedResonator.calibrated "cz", ∃ q ∈ locus, sharedResonator.isQubit q = true := by
  rw [calibrated_cz_sharedResonator]
  decide

theorem reroutable_sharedResonator : sharedResonator.Reroutable := by
  refine ⟨"Q3", "R", "Q1", ?_, by decide, ["Q1", "R"], ?_, .refl _⟩
  · rw [moveLoci_sharedResonator]
    exact List.mem_cons_self
  · rw [calibrated_cz_sharedResonator]
    exact List.mem_cons_self

/-- A gate for which a state has to be moved, and a sandwich that moves the same state. -/
def gateThenSandwich : Circuit where
  name := "c"
  instructions := [.cz "Q3" "Q1", .move "Q3" "R", .cz "Q2" "R", .move "Q3" "R"]
  name_ne_empty := sampleName_ne_empty
  instructions_ne_nil := List.cons_ne_nil _ _

/-- The sandwich finds the state in the resonator: its first MOVE takes it out. -/
def routedGateThenSandwich : Circuit where
  name := "c"
  instructions := [.move "Q3" "R", .cz "Q1" "R", .move "Q3" "R", .cz "Q2" "R", .move "Q3" "R",
    .move "Q3" "R"]
  name_ne_empty := sampleName_ne_empty
  instructions_ne_nil := List.cons_ne_nil _ _

/-- The same the other way around. -/
def sandwichThenGate : Circuit where
  name := "c"
  instructions := [.move "Q3" "R", .cz "Q2" "R", .move "Q3" "R", .cz "Q3" "Q1"]
  name_ne_empty := sampleName_ne_empty
  instructions_ne_nil := List.cons_ne_nil _ _

/-- The gate gets a sandwich of its own. -/
def routedSandwichThenGate : Circuit where
  name := "c"
  instructions := [.move "Q3" "R", .cz "Q2" "R", .move "Q3" "R", .move "Q3" "R", .cz "Q1" "R",
    .move "Q3" "R"]
  name_ne_empty := sampleName_ne_empty
  instructions_ne_nil := List.cons_ne_nil _ _

theorem sandwiched_gateThenSandwich : sharedResonator.Sandwiched gateThenSandwich where
  other := ⟨.cz "Q3" "Q1", List.mem_cons_self, rfl⟩
  valid := by cbv
  removable := by cbv
  untouched := by decide +kernel

theorem sandwiched_sandwichThenGate : sharedResonator.Sandwiched sandwichThenGate where
  other := ⟨.cz "Q2" "R", List.mem_cons_of_mem _ List.mem_cons_self, rfl⟩
  valid := by cbv
  removable := by cbv
  untouched := by decide +kernel

theorem keep_stable_iff_sharedResonator :
    (∃ d d', (removeMoves sandwichThenGate).result = .ok d ∧
        (removeMoves routedSandwichThenGate).result = .ok d' ∧
        List.Forall₂ Instruction.Agrees d.instructions d'.instructions) ∧
      ¬ sharedResonator.KeepStable := by
  have hrouted : (insertMoves sandwichThenGate sharedResonator (some .keep) none).result =
      .ok routedSandwichThenGate := by cbv
  obtain ⟨hcircuit, hall⟩ := keep_stable_iff check_sharedResonator
    movesIntoResonators_sharedResonator exists_qubit_sharedResonator
  refine ⟨?_, fun hstable => hall.1 hstable reroutable_sharedResonator⟩
  obtain ⟨d, d', hd, hd', hiff⟩ := hcircuit _ _ sandwiched_sandwichThenGate hrouted
  exact ⟨d, d', hd, hd', hiff.2 (by decide +kernel)⟩

/-- The gate of the sandwich was one with `Q3`, and is one with the resonator afterwards. -/
theorem kept_sandwich_is_inverted :
    sharedResonator.check = .ok () ∧ sharedResonator.MovesIntoResonators ∧
      sharedResonator.calibrated "cz" = [["Q1", "R"], ["Q2", "R"]] ∧
      sharedResonator.Sandwiched gateThenSandwich ∧
      (insertMoves gateThenSandwich sharedResonator (some .keep) none).result =
        .ok routedGateThenSandwich ∧
      (removeMoves gateThenSandwich).result.map (·.instructions) =
        .ok [.cz "Q3" "Q1", .cz "Q2" "Q3"] ∧
      (removeMoves routedGateThenSandwich).result.map (·.instructions) =
        .ok [.cz "Q1" "Q3", .cz "Q2" "R"] ∧
      ¬ List.Forall₂ Instruction.Agrees [.cz "Q3" "Q1", .cz "Q2" "Q3"]
        [.cz "Q1" "Q3", .cz "Q2" "R"] := by
  refine ⟨check_sharedResonator, movesIntoResonators_sharedResonator,
    calibrated_cz_sharedResonator, sandwiched_gateThenSandwich, by cbv, by cbv, by cbv, ?_⟩
  intro hagrees
  have hlast := (rel_last_of_forall₂ (l := [_]) hagrees).qubits
  exact absurd hlast (by decide)

/-! ### MOVEs that are inserted anew -/

/-- Removing MOVEs, inserting them and removing them again leads to the same as removing them
once. -/
def RemovalStable (a : DynamicArchitecture) (existing : Option ExistingMoves) : Prop :=
  ∀ c d e : Circuit, removalPrecondition c = .ok () → (removeMoves c).result = .ok d →
    (insertMoves d a existing none).result = .ok e →
    ∃ d', (removeMoves e).result = .ok d' ∧
      List.Forall₂ Instruction.Agrees d.instructions d'.instructions

section Anew

variable (checked : a.check = .ok ()) (moves : a.MovesIntoResonators)
include checked moves

theorem exists_removal_of_insertMoves (noMoves : d.containsMoves = false)
    (h : (insertMoves d a existing none).result = .ok e) :
    ∃ d', (removeMoves e).result = .ok d' ∧
      (List.Forall₂ Instruction.Agrees d.instructions d'.instructions ↔
        List.Forall₂ a.SameResonators (Placement.own.views d.instructions)
          (Placement.own.views e.instructions)) := by
  have hother := Circuit.containsMoves_eq_false_iff.1 noMoves
  rcases routes_of_insertMoves checked moves noMoves h with ⟨-, rfl⟩ | ⟨-, -, b', run, -⟩
  · exact ⟨e, removeMoves_result_self noMoves,
      iff_of_true (List.forall₂_refl _) (List.forall₂_refl _)⟩
  · have anchored : ∀ v ∈ Placement.own.views d.instructions,
        (RoutingContext.ofMapping a none).validate v.1 = .ok () → a.Anchored v := by
      intro v hv _ _
      rw [Placement.views_of_not_move hother, List.mem_map] at hv
      obtain ⟨i, -, rfl⟩ := hv
      exact Or.inr fun q _ => rfl
    obtain ⟨d₀, d', hd₀, hd', hiff⟩ := exists_removals_of_routes checked moves run
      (.of_not_move _ hother) (sandwiched_of_not_containsMoves (a := a) noMoves).other anchored
    obtain rfl : d = d₀ := Except.ok.inj ((removeMoves_result_self noMoves).symm.trans hd₀)
    exact ⟨d', hd', hiff⟩

/-- **When removal is stable.** What is inserted after a removal and removed again leaves the same
circuit exactly when every instruction finds the resonators that it names empty; all circuits of an
architecture come back exactly when no controlled-Z can be rerouted there. -/
theorem removal_stable_iff (existing : Option ExistingMoves) :
    (∀ c d e : Circuit, (removeMoves c).result = .ok d →
        (insertMoves d a existing none).result = .ok e →
        ∃ d', (removeMoves e).result = .ok d' ∧
          (List.Forall₂ Instruction.Agrees d.instructions d'.instructions ↔
            List.Forall₂ a.SameResonators (Placement.own.views d.instructions)
              (Placement.own.views e.instructions))) ∧
      (a.RemovalStable existing ↔ ¬ a.Reroutable) := by
  refine ⟨fun c d e hd h => ?_, ?_, ?_⟩
  · exact exists_removal_of_insertMoves checked moves (containsMoves_of_removeMoves hd) h
  · intro hstable hreroutable
    obtain ⟨c, c', noMoves, h, hnot⟩ :=
      exists_not_same_of_reroutable checked moves hreroutable existing
    obtain ⟨d', hd', hagrees⟩ := hstable c c c' (removalPrecondition_of_not_containsMoves noMoves)
      (removeMoves_result_self noMoves) h
    obtain ⟨t, ht, hiff⟩ := exists_removal_of_insertMoves checked moves noMoves h
    obtain rfl : d' = t := Except.ok.inj (hd'.symm.trans ht)
    exact hnot (hiff.1 hagrees)
  · intro direct c d e _ hd h
    have noMoves := containsMoves_of_removeMoves hd
    rw [result_insertMoves_congr noMoves existing (some .trust)] at h
    have hc := sandwiched_of_not_containsMoves (a := a) noMoves
    obtain rfl := eq_of_not_reroutable checked moves (by decide) direct hc.valid hc.untouched h
    exact ⟨e, removeMoves_result_self noMoves, List.forall₂_refl _⟩

end Anew

/-- Three qubits and two resonators: `Q1` can be moved into either one, `Q3` acts on the first. -/
def twoResonators : DynamicArchitecture :=
  ((DynamicArchitecture.mk .nil ["Q1", "Q2", "Q3"] ["R1", "R2"] .empty).withGate "cz"
    (singleGate "tgss" [["Q2", "R1"], ["Q2", "R2"], ["Q3", "R1"]])).withGate "move"
    (singleGate "tgss_crf" [["Q1", "R1"], ["Q1", "R2"]])

theorem check_twoResonators : twoResonators.check = .ok () := by cbv

theorem calibrated_cz_twoResonators :
    twoResonators.calibrated "cz" = [["Q2", "R1"], ["Q2", "R2"], ["Q3", "R1"]] := by cbv

theorem moveLoci_twoResonators : twoResonators.moveLoci = [["Q1", "R1"], ["Q1", "R2"]] := by cbv

theorem movesIntoResonators_twoResonators : twoResonators.MovesIntoResonators := by
  rw [MovesIntoResonators, moveLoci_twoResonators]
  refine List.forall_mem_cons.2 ⟨?_, List.forall_mem_singleton.2 ?_⟩
  · exact ⟨"Q1", "R1", rfl, by decide, by decide⟩
  · exact ⟨"Q1", "R2", rfl, by decide, by decide⟩

theorem reroutable_twoResonators : twoResonators.Reroutable := by
  refine ⟨"Q1", "R1", "Q2", ?_, by decide, ["Q2", "R1"], ?_, .refl _⟩
  · rw [moveLoci_twoResonators]
    exact List.mem_cons_self
  · rw [calibrated_cz_twoResonators]
    exact List.mem_cons_self

/-- A sandwich in the second resonator, and then a gate of `Q3` with `other`. -/
def sandwichInSecond (other : String) : Circuit where
  name := "c"
  instructions := [.move "Q1" "R2", .cz "Q2" "R2", .move "Q1" "R2", .cz "Q3" other]
  name_ne_empty := sampleName_ne_empty
  instructions_ne_nil := List.cons_ne_nil _ _

/-- The circuit without its MOVEs. -/
def withoutSandwich (other : String) : Circuit where
  name := "c"
  instructions := [.cz "Q2" "Q1", .cz "Q3" other]
  name_ne_empty := sampleName_ne_empty
  instructions_ne_nil := List.cons_ne_nil _ _

/-- The first gate goes through the first resonator, and the state stays there for the second. -/
def sandwichInFirst : Circuit where
  name := "c"
  instructions := [.move "Q1" "R1", .cz "Q2" "R1", .cz "Q3" "R1", .move "Q1" "R1"]
  name_ne_empty := sampleName_ne_empty
  instructions_ne_nil := List.cons_ne_nil _ _

theorem removal_stable_iff_twoResonators :
    (∃ d', (removeMoves sandwichInFirst).result = .ok d' ∧
        List.Forall₂ Instruction.Agrees (withoutSandwich "Q1").instructions d'.instructions) ∧
      ¬ twoResonators.RemovalStable (some .trust) := by
  have hremoved : (removeMoves (sandwichInSecond "Q1")).result = .ok (withoutSandwich "Q1") := by
    cbv
  have hrouted : (insertMoves (withoutSandwich "Q1") twoResonators (some .trust) none).result =
      .ok sandwichInFirst := by cbv
  obtain ⟨hcircuit, hall⟩ :=
    removal_stable_iff check_twoResonators movesIntoResonators_twoResonators (some .trust)
  refine ⟨?_, fun hstable => hall.1 hstable reroutable_twoResonators⟩
  obtain ⟨d', hd', hiff⟩ := hcircuit _ _ _ hremoved hrouted
  exact ⟨d', hd', hiff.2 (by decide +kernel)⟩

/-- The gate of `Q3` was one with the empty first resonator, and is one with `Q1` afterwards. -/
theorem removal_changes_again :
    twoResonators.check = .ok () ∧ twoResonators.MovesIntoResonators ∧
      validateCircuits twoResonators [sandwichInSecond "R1"] none .strict = .ok () ∧
      removalPrecondition (sandwichInSecond "R1") = .ok () ∧
      (removeMoves (sandwichInSecond "R1")).result = .ok (withoutSandwich "R1") ∧
      (insertMoves (withoutSandwich "R1") twoResonators (some .trust) none).result =
        .ok sandwichInFirst ∧
      (insertMoves (withoutSandwich "R1") twoResonators (some .remove) none).result =
        .ok sandwichInFirst ∧
      (removeMoves sandwichInFirst).result = .ok (withoutSandwich "Q1") ∧
      ¬ List.Forall₂ Instruction.Agrees (withoutSandwich "R1").instructions
        (withoutSandwich "Q1").instructions := by
  refine ⟨check_twoResonators, movesIntoResonators_twoResonators, by cbv, by cbv, by cbv, by cbv,
    by cbv, by cbv, fun hagrees => ?_⟩
  have hlast := (rel_last_of_forall₂ (l := [_]) hagrees).qubits
  exact absurd hlast (by decide)

end DynamicArchitecture

end StarQpu
