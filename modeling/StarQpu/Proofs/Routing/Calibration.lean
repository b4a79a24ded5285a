import StarQpu.Proofs.Routing.Stability

/-!
# StarQpu.Proofs.Routing.Calibration

**Which instructions of a result are calibrated.** The router checks a controlled-Z before it writes
it, and its MOVEs are ones of the architecture. Any other instruction is checked only as long as no
state of it is held: behind states that are given back it is written as it is. So the result of an
insertion is calibrated exactly when the circuit is, its controlled-Z gates apart
(`Routes.calibrated_iff`). A state is held as soon as a controlled-Z was rerouted, so all results of
an architecture are calibrated only if nothing can be rerouted there.
-/

namespace StarQpu

variable {a : DynamicArchitecture} {b b' : ResonatorBank} {c c' : Circuit} {i : Instruction}
  {existing : Option ExistingMoves} {p q r : String} {source out lookahead : List Instruction}

namespace RoutingContext

/-! ### Along a run -/

/-- An instruction other than a controlled-Z is written as it is. -/
theorem Routes.mem_of_not_isCz {x : RoutingContext} (run : x.Routes b source out b')
    (hi : i ∈ source) (hcz : i.isCz = false) : i ∈ out := by
  induction run with
  | done => exact hi
  | move _ _ _ ih => exact List.mem_cons_of_mem _ (ih hi)
  | follow _ _ _ _ _ ih =>
      rcases List.mem_cons.1 hi with rfl | hi
      · exact List.mem_cons_self
      · exact List.mem_cons_of_mem _ (ih hi)
  | keep _ _ ih =>
      rcases List.mem_cons.1 hi with rfl | hi
      · exact List.mem_cons_self
      · exact List.mem_cons_of_mem _ (ih hi)
  | reroute rerouted _ ih =>
      rcases List.mem_cons.1 hi with rfl | hi
      · rw [rerouted.cz] at hcz
        exact absurd hcz (by decide)
      · exact List.mem_cons_of_mem _ (ih hi)

section Calibrated

variable (run : (ofMapping a none).Routes b source out b') (checked : a.check = .ok ())
  (hb : b.Serves a) (noMoves : ∀ i ∈ source, i.isMove = false)
include run checked hb noMoves

/-- What the router made itself is calibrated; the rest comes from the circuit. -/
theorem Routes.calibrated_or_mem (hi : i ∈ out) :
    validateInstruction a i none = .ok () ∨ i.isCz = false ∧ i.isMove = false ∧ i ∈ source := by
  rcases run.origin noMoves hi with ⟨q, r, rfl, hq⟩ | ⟨-, hvalid⟩ | hkept
  · rw [logical_plain, logical_plain]
    exact Or.inl (validateInstruction_none_eq_ok_iff.2
      (permits_move_of_calibrated q r (hb.mem_qubitsOf_iff.1 hq).2))
  · exact Or.inl ((validate_plain_iff_of_check checked).1 hvalid)
  · exact Or.inr hkept

/-- **The result is calibrated** exactly when every instruction of the circuit that is no
controlled-Z is. -/
theorem Routes.calibrated_iff : (∀ i ∈ out, validateInstruction a i none = .ok ()) ↔
    ∀ i ∈ source, i.isCz = false → validateInstruction a i none = .ok () := by
  constructor
  · intro h i hi hcz
    exact h i (run.mem_of_not_isCz hi hcz)
  · intro h i hi
    rcases run.calibrated_or_mem checked hb noMoves hi with hvalid | ⟨hcz, -, hmem⟩
    · exact hvalid
    · exact h i hmem hcz

end Calibrated

/-! ### Behind a state that is given back -/

/-- A gate and a measurement of its qubits, both by implementations that need not exist. -/
def gateThenMeasured (p q gate measurement : String) : List Instruction :=
  [⟨.cz p q, some gate⟩, ⟨.measure [p, q] "m", some measurement⟩]

/-- A measurement is written unchecked while the state of one of its qubits is held. -/
theorem exists_route_measure {qubits : Locus} {key : String} {implementation : Option String}
    (hb : b.Serves a) (hheld : b.holding qubits ≠ []) :
    ∃ out b', (ofMapping a none).route b ⟨.measure qubits key, implementation⟩
      ((ofMapping a none).locus ⟨.measure qubits key, implementation⟩) lookahead =
      .ok (out ++ [⟨.measure qubits key, implementation⟩], b') := by
  have hlocus : (ofMapping a none).locus ⟨.measure qubits key, implementation⟩ = qubits :=
    locus_plain _
  rw [route_of_held (by rw [hlocus]; exact hheld) rfl rfl, giveBack_eq hb.toSeparated]
  exact ⟨_, _, rfl⟩

theorem validateInstruction_measure_unknown {qubits : Locus} {key measurement : String}
    (unknown : ∀ loci, calibratedLoci a "measure" (some measurement) ≠ .ok loci) :
    validateInstruction a ⟨.measure qubits key, some measurement⟩ none ≠ .ok () := by
  intro hvalid
  have hcheck : (Action.measure qubits key).operation.locusCheck ≠ .skip :=
    show LocusCheck.anyCombination ≠ LocusCheck.skip by decide
  rw [validateInstruction_none_eq_ok_iff, permits_iff_of_not_skip hcheck] at hvalid
  obtain ⟨loci, hloci, -⟩ := hvalid
  exact unknown loci hloci

/-- The router gets through a gate that it reroutes and a measurement of its qubits. -/
theorem exists_routeAll_gateThenMeasured {gate : String} (hb : b.Serves a)
    (rest : b.AtRest) (hmove : [q, r] ∈ a.moveLoci) (hr : a.isResonator r = true) (hne : p ≠ q)
    (hp : a.hasComponent p = true) (hq : a.hasComponent q = true) (hpr : a.Couples p r)
    (unknown : ∀ loci, calibratedLoci a "cz" (some gate) ≠ .ok loci) (measurement : String) :
    ∃ out b', (ofMapping a none).routeAll b (gateThenMeasured p q gate measurement)
      ((gateThenMeasured p q gate measurement).map
        (·.mapQubits (renamed (ofMapping a none).mapping))) = .ok (out, b') := by
  have hlocus : (ofMapping a none).locus ⟨.cz p q, some gate⟩ = [p, q] := locus_plain _
  have hmapped : (ofMapping a none).Mapped ⟨.cz p q, some gate⟩ :=
    mapped_plain_iff.2 (List.forall_mem_cons.2 ⟨hp, List.forall_mem_singleton.2 hq⟩)
  obtain ⟨out, b₁, s, moved, hroute, hheld, hreach, hmoved, -⟩ := exists_route_of_held hb rest hmove
    hr hne hp hpr (validate_unknown unknown) ((gateThenMeasured p q gate measurement).map
      (·.mapQubits (renamed (ofMapping a none).mapping)))
  rw [← hlocus] at hroute
  have hb₁ := (routes_of_route hb.toSeparated hmapped hroute).serves hb
  have hfree : b₁.tracks moved = false := by
    rw [hb₁.tracks_eq, ← hb.tracks_eq]
    exact hb.apart hreach
  have hmem : s ∈ b₁.holding [p, q] :=
    (ResonatorBank.mem_holding_iff hb₁.nodup).2 ⟨moved, hheld, hmoved, hfree⟩
  obtain ⟨more, b', hmeasure⟩ := exists_route_measure hb₁ (List.ne_nil_of_mem hmem)
  exact ⟨_, b', routeAll_pair hroute hmeasure⟩

end RoutingContext

namespace DynamicArchitecture

/-! ### The whole circuit -/

/-- Whatever circuit without MOVEs is routed, every instruction of the result is calibrated. -/
def EmitsCalibrated (a : DynamicArchitecture) (existing : Option ExistingMoves) : Prop :=
  ∀ c c' : Circuit, c.containsMoves = false →
    (insertMoves c a existing none).result = .ok c' →
    ∀ i ∈ c'.instructions, validateInstruction a i none = .ok ()

section Checked

variable (checked : a.check = .ok ()) (moves : a.MovesIntoResonators) (hsome : a.moveLoci ≠ [])
include checked moves hsome

/-- **Where a gate can be rerouted**, a measurement that is not calibrated can get into a result. -/
theorem not_emitsCalibrated_of_reroutable (h : a.Reroutable) : ¬ a.EmitsCalibrated existing := by
  -- implementations that do not exist: the gate is rerouted, and no measurement is calibrated
  obtain ⟨q, r, p, hmove, hne, hpr⟩ := h
  obtain ⟨gate, -, hgate⟩ := RoutingContext.exists_unknown_implementation a "cz"
  obtain ⟨measurement, -, hmeasurement⟩ :=
    RoutingContext.exists_unknown_implementation a "measure"
  have hp : a.hasComponent p = true := by
    obtain ⟨locus, hlocus, hperm⟩ := hpr
    exact hasComponent_of_calibrated checked hlocus (hperm.mem_iff.2 List.mem_cons_self)
  have hq := hasComponent_of_isQubit (moves.isQubit hmove)
  have hqubits : ∀ t ∈ [p, q], a.hasComponent t = true :=
    List.forall_mem_cons.2 ⟨hp, List.forall_mem_singleton.2 hq⟩
  have hb := ResonatorBank.serves_ofArchitecture checked moves
  obtain ⟨out, b', hrouted⟩ := RoutingContext.exists_routeAll_gateThenMeasured hb
    (ResonatorBank.atRest_ofArchitecture a) hmove (moves.isResonator hmove) hne hp hq hpr hgate
    measurement
  have hmapped : ∀ i ∈ RoutingContext.gateThenMeasured p q gate measurement,
      (RoutingContext.ofMapping a none).Mapped i :=
    List.forall_mem_cons.2 ⟨RoutingContext.mapped_plain_iff.2 hqubits,
      List.forall_mem_singleton.2 (RoutingContext.mapped_plain_iff.2 hqubits)⟩
  let c : Circuit := ⟨"measured", RoutingContext.gateThenMeasured p q gate measurement, none,
    by decide, List.cons_ne_nil _ _⟩
  obtain ⟨c', h, -⟩ := exists_insertMoves_of_routeAll (c := c) checked moves rfl
    (moves.supportsMove_iff.2 hsome) hmapped hrouted existing
  intro hall
  obtain ⟨source, hsource, -, -, b', run, -⟩ :=
    routes_of_supportsMove checked moves (moves.supportsMove_iff.2 hsome) h
  rw [result_insertionSource rfl, Except.ok.injEq] at hsource
  subst hsource
  have hmem := run.mem_of_not_isCz (List.mem_cons_of_mem _ List.mem_cons_self) rfl
  exact RoutingContext.validateInstruction_measure_unknown hmeasurement (hall c c' rfl h _ hmem)

/-- Where nothing can be rerouted the router checks every instruction. -/
theorem emitsCalibrated_of_not_reroutable (direct : ¬ a.Reroutable) :
    a.EmitsCalibrated existing := by
  intro c c' noMoves h
  have hother := Circuit.containsMoves_eq_false_iff.1 noMoves
  have hsupport := moves.supportsMove_iff.2 hsome
  have hb := ResonatorBank.serves_ofArchitecture checked moves
  obtain ⟨source, hsource, -, -, b', run, -⟩ := routes_of_supportsMove checked moves hsupport h
  rw [result_insertionSource noMoves, Except.ok.injEq] at hsource
  subst hsource
  rw [result_insertMoves_congr noMoves existing (some .trust)] at h
  obtain ⟨hvalid, rfl⟩ := (result_insertMoves_of_untouched checked moves hsupport
    (.of_not_move _ hother) (ResonatorBank.atRest_ofArchitecture a) (untouched_of_not_move hother)
    (run.valid_of_isCz hb direct) (by decide)
    (validateMoveList_of_not_move none .strict hother)).1 h
  exact hvalid

/-- **When the result of an insertion is calibrated.** Its controlled-Z gates and MOVEs always are.
All of it is exactly when the other instructions of the circuit are, and all results of an
architecture are exactly when no controlled-Z can be rerouted there. -/
theorem emitted_calibrated_iff (existing : Option ExistingMoves) :
    (∀ c c' : Circuit, c.containsMoves = false →
        (insertMoves c a existing none).result = .ok c' →
        (∀ i ∈ c'.instructions, i.isCz = true ∨ i.isMove = true →
          validateInstruction a i none = .ok ()) ∧
        ((∀ i ∈ c'.instructions, validateInstruction a i none = .ok ()) ↔
          ∀ i ∈ c.instructions, i.isCz = false → validateInstruction a i none = .ok ())) ∧
      (a.EmitsCalibrated existing ↔ ¬ a.Reroutable) := by
  refine ⟨fun c c' noMoves h => ?_, fun hall h => ?_, ?_⟩
  · have hother := Circuit.containsMoves_eq_false_iff.1 noMoves
    have hb := ResonatorBank.serves_ofArchitecture checked moves
    obtain ⟨source, hsource, -, -, b', run, -⟩ :=
      routes_of_supportsMove checked moves (moves.supportsMove_iff.2 hsome) h
    rw [result_insertionSource noMoves, Except.ok.injEq] at hsource
    subst hsource
    refine ⟨fun i hi hkind => ?_, run.calibrated_iff checked hb hother⟩
    rcases run.calibrated_or_mem checked hb hother hi with hvalid | ⟨hcz, hmove, -⟩
    · exact hvalid
    · rw [hcz, hmove] at hkind
      exact absurd hkind (by decide)
  · exact not_emitsCalibrated_of_reroutable checked moves hsome h hall
  · exact emitsCalibrated_of_not_reroutable checked moves hsome

end Checked

/-- Two qubits around a resonator; only one of them can be measured, and the other one moved. -/
def halfMeasured : DynamicArchitecture :=
  (((DynamicArchitecture.mk .nil ["QB1", "QB2"] ["CR1"] .empty).withGate "cz"
    (singleGate "tgss" [["QB1", "CR1"]])).withGate "move"
    (singleGate "tgss_crf" [["QB2", "CR1"]])).withGate "measure"
    (singleGate "constant" [["QB1"]])

theorem check_halfMeasured : halfMeasured.check = .ok () := by cbv

theorem moveLoci_halfMeasured : halfMeasured.moveLoci = [["QB2", "CR1"]] := by cbv

theorem movesIntoResonators_halfMeasured : halfMeasured.MovesIntoResonators := by
  rw [MovesIntoResonators, moveLoci_halfMeasured, List.forall_mem_singleton]
  exact ⟨"QB2", "CR1", rfl, by decide, by decide⟩

theorem moveLoci_halfMeasured_ne_nil : halfMeasured.moveLoci ≠ [] := by
  rw [moveLoci_halfMeasured]
  exact List.cons_ne_nil _ _

theorem reroutable_halfMeasured : halfMeasured.Reroutable := by
  have hcalibrated : halfMeasured.calibrated "cz" = [["QB1", "CR1"]] := by cbv
  refine ⟨"QB2", "CR1", "QB1", ?_, by decide, ["QB1", "CR1"], ?_, .refl _⟩
  · rw [moveLoci_halfMeasured]
    exact List.mem_cons_self
  · rw [hcalibrated]
    exact List.mem_cons_self

/-- A gate that has to be rerouted, and then a measurement. -/
def measuredAfterGate (qubit : String) : Circuit where
  name := "c"
  instructions := [.cz "QB1" "QB2", .measure [qubit] "m"]
  name_ne_empty := sampleName_ne_empty
  instructions_ne_nil := List.cons_ne_nil _ _

/-- The state of the other qubit stays in the resonator while `QB1` is measured. -/
def routedMeasuredQB1 : Circuit where
  name := "c"
  instructions := [.move "QB2" "CR1", .cz "QB1" "CR1", .measure ["QB1"] "m", .move "QB2" "CR1"]
  name_ne_empty := sampleName_ne_empty
  instructions_ne_nil := List.cons_ne_nil _ _

/-- The state of `QB2` is given back, and `QB2` is measured unchecked. -/
def routedMeasuredQB2 : Circuit where
  name := "c"
  instructions := [.move "QB2" "CR1", .cz "QB1" "CR1", .move "QB2" "CR1", .measure ["QB2"] "m"]
  name_ne_empty := sampleName_ne_empty
  instructions_ne_nil := List.cons_ne_nil _ _

theorem emitted_calibrated_iff_halfMeasured :
    (∀ i ∈ routedMeasuredQB1.instructions,
        validateInstruction halfMeasured i none = .ok ()) ∧
      ¬ halfMeasured.EmitsCalibrated none := by
  have hrouted : (insertMoves (measuredAfterGate "QB1") halfMeasured none none).result =
      .ok routedMeasuredQB1 := by cbv
  have hmeasured : validateInstruction halfMeasured (.measure ["QB1"] "m") none = .ok () := by cbv
  obtain ⟨hcircuit, hall⟩ := emitted_calibrated_iff check_halfMeasured
    movesIntoResonators_halfMeasured moveLoci_halfMeasured_ne_nil none
  refine ⟨(hcircuit _ _ rfl hrouted).2.2 ?_, fun hemits => hall.1 hemits reroutable_halfMeasured⟩
  refine List.forall_mem_cons.2 ⟨fun hcz => absurd hcz (by decide), ?_⟩
  exact List.forall_mem_singleton.2 fun _ => hmeasured

/-- A measurement of `QB2` alone is refused; behind a gate on `QB2` it is let through. -/
theorem uncalibrated_measurement_halfMeasured :
    halfMeasured.check = .ok () ∧ halfMeasured.MovesIntoResonators ∧ halfMeasured.moveLoci ≠ [] ∧
      (measuredAfterGate "QB2").containsMoves = false ∧
      (insertMoves (measuredAfterGate "QB2") halfMeasured none none).result =
        .ok routedMeasuredQB2 ∧
      .measure ["QB2"] "m" ∈ routedMeasuredQB2.instructions ∧
      validateInstruction halfMeasured (.measure ["QB2"] "m") none =
        .error (.forbiddenLocus none ["QB2"] "measure") := by
  refine ⟨check_halfMeasured, movesIntoResonators_halfMeasured, moveLoci_halfMeasured_ne_nil, rfl,
    by cbv, by decide, by cbv⟩

end DynamicArchitecture

end StarQpu
