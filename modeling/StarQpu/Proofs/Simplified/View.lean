import StarQpu.Proofs.Samples
import StarQpu.Proofs.Simplified

/-!
# StarQpu.Proofs.Simplified.View

**The simplified architecture is the view without resonators.** What calibrated loci enable is said
here without the simplification (`Enables`): a locus without a resonator as it is, and a pair of
qubits if one of them couples to a resonator to which the other one has a MOVE. Each implementation
of the view lists exactly what it enables, in natural order; implementations and gates of which
nothing is left are gone, and the choice of implementations refers to what is left (`IsViewOf`). So
the view is an architecture that passes the check, and the view of itself (`simplified_isViewOf`).
-/

namespace StarQpu

variable {a s : DynamicArchitecture} {g g' : GateInfo} {loci loci' loci'' : List Locus}
  {locus : Locus} {c p q r gate name : String}

namespace DynamicArchitecture

/-! ### What loci enable -/

/-- Gates calibrated for `loci` and the MOVEs of the architecture enable a gate on `locus`: it has
no resonator and is one of them, or one of its two qubits couples to a resonator to which the other
one has a MOVE. The qubit with the MOVE stands in the place of the resonator. -/
def Enables (a : DynamicArchitecture) (loci : List Locus) (locus : Locus) : Prop :=
  (locus ∈ loci ∧ ∀ c ∈ locus, a.isResonator c = false) ∨
    ∃ p q r, locus = [p, q] ∧ p ≠ q ∧ a.isQubit p = true ∧ a.isQubit q = true ∧
      a.isResonator r = true ∧
      ([p, r] ∈ loci ∧ [q, r] ∈ a.moveLoci ∨ [r, q] ∈ loci ∧ [p, r] ∈ a.moveLoci)

/-- `loci'` lists what `loci` enable, in natural order and each once. -/
structure Flattens (a : DynamicArchitecture) (loci loci' : List Locus) : Prop where
  ascending : loci'.Pairwise fun l l' => compareLoci l l' = .lt
  mem_iff : ∀ locus, locus ∈ loci' ↔ a.Enables loci locus

/-- There is one such list. -/
theorem Flattens.unique (h : a.Flattens loci loci') (h' : a.Flattens loci loci'') :
    loci' = loci'' :=
  eq_of_ascending h.ascending h'.ascending fun locus =>
    (h.mem_iff locus).trans (h'.mem_iff locus).symm

theorem isQubit_of_hasComponent (hc : a.hasComponent c = true) (hfree : a.isResonator c = false) :
    a.isQubit c = true := by
  rw [hasComponent, hfree, Bool.or_false] at hc
  exact hc

section Checked

variable (checked : a.check = .ok ()) (moves : a.MovesIntoResonators)
  (known : ∀ locus ∈ loci, ∀ c ∈ locus, a.hasComponent c = true)
include checked moves known

/-- What loci enable is what they stand for. -/
theorem enables_iff : a.Enables loci locus ↔
    ∃ source ∈ loci, locus ∈ simplifyLocus a (.ofArchitecture a) source := by
  simp only [mem_simplifyLocus_iff, ResonatorBank.mem_qubitsOf_ofArchitecture_iff]
  constructor
  · rintro (⟨hmem, hfree⟩ | ⟨p, q, r, rfl, hne, hp, hq, hr, ⟨hcoupled, hmove⟩ | ⟨hcoupled, hmove⟩⟩)
    · exact ⟨locus, hmem, Or.inl ⟨hfree, rfl⟩⟩
    · exact ⟨[p, r], hcoupled, Or.inr ⟨p, r, q, not_isResonator_of_isQubit checked hp, hr,
        ⟨hr, hmove⟩, hne.symm, Or.inl ⟨rfl, rfl⟩⟩⟩
    · exact ⟨[r, q], hcoupled, Or.inr ⟨q, r, p, not_isResonator_of_isQubit checked hq, hr,
        ⟨hr, hmove⟩, hne, Or.inr ⟨rfl, rfl⟩⟩⟩
  · rintro ⟨source, hmem, ⟨hfree, rfl⟩ |
      ⟨q, r, p, hq, hr, ⟨-, hmove⟩, hne, ⟨rfl, rfl⟩ | ⟨rfl, rfl⟩⟩⟩
    · exact Or.inl ⟨hmem, hfree⟩
    · have hqubit := isQubit_of_hasComponent (known _ hmem q List.mem_cons_self) hq
      exact Or.inr ⟨q, p, r, rfl, hne.symm, hqubit, moves.isQubit hmove, hr,
        Or.inl ⟨hmem, hmove⟩⟩
    · have hqubit := isQubit_of_hasComponent
        (known _ hmem q (List.mem_cons_of_mem _ List.mem_cons_self)) hq
      exact Or.inr ⟨p, q, r, rfl, hne, moves.isQubit hmove, hqubit, hr, Or.inr ⟨hmem, hmove⟩⟩

theorem flattens_sortLoci :
    a.Flattens loci (sortLoci (loci.flatMap (simplifyLocus a (.ofArchitecture a)))) where
  ascending := sortLoci_pairwise _
  mem_iff := by
    intro locus
    rw [mem_sortLoci_flatMap, enables_iff checked moves known]

theorem simplifyLoci_eq_some_iff_flattens :
    simplifyLoci a (.ofArchitecture a) loci = some loci' ↔ a.Flattens loci loci' ∧ loci' ≠ [] := by
  have hflat := flattens_sortLoci checked moves known
  rw [simplifyLoci_eq_some_iff]
  constructor
  · rintro ⟨rfl, hsome⟩
    exact ⟨hflat, hsome⟩
  · rintro ⟨hflat', hsome⟩
    exact ⟨hflat.unique hflat', hsome⟩

end Checked

/-! ### What is left of a gate -/

/-- `g'` is what is left of the gate `g`. -/
structure Leaves (a : DynamicArchitecture) (g g' : GateInfo) : Prop where
  /-- An implementation is kept, with the loci that it enables, unless there are none. -/
  implementations : ∀ name loci', g'.implementations.get? name = some loci' ↔
    ∃ loci, g.implementations.get? name = some loci ∧ a.Flattens loci loci' ∧ loci' ≠ []
  default_kept : g'.implementations.contains g'.defaultImplementation = true
  default_eq : g'.implementations.contains g.defaultImplementation = true →
    g'.defaultImplementation = g.defaultImplementation
  overrides : ∀ locus name, g'.overrides.get? locus = some name ↔
    g.overrides.get? locus = some name ∧ ∀ c ∈ locus, a.isResonator c = false

end DynamicArchitecture

/-- Every override names an implementation that is calibrated for its locus. -/
def GateInfo.OverridesCalibrated (g : GateInfo) : Prop :=
  ∀ locus name, g.overrides.get? locus = some name →
    ∃ loci, g.implementations.get? name = some loci ∧ locus ∈ loci

open DynamicArchitecture

theorem free_iff : (!locus.any a.isResonator) = true ↔ ∀ c ∈ locus, a.isResonator c = false := by
  simp

/-- A simplified gate has an implementation, and its default is one that it has. -/
theorem default_of_simplifyGate {b : ResonatorBank} (h : simplifyGate a b g = some g') :
    g'.implementations.contains g'.defaultImplementation = true ∧
      (g'.implementations.contains g.defaultImplementation = true →
        g'.defaultImplementation = g.defaultImplementation) := by
  dsimp only [simplifyGate] at h
  split at h
  next => simp at h
  next first rest hkeys =>
    obtain rfl := Option.some.inj h
    dsimp only
    by_cases hkept : (g.implementations.filterMap fun _ loci => simplifyLoci a b loci).contains
        g.defaultImplementation = true
    · rw [if_pos hkept]
      exact ⟨hkept, fun _ => rfl⟩
    · rw [if_neg hkept]
      refine ⟨Table.mem_keys_iff.1 ?_, fun h => absurd h hkept⟩
      rw [hkeys]
      exact List.mem_cons_self

theorem overrides_simplifyGate {b : ResonatorBank} (h : simplifyGate a b g = some g') :
    g'.overrides = g.overrides.filter fun locus _ => !locus.any a.isResonator := by
  dsimp only [simplifyGate] at h
  split at h
  next => simp at h
  next => rw [← Option.some.inj h]

/-- The components of the loci of an implementation are those of the gate. -/
theorem known_of_get? (known : ∀ locus ∈ g.allLoci, ∀ c ∈ locus, a.hasComponent c = true)
    (hloci : g.implementations.get? name = some loci) :
    ∀ locus ∈ loci, ∀ c ∈ locus, a.hasComponent c = true :=
  fun locus hlocus => known locus (GateInfo.mem_allLoci_iff.2 ⟨name, loci, hloci, hlocus⟩)

section Gate

variable (checked : a.check = .ok ()) (moves : a.MovesIntoResonators)
  (known : ∀ locus ∈ g.allLoci, ∀ c ∈ locus, a.hasComponent c = true)
include checked moves known

theorem leaves_of_simplifyGate (h : simplifyGate a (.ofArchitecture a) g = some g') :
    a.Leaves g g' where
  implementations := by
    intro name loci'
    rw [implementations_simplifyGate h, Table.get?_filterMap, Option.bind_eq_some_iff]
    constructor
    · rintro ⟨loci, hloci, hsimplified⟩
      exact ⟨loci, hloci, (simplifyLoci_eq_some_iff_flattens checked moves
        (known_of_get? known hloci)).1 hsimplified⟩
    · rintro ⟨loci, hloci, hflat⟩
      exact ⟨loci, hloci, (simplifyLoci_eq_some_iff_flattens checked moves
        (known_of_get? known hloci)).2 hflat⟩
  default_kept := (default_of_simplifyGate h).1
  default_eq := (default_of_simplifyGate h).2
  overrides := by
    intro locus name
    rw [overrides_simplifyGate h, Table.get?_filter, Option.filter_eq_some_iff, free_iff]

/-- Something is left of a gate exactly when one of its implementations enables something. -/
theorem exists_simplifyGate_iff : (∃ g', simplifyGate a (.ofArchitecture a) g = some g') ↔
    ∃ name loci locus, g.implementations.get? name = some loci ∧ a.Enables loci locus := by
  constructor
  · rintro ⟨g', h⟩
    have left := leaves_of_simplifyGate checked moves known h
    obtain ⟨loci', hloci'⟩ := Table.contains_iff.1 left.default_kept
    obtain ⟨loci, hloci, hflat, hsome⟩ := (left.implementations _ _).1 hloci'
    obtain ⟨locus, hlocus⟩ := List.exists_mem_of_ne_nil _ hsome
    exact ⟨_, loci, locus, hloci, (hflat.mem_iff locus).1 hlocus⟩
  · rintro ⟨name, loci, locus, hloci, henabled⟩
    obtain ⟨source, hsource, hmem⟩ :=
      (enables_iff checked moves (known_of_get? known hloci)).1 henabled
    obtain ⟨g', h, -⟩ :=
      exists_simplifyGate (GateInfo.mem_allLoci_iff.2 ⟨name, loci, hloci, hsource⟩) hmem
    exact ⟨g', h⟩

/-- Overrides that are calibrated stay so: the locus of one that is kept has no resonator. -/
theorem overridesCalibrated_of_leaves (left : a.Leaves g g') (h : g.OverridesCalibrated) :
    g'.OverridesCalibrated := by
  intro locus name hoverride
  obtain ⟨hbefore, hfree⟩ := (left.overrides locus name).1 hoverride
  obtain ⟨loci, hloci, hmem⟩ := h locus name hbefore
  have hflat := flattens_sortLoci checked moves (known_of_get? known hloci)
  have hkept := (hflat.mem_iff locus).2 (Or.inl ⟨hmem, hfree⟩)
  exact ⟨_, (left.implementations _ _).2 ⟨loci, hloci, hflat, List.ne_nil_of_mem hkept⟩, hkept⟩

end Gate

/-! ### The whole architecture -/

namespace DynamicArchitecture

/-- `s` is the view of `a` without its resonators. -/
structure IsViewOf (s a : DynamicArchitecture) : Prop where
  qubits_eq : s.qubits = a.qubits
  resonators_eq : s.resonators = []
  /-- What an implementation enables can be listed. -/
  flattens : ∀ gate g name loci, a.gates.get? gate = some g →
    g.implementations.get? name = some loci → ∃ loci', a.Flattens loci loci'
  /-- A gate other than MOVE is kept if one of its implementations enables something. -/
  kept_iff : ∀ gate, (∃ g', s.gates.get? gate = some g') ↔ gate ≠ "move" ∧
    ∃ g name loci locus, a.gates.get? gate = some g ∧
      g.implementations.get? name = some loci ∧ a.Enables loci locus
  leaves : ∀ gate g', s.gates.get? gate = some g' →
    ∃ g, a.gates.get? gate = some g ∧ a.Leaves g g' ∧
      (g.OverridesCalibrated → g'.OverridesCalibrated)

theorem resonators_simplified (a : DynamicArchitecture) :
    (simplifiedArchitecture a).resonators = [] := by
  by_cases hnone : a.resonators = []
  · rw [simplifiedArchitecture_of_no_resonators hnone, hnone]
  · rw [simplifiedArchitecture, if_neg (by simp [hnone])]

theorem qubits_simplified (a : DynamicArchitecture) :
    (simplifiedArchitecture a).qubits = a.qubits := by
  rw [simplifiedArchitecture]
  split <;> rfl

theorem get?_gates_simplified_eq_some_iff (hsome : a.resonators ≠ []) :
    (simplifiedArchitecture a).gates.get? gate = some g' ↔ gate ≠ "move" ∧
      ∃ g, a.gates.get? gate = some g ∧ simplifyGate a (.ofArchitecture a) g = some g' := by
  rw [get?_gates_simplified hsome, Option.bind_eq_some_iff]
  by_cases hmove : gate = "move" <;> simp [hmove]

/-- A gate that is enabled acts on qubits. -/
theorem isQubit_of_enables (known : ∀ locus ∈ loci, ∀ c ∈ locus, a.hasComponent c = true)
    (h : a.Enables loci locus) (hc : c ∈ locus) : a.isQubit c = true := by
  rcases h with ⟨hmem, hfree⟩ | ⟨p, q, r, rfl, -, hp, hq, -, -⟩
  · exact isQubit_of_hasComponent (known locus hmem c hc) (hfree c hc)
  · rcases List.mem_pair.1 hc with rfl | rfl
    · exact hp
    · exact hq

section Checked

variable (checked : a.check = .ok ())
include checked

theorem known_of_gate (hg : a.gates.get? gate = some g) :
    ∀ locus ∈ g.allLoci, ∀ c ∈ locus, a.hasComponent c = true :=
  fun _ hlocus _ hc => hasComponent_of_calibrated checked (mem_calibrated_iff.2 ⟨g, hg, hlocus⟩) hc

variable (moves : a.MovesIntoResonators)
include moves

theorem isViewOf_simplified (hsome : a.resonators ≠ []) :
    (simplifiedArchitecture a).IsViewOf a where
  qubits_eq := qubits_simplified a
  resonators_eq := resonators_simplified a
  flattens := fun _ _ _ _ hg hloci =>
    ⟨_, flattens_sortLoci checked moves (known_of_get? (known_of_gate checked hg) hloci)⟩
  kept_iff := by
    intro gate
    simp only [get?_gates_simplified_eq_some_iff hsome]
    constructor
    · rintro ⟨g', hmove, g, hg, hsimplified⟩
      obtain ⟨name, loci, locus, hloci, henabled⟩ := (exists_simplifyGate_iff checked moves
        (known_of_gate checked hg)).1 ⟨g', hsimplified⟩
      exact ⟨hmove, g, name, loci, locus, hg, hloci, henabled⟩
    · rintro ⟨hmove, g, name, loci, locus, hg, hloci, henabled⟩
      obtain ⟨g', hsimplified⟩ := (exists_simplifyGate_iff checked moves
        (known_of_gate checked hg)).2 ⟨name, loci, locus, hloci, henabled⟩
      exact ⟨g', hmove, g, hg, hsimplified⟩
  leaves := by
    intro gate g' hg'
    obtain ⟨-, g, hg, hsimplified⟩ := (get?_gates_simplified_eq_some_iff hsome).1 hg'
    have left := leaves_of_simplifyGate checked moves (known_of_gate checked hg) hsimplified
    exact ⟨g, hg, left, overridesCalibrated_of_leaves checked moves (known_of_gate checked hg) left⟩

theorem check_simplified (hsome : a.resonators ≠ []) :
    (simplifiedArchitecture a).check = .ok () := by
  have view := isViewOf_simplified checked moves hsome
  have hfree : ∀ c, (simplifiedArchitecture a).isResonator c = false := by
    intro c
    rw [isResonator, view.resonators_eq]
    rfl
  refine check_eq_ok_iff.2 ⟨fun q _ => hfree q, ?_⟩
  intro gate locus hlocus c hc
  obtain ⟨g', hg', hmem⟩ := mem_calibrated_iff.1 hlocus
  obtain ⟨g, hg, left, -⟩ := view.leaves gate g' hg'
  obtain ⟨name, loci', hloci', hmem⟩ := GateInfo.mem_allLoci_iff.1 hmem
  obtain ⟨loci, hloci, hflat, -⟩ := (left.implementations _ _).1 hloci'
  refine hasComponent_of_isQubit ?_
  rw [isQubit_simplified]
  exact isQubit_of_enables (known_of_get? (known_of_gate checked hg) hloci)
    ((hflat.mem_iff locus).1 hmem) hc

/-- **The simplified architecture** is the view without resonators; it passes the check, and
simplifying it again changes nothing. -/
theorem simplified_isViewOf (hsome : a.resonators ≠ []) :
    (simplifiedArchitecture a).IsViewOf a ∧ (simplifiedArchitecture a).check = .ok () ∧
      simplifiedArchitecture (simplifiedArchitecture a) = simplifiedArchitecture a :=
  ⟨isViewOf_simplified checked moves hsome, check_simplified checked moves hsome,
    simplifiedArchitecture_of_no_resonators (resonators_simplified a)⟩

end Checked

/-- A processor of which much is lost without its resonators: an implementation on three components,
a gate on the resonator alone, and one of two overrides. -/
def halfView : DynamicArchitecture :=
  ((DynamicArchitecture.mk .nil ["Q1", "Q2", "Q10"] ["R1"] .empty).withGate "cz"
    (((((GateInfo.new "crf").withImplementation "crf" [["Q1", "R1", "Q2"]]).withImplementation
      "tgss" [["R1", "Q1"], ["Q2", "Q1"], ["Q2", "R1"]]).withOverride
      ["Q2", "Q1"] "tgss").withOverride
      ["R1", "Q1"] "tgss")).withGate "measure" (singleGate "constant" [["R1"]]) |>.withGate "move"
    (singleGate "tgss_crf" [["Q2", "R1"], ["Q10", "R1"]])

/-- The view of it. -/
def viewOfHalf : DynamicArchitecture :=
  (DynamicArchitecture.mk .nil ["Q1", "Q2", "Q10"] [] .empty).withGate "cz"
    ((singleGate "tgss" [["Q2", "Q1"], ["Q2", "Q10"], ["Q10", "Q1"]]).withOverride
      ["Q2", "Q1"] "tgss")

theorem simplified_isViewOf_halfView : halfView.resonators ≠ [] ∧ halfView.check = .ok () ∧
    viewOfHalf.IsViewOf halfView ∧ viewOfHalf.check = .ok () ∧
      simplifiedArchitecture viewOfHalf = viewOfHalf := by
  have hview : simplifiedArchitecture halfView = viewOfHalf := by cbv
  have hmoves : halfView.moveLoci = [["Q2", "R1"], ["Q10", "R1"]] := by cbv
  have moves : halfView.MovesIntoResonators := by
    rw [MovesIntoResonators, hmoves]
    refine List.forall_mem_cons.2 ⟨?_, List.forall_mem_singleton.2 ?_⟩
    · exact ⟨"Q2", "R1", rfl, by decide, by decide⟩
    · exact ⟨"Q10", "R1", rfl, by decide, by decide⟩
  have checked : halfView.check = .ok () := by cbv
  have hsome : halfView.resonators ≠ [] := List.cons_ne_nil _ _
  refine ⟨hsome, checked, ?_⟩
  rw [← hview]
  exact simplified_isViewOf checked moves hsome

end DynamicArchitecture

end StarQpu
