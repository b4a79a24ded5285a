import StarQpu.Architecture.Simplified
import StarQpu.Proofs.Validation

/-!
# StarQpu.Proofs.Simplified

**Where simplified loci come from.** A locus of the simplified architecture stands for a calibrated
locus of the same gate and implementation: the locus itself if it uses no resonator, and otherwise a
qubit that couples to a resonator together with another one that has a MOVE to it
(`exists_of_simplified`).
-/

namespace StarQpu

variable {a : DynamicArchitecture} {b : ResonatorBank} {g g' : GateInfo} {locus locus' : Locus}
  {c p q r gate : String} {loci loci' : List Locus} {implementation : Option String}

/-! ### One locus -/

theorem simplifyLocus_of_free (hfree : ∀ c ∈ locus, a.isResonator c = false) :
    simplifyLocus a b locus = [locus] := by
  have hany : locus.any a.isResonator = false := by
    rw [List.any_eq_false]
    intro c hc
    rw [hfree c hc]
    decide
  unfold simplifyLocus
  rw [hany]
  rfl

section Pair

variable (hq : a.isResonator q = false) (hr : a.isResonator r = true)
include hq hr

theorem simplifyLocus_qubit_resonator : simplifyLocus a b [q, r] =
    ((b.qubitsOf r).filter (· ≠ q)).map fun p => [q, p] := by
  simp [simplifyLocus, hq, hr]

theorem simplifyLocus_resonator_qubit : simplifyLocus a b [r, q] =
    ((b.qubitsOf r).filter (· ≠ q)).map fun p => [p, q] := by
  simp [simplifyLocus, hq, hr]

/-- A qubit and a resonator stand for the qubit and each other one with a MOVE to the resonator. -/
theorem mem_simplifyLocus_pair (hpair : locus = [q, r] ∨ locus = [r, q])
    (h : locus' ∈ simplifyLocus a b locus) : ∃ p ∈ b.qubitsOf r, p ≠ q ∧ locus'.Perm [q, p] := by
  rcases hpair with rfl | rfl
  · rw [simplifyLocus_qubit_resonator hq hr, List.mem_map] at h
    obtain ⟨p, hp, rfl⟩ := h
    rw [List.mem_filter, decide_eq_true_eq] at hp
    exact ⟨p, hp.1, hp.2, List.Perm.refl _⟩
  · rw [simplifyLocus_resonator_qubit hq hr, List.mem_map] at h
    obtain ⟨p, hp, rfl⟩ := h
    rw [List.mem_filter, decide_eq_true_eq] at hp
    exact ⟨p, hp.1, hp.2, List.Perm.swap _ _ []⟩

theorem exists_mem_simplifyLocus_pair (hpair : locus = [q, r] ∨ locus = [r, q])
    (hp : p ∈ b.qubitsOf r) (hne : p ≠ q) :
    ∃ locus' ∈ simplifyLocus a b locus, locus'.Perm [q, p] := by
  have hother : p ∈ (b.qubitsOf r).filter (· ≠ q) :=
    List.mem_filter.2 ⟨hp, decide_eq_true hne⟩
  rcases hpair with rfl | rfl
  · rw [simplifyLocus_qubit_resonator hq hr]
    exact ⟨[q, p], List.mem_map.2 ⟨p, hother, rfl⟩, List.Perm.refl _⟩
  · rw [simplifyLocus_resonator_qubit hq hr]
    exact ⟨[p, q], List.mem_map.2 ⟨p, hother, rfl⟩, List.Perm.swap _ _ []⟩

end Pair

/-- What a calibrated locus stands for: itself if there is no resonator in it, and otherwise a pair
in which another qubit with a MOVE to the only resonator has taken its place. -/
theorem mem_simplifyLocus_iff : locus' ∈ simplifyLocus a b locus ↔
    (∀ c ∈ locus, a.isResonator c = false) ∧ locus' = locus ∨
      ∃ q r p, a.isResonator q = false ∧ a.isResonator r = true ∧ p ∈ b.qubitsOf r ∧ p ≠ q ∧
        (locus = [q, r] ∧ locus' = [q, p] ∨ locus = [r, q] ∧ locus' = [p, q]) := by
  by_cases hfree : ∀ c ∈ locus, a.isResonator c = false
  · rw [simplifyLocus_of_free hfree, List.mem_singleton, or_iff_left]
    · exact (and_iff_right hfree).symm
    · rintro ⟨q, r, p, -, hr, -, -, ⟨rfl, -⟩ | ⟨rfl, -⟩⟩
      · simp [hfree r (List.mem_cons_of_mem _ List.mem_cons_self)] at hr
      · simp [hfree r List.mem_cons_self] at hr
  · rw [or_iff_right fun h => hfree h.1]
    constructor
    · intro h
      have hany : locus.any a.isResonator = true := by simpa using hfree
      unfold simplifyLocus at h
      rw [hany] at h
      -- only loci of two components have not disappeared
      rcases locus with _ | ⟨first, _ | ⟨second, _ | ⟨third, more⟩⟩⟩
      · simp at h
      · simp at h
      · cases hsecond : a.isResonator second with
        | true =>
            obtain ⟨hfirst, p, ⟨hp, hne⟩, rfl⟩ : a.isResonator first = false ∧
                ∃ p, (p ∈ b.qubitsOf second ∧ p ≠ first) ∧ [first, p] = locus' := by
              simpa [hsecond] using h
            exact ⟨first, second, p, hfirst, hsecond, hp, hne, Or.inl ⟨rfl, rfl⟩⟩
        | false =>
            have hfirst : a.isResonator first = true := by simpa [hsecond] using hany
            obtain ⟨p, ⟨hp, hne⟩, rfl⟩ : ∃ p, (p ∈ b.qubitsOf first ∧ p ≠ second) ∧
                [p, second] = locus' := by simpa [hsecond] using h
            exact ⟨second, first, p, hsecond, hfirst, hp, hne, Or.inr ⟨rfl, rfl⟩⟩
      · simp at h
    · rintro ⟨q, r, p, hq, hr, hp, hne, ⟨rfl, rfl⟩ | ⟨rfl, rfl⟩⟩
      · rw [simplifyLocus_qubit_resonator hq hr]
        exact List.mem_map.2 ⟨p, List.mem_filter.2 ⟨hp, decide_eq_true hne⟩, rfl⟩
      · rw [simplifyLocus_resonator_qubit hq hr]
        exact List.mem_map.2 ⟨p, List.mem_filter.2 ⟨hp, decide_eq_true hne⟩, rfl⟩

/-! ### Whole gates -/

theorem simplifyLoci_eq_some_iff : simplifyLoci a b loci = some loci' ↔
    sortLoci (loci.flatMap (simplifyLocus a b)) = loci' ∧ loci' ≠ [] := by
  rw [simplifyLoci]
  cases hsorted : sortLoci (loci.flatMap (simplifyLocus a b)) with
  | nil => simp +contextual [eq_comm]
  | cons first rest =>
      rw [Option.some.injEq]
      constructor
      · rintro rfl
        exact ⟨rfl, List.cons_ne_nil _ _⟩
      · intro h
        exact h.1

theorem mem_sortLoci_flatMap : locus' ∈ sortLoci (loci.flatMap (simplifyLocus a b)) ↔
    ∃ locus ∈ loci, locus' ∈ simplifyLocus a b locus := by
  rw [mem_sortLoci, List.mem_flatMap]

theorem exists_of_simplifyLoci (h : simplifyLoci a b loci = some loci') (hmem : locus' ∈ loci') :
    ∃ locus ∈ loci, locus' ∈ simplifyLocus a b locus := by
  obtain ⟨rfl, -⟩ := simplifyLoci_eq_some_iff.1 h
  exact mem_sortLoci_flatMap.1 hmem

theorem implementations_simplifyGate (h : simplifyGate a b g = some g') :
    g'.implementations = g.implementations.filterMap fun _ loci => simplifyLoci a b loci := by
  dsimp only [simplifyGate] at h
  split at h
  next => simp at h
  next => rw [← Option.some.inj h]

/-- Each locus of an implementation is there for one that the implementation had before. -/
theorem exists_of_simplifyGate (h : simplifyGate a b g = some g') {name : String}
    (hloci : g'.implementations.get? name = some loci') :
    ∃ loci, g.implementations.get? name = some loci ∧
      ∀ locus' ∈ loci', ∃ locus ∈ loci, locus' ∈ simplifyLocus a b locus := by
  rw [implementations_simplifyGate h, Table.get?_filterMap, Option.bind_eq_some_iff] at hloci
  obtain ⟨loci, hget, hsimplified⟩ := hloci
  exact ⟨loci, hget, fun locus' hlocus' => exists_of_simplifyLoci hsimplified hlocus'⟩

theorem exists_lociFor?_of_simplifyGate (h : simplifyGate a b g = some g')
    (hloci : g'.lociFor? implementation = some loci') :
    ∃ loci, g.lociFor? implementation = some loci ∧
      ∀ locus' ∈ loci', ∃ locus ∈ loci, locus' ∈ simplifyLocus a b locus := by
  cases implementation with
  | some name => exact exists_of_simplifyGate h hloci
  | none =>
      refine ⟨g.allLoci, rfl, fun locus' hlocus' => ?_⟩
      rw [← Option.some.inj hloci] at hlocus'
      obtain ⟨name, found, hfound, hmem⟩ := GateInfo.mem_allLoci_iff.1 hlocus'
      obtain ⟨loci, hget, hall⟩ := exists_of_simplifyGate h hfound
      obtain ⟨locus, hlocus, hsource⟩ := hall locus' hmem
      exact ⟨locus, GateInfo.mem_allLoci_iff.2 ⟨name, loci, hget, hlocus⟩, hsource⟩

theorem get?_gates_simplified (hsome : a.resonators ≠ []) :
    (simplifiedArchitecture a).gates.get? gate = (a.gates.get? gate).bind fun g =>
      if gate = "move" then none else simplifyGate a (.ofArchitecture a) g := by
  have hnot : ¬ a.resonators.isEmpty = true := by simp [hsome]
  rw [simplifiedArchitecture, if_neg hnot]
  exact Table.get?_filterMap _ _ _

theorem simplifiedArchitecture_of_no_resonators (hnone : a.resonators = []) :
    simplifiedArchitecture a = a := by
  rw [simplifiedArchitecture, if_pos (List.isEmpty_iff.2 hnone)]

/-- **Every simplified locus stands for a calibrated one** of the same gate and implementation. -/
theorem exists_of_simplified
    (h : calibratedLoci (simplifiedArchitecture a) gate implementation = .ok loci') :
    ∃ loci, calibratedLoci a gate implementation = .ok loci ∧
      ∀ locus' ∈ loci', ∃ locus ∈ loci, locus' ∈ simplifyLocus a (.ofArchitecture a) locus := by
  -- without resonators nothing is simplified
  by_cases hnone : a.resonators = []
  · rw [simplifiedArchitecture_of_no_resonators hnone] at h
    refine ⟨loci', h, fun locus hlocus => ⟨locus, hlocus, ?_⟩⟩
    have hfree : ∀ c ∈ locus, a.isResonator c = false := by
      intro c _
      rw [DynamicArchitecture.isResonator, hnone]
      rfl
    rw [simplifyLocus_of_free hfree]
    exact List.mem_cons_self
  · obtain ⟨g', hg', hloci'⟩ := calibratedLoci_eq_ok_iff.1 h
    rw [get?_gates_simplified hnone, Option.bind_eq_some_iff] at hg'
    obtain ⟨g, hg, hsimplified⟩ := hg'
    by_cases hmove : gate = "move"
    · -- there are no MOVEs in the simplified view
      rw [if_pos hmove] at hsimplified
      simp at hsimplified
    · rw [if_neg hmove] at hsimplified
      obtain ⟨loci, hloci, hall⟩ := exists_lociFor?_of_simplifyGate hsimplified hloci'
      exact ⟨loci, calibratedLoci_eq_ok_iff.2 ⟨g, hg, hloci⟩, hall⟩

/-! ### What is left of a gate -/

theorem exists_simplifyLoci (hlocus : locus ∈ loci) (h : locus' ∈ simplifyLocus a b locus) :
    ∃ loci', simplifyLoci a b loci = some loci' ∧ locus' ∈ loci' := by
  have hmem : locus' ∈ sortLoci (loci.flatMap (simplifyLocus a b)) :=
    mem_sortLoci_flatMap.2 ⟨locus, hlocus, h⟩
  exact ⟨_, simplifyLoci_eq_some_iff.2 ⟨rfl, List.ne_nil_of_mem hmem⟩, hmem⟩

/-- A gate of which a locus is left is left. -/
theorem exists_simplifyGate (hlocus : locus ∈ g.allLoci) (h : locus' ∈ simplifyLocus a b locus) :
    ∃ g', simplifyGate a b g = some g' ∧ locus' ∈ g'.allLoci := by
  obtain ⟨name, loci, hloci, hmem⟩ := GateInfo.mem_allLoci_iff.1 hlocus
  obtain ⟨loci', hloci', hmem'⟩ := exists_simplifyLoci hmem h
  have hleft : (g.implementations.filterMap fun _ loci => simplifyLoci a b loci).get? name =
      some loci' := by
    rw [Table.get?_filterMap, hloci]
    exact hloci'
  cases hgate : simplifyGate a b g with
  | none =>
      -- the implementation of the locus would have to be missing
      dsimp only [simplifyGate] at hgate
      split at hgate
      next hkeys =>
        have hkey := Table.mem_keys_of_get? hleft
        rw [hkeys] at hkey
        exact absurd hkey List.not_mem_nil
      next => simp at hgate
  | some g' =>
      refine ⟨g', rfl, GateInfo.mem_allLoci_iff.2 ⟨name, loci', ?_, hmem'⟩⟩
      rw [implementations_simplifyGate hgate, hleft]

/-- **What a calibrated locus stands for is calibrated** in the simplified architecture. -/
theorem mem_calibrated_simplified (hmove : gate ≠ "move") (hlocus : locus ∈ a.calibrated gate)
    (h : locus' ∈ simplifyLocus a (.ofArchitecture a) locus) :
    locus' ∈ (simplifiedArchitecture a).calibrated gate := by
  by_cases hnone : a.resonators = []
  · have hfree : ∀ c ∈ locus, a.isResonator c = false := by
      intro c _
      rw [DynamicArchitecture.isResonator, hnone]
      rfl
    rw [simplifyLocus_of_free hfree, List.mem_singleton] at h
    rw [simplifiedArchitecture_of_no_resonators hnone, h]
    exact hlocus
  · obtain ⟨g, hg, hmem⟩ := DynamicArchitecture.mem_calibrated_iff.1 hlocus
    obtain ⟨g', hg', hmem'⟩ := exists_simplifyGate hmem h
    refine DynamicArchitecture.mem_calibrated_iff.2 ⟨g', ?_, hmem'⟩
    rw [get?_gates_simplified hnone, hg, Option.bind_some, if_neg hmove, hg']

theorem mem_calibrated_simplified_iff (hmove : gate ≠ "move") :
    locus' ∈ (simplifiedArchitecture a).calibrated gate ↔
      ∃ locus ∈ a.calibrated gate, locus' ∈ simplifyLocus a (.ofArchitecture a) locus := by
  constructor
  · intro h
    obtain ⟨loci', hloci', hmem⟩ := calibratedLoci_none_of_mem h
    obtain ⟨loci, hloci, hall⟩ := exists_of_simplified hloci'
    obtain ⟨locus, hlocus, hsource⟩ := hall locus' hmem
    exact ⟨locus, mem_calibrated_of_calibratedLoci hloci hlocus, hsource⟩
  · rintro ⟨locus, hlocus, h⟩
    exact mem_calibrated_simplified hmove hlocus h

/-! ### Components -/

theorem isQubit_simplified : (simplifiedArchitecture a).isQubit c = a.isQubit c := by
  rw [simplifiedArchitecture]
  split <;> rfl

theorem hasComponent_simplified (hc : (simplifiedArchitecture a).hasComponent c = true) :
    a.isQubit c = true := by
  rw [DynamicArchitecture.hasComponent, isQubit_simplified, Bool.or_eq_true] at hc
  rcases hc with hc | hc
  · exact hc
  · by_cases hnone : a.resonators = []
    · rw [simplifiedArchitecture_of_no_resonators hnone, DynamicArchitecture.isResonator,
        hnone] at hc
      simp at hc
    · have hnot : ¬ a.resonators.isEmpty = true := by simp [hnone]
      rw [simplifiedArchitecture, if_neg hnot] at hc
      simp [DynamicArchitecture.isResonator] at hc

end StarQpu
