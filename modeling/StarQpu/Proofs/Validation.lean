import StarQpu.Proofs.Mapping
import StarQpu.Proofs.Result
import StarQpu.Validation.Basic

/-!
# StarQpu.Proofs.Validation

**When an instruction is accepted.** Acceptance depends on the physical locus alone: a mapping only
leads to it (`validateInstruction_eq_ok_iff`). So validation is described by `permits`, a test of
the architecture, the operation, the implementation asked for and the physical locus. More
calibrated loci never forbid a locus (`locusPermitted_mono`), and for controlled-Z gates and MOVEs
the test is a membership in the calibrated loci.
-/

namespace StarQpu

variable {a : DynamicArchitecture} {i : Instruction} {m : QubitMapping} {locus : Locus}
  {q r p : String}

/-! ### The physical locus -/

@[simp] theorem mapLocus_none (locus : Locus) : mapLocus none locus = .ok locus := by
  induction locus with
  | nil => rfl
  | cons q qs ih =>
      rw [mapLocus, ih]
      rfl

theorem mapLocus_some_eq_ok_iff {physical : Locus} : mapLocus (some m) locus = .ok physical ↔
    (∀ q ∈ locus, m.contains q = true) ∧ physical = locus.map (renamed m) := by
  induction locus generalizing physical with
  | nil =>
      rw [mapLocus, Except.ok.injEq, List.map_nil]
      constructor
      · intro h
        exact ⟨fun q hq => absurd hq List.not_mem_nil, h.symm⟩
      · intro h
        exact h.2.symm
  | cons q qs ih =>
      rw [mapLocus, List.forall_mem_cons, List.map_cons, Table.contains_iff]
      cases hget : m.get? q with
      | none => simp [bind, Except.bind, throw, throwThe, MonadExceptOf.throw]
      | some d =>
          rw [renamed_of_get? hget]
          simp only [pure_bind, do_eq_ok_iff, ih]
          constructor
          · intro h
            obtain ⟨rest, ⟨hall, rfl⟩, hlast⟩ := h
            exact ⟨⟨⟨d, rfl⟩, hall⟩, (Except.ok.inj hlast).symm⟩
          · intro h
            obtain ⟨⟨-, hall⟩, rfl⟩ := h
            exact ⟨_, ⟨hall, rfl⟩, rfl⟩

/-! ### The test on it -/

/-- Can the instruction run on the physical locus? -/
def DynamicArchitecture.permits (a : DynamicArchitecture) (i : Instruction) (locus : Locus) :
    Bool :=
  if i.action.operation.locusCheck = .skip then locus.all a.hasComponent
  else
    match calibratedLoci a i.name i.implementation with
    | .ok loci => locusPermitted i.action.operation loci locus
    | .error _ => false

/-- The test looks at the locus that it is given, not at the one of the instruction. -/
@[simp] theorem DynamicArchitecture.permits_mapQubits (f : String → String) (locus : Locus) :
    a.permits (i.mapQubits f) locus = a.permits i locus := by
  simp [permits, Instruction.mapQubits, Instruction.name]

theorem missingComponent?_eq_none_iff {logical physical : Locus}
    (hlength : logical.length = physical.length) :
    missingComponent? a logical physical = none ↔ physical.all a.hasComponent = true := by
  rw [missingComponent?, List.find?_eq_none, List.all_eq_true]
  constructor
  · intro h c hc
    have hmem : c ∈ (logical.zip physical).map Prod.snd := by
      rw [List.map_snd_zip (Nat.le_of_eq hlength.symm)]
      exact hc
    obtain ⟨e, he, rfl⟩ := List.mem_map.1 hmem
    simpa using h e he
  · intro h e he
    have hc := h e.2 (List.of_mem_zip he).2
    simpa using hc

theorem validateInstruction_eq_ok_iff {mapping : Option QubitMapping} :
    validateInstruction a i mapping = .ok () ↔
      ∃ locus, mapLocus mapping i.qubits = .ok locus ∧ a.permits i locus = true := by
  rw [validateInstruction]
  cases hmap : mapLocus mapping i.qubits with
  | error v => simp [bind, Except.bind]
  | ok locus =>
      have hlength : i.qubits.length = locus.length := by
        cases mapping with
        | none =>
            rw [mapLocus_none, Except.ok.injEq] at hmap
            rw [hmap]
        | some m => rw [(mapLocus_some_eq_ok_iff.1 hmap).2, List.length_map]
      simp only [bind, Except.bind, Except.ok.injEq, exists_eq_left', DynamicArchitecture.permits]
      by_cases hskip : i.action.operation.locusCheck = .skip
      · rw [if_pos hskip, if_pos hskip, ← missingComponent?_eq_none_iff hlength]
        cases missingComponent? a i.qubits locus with
        | none => simp [pure, Except.pure]
        | some missing => simp [throw, throwThe, MonadExceptOf.throw]
      · rw [if_neg hskip, if_neg hskip]
        cases calibratedLoci a i.name i.implementation with
        | error v => simp
        | ok loci =>
            by_cases hpermitted : locusPermitted i.action.operation loci locus = true
            · simp [hpermitted, pure, Except.pure]
            · simp [hpermitted, throw, throwThe, MonadExceptOf.throw]

theorem validateInstruction_none_eq_ok_iff :
    validateInstruction a i none = .ok () ↔ a.permits i i.qubits = true := by
  rw [validateInstruction_eq_ok_iff, mapLocus_none]
  simp only [Except.ok.injEq, exists_eq_left']

theorem validateInstruction_some_eq_ok_iff :
    validateInstruction a i (some m) = .ok () ↔ (∀ q ∈ i.qubits, m.contains q = true) ∧
      a.permits i (i.qubits.map (renamed m)) = true := by
  rw [validateInstruction_eq_ok_iff]
  constructor
  · intro h
    obtain ⟨locus, hmap, hpermits⟩ := h
    obtain ⟨hall, rfl⟩ := mapLocus_some_eq_ok_iff.1 hmap
    exact ⟨hall, hpermits⟩
  · intro h
    exact ⟨_, mapLocus_some_eq_ok_iff.2 ⟨h.1, rfl⟩, h.2⟩

/-! ### Calibrated loci -/

/-- The loci of the implementation asked for, or all of them if none is. -/
def GateInfo.lociFor? (g : GateInfo) : Option String → Option (List Locus)
  | none => some g.allLoci
  | some name => g.implementations.get? name

section Gates

variable {gate : String} {implementation : Option String} {loci : List Locus}

theorem calibratedLoci_eq_ok_iff : calibratedLoci a gate implementation = .ok loci ↔
    ∃ g, a.gates.get? gate = some g ∧ g.lociFor? implementation = some loci := by
  rw [calibratedLoci]
  cases a.gates.get? gate with
  | none => simp
  | some g =>
      cases implementation with
      | none => simp [GateInfo.lociFor?]
      | some name =>
          simp only [GateInfo.lociFor?, Option.some.injEq, exists_eq_left']
          cases g.implementations.get? name with
          | none => simp
          | some found => simp

theorem GateInfo.mem_allLoci_of_lociFor? {g : GateInfo} (h : g.lociFor? implementation = some loci)
    (hmem : locus ∈ loci) : locus ∈ g.allLoci := by
  cases implementation with
  | none =>
      rw [Option.some.inj h]
      exact hmem
  | some name => exact GateInfo.mem_allLoci_iff.2 ⟨name, loci, h, hmem⟩

theorem mem_calibrated_of_calibratedLoci (h : calibratedLoci a gate implementation = .ok loci)
    (hmem : locus ∈ loci) : locus ∈ a.calibrated gate := by
  obtain ⟨g, hg, hloci⟩ := calibratedLoci_eq_ok_iff.1 h
  exact DynamicArchitecture.mem_calibrated_iff.2
    ⟨g, hg, GateInfo.mem_allLoci_of_lociFor? hloci hmem⟩

/-- All calibrated loci are allowed for an instruction that asks for no implementation. -/
theorem calibratedLoci_none_of_mem (hmem : locus ∈ a.calibrated gate) :
    ∃ loci, calibratedLoci a gate none = .ok loci ∧ locus ∈ loci := by
  obtain ⟨g, hg, hall⟩ := DynamicArchitecture.mem_calibrated_iff.1 hmem
  exact ⟨g.allLoci, calibratedLoci_eq_ok_iff.2 ⟨g, hg, rfl⟩, hall⟩

end Gates

/-- More calibrated loci never forbid a locus. -/
theorem locusPermitted_mono {op : Operation} {loci others : List Locus}
    (hsub : ∀ locus ∈ loci, locus ∈ others) (h : locusPermitted op loci locus = true) :
    locusPermitted op others locus = true := by
  have hany : ∀ test : Locus → Bool, loci.any test = true → others.any test = true := by
    intro test htest
    obtain ⟨other, hother, hpasses⟩ := List.any_eq_true.1 htest
    exact List.any_eq_true.2 ⟨other, hsub other hother, hpasses⟩
  -- both ways of checking a locus look for calibrated ones that pass a test
  unfold locusPermitted at h ⊢
  split at h
  next =>
      rw [List.all_eq_true] at h ⊢
      intro c hc
      exact hany _ (h c hc)
  next =>
      by_cases hdirected : op.directed = true
      · rw [if_pos hdirected, List.contains_iff_mem] at h ⊢
        exact hsub locus h
      · rw [if_neg hdirected] at h ⊢
        exact hany _ h

/-- A component of a locus that is allowed is part of a calibrated one. -/
theorem exists_of_locusPermitted {op : Operation} {loci : List Locus} {c : String}
    (h : locusPermitted op loci locus = true) (hc : c ∈ locus) : ∃ other ∈ loci, c ∈ other := by
  unfold locusPermitted at h
  split at h
  next =>
      obtain ⟨other, hother, hmem⟩ := List.any_eq_true.1 (List.all_eq_true.1 h c hc)
      exact ⟨other, hother, List.contains_iff_mem.1 hmem⟩
  next =>
      by_cases hdirected : op.directed = true
      · rw [if_pos hdirected, List.contains_iff_mem] at h
        exact ⟨locus, h, hc⟩
      · rw [if_neg hdirected] at h
        obtain ⟨other, hother, hsorted⟩ := List.any_eq_true.1 h
        rw [beq_iff_eq, sortNames_eq_iff] at hsorted
        exact ⟨other, hother, hsorted.mem_iff.2 hc⟩

theorem permits_iff_of_not_skip (hcheck : i.action.operation.locusCheck ≠ .skip) :
    a.permits i locus = true ↔ ∃ loci, calibratedLoci a i.name i.implementation = .ok loci ∧
      locusPermitted i.action.operation loci locus = true := by
  rw [DynamicArchitecture.permits, if_neg hcheck]
  cases calibratedLoci a i.name i.implementation with
  | error v => simp
  | ok loci => simp

/-- Whatever is accepted acts on components that exist. -/
theorem hasComponent_of_permits (checked : a.check = .ok ()) (h : a.permits i locus = true) :
    ∀ c ∈ locus, a.hasComponent c = true := by
  intro c hc
  by_cases hskip : i.action.operation.locusCheck = .skip
  · rw [DynamicArchitecture.permits, if_pos hskip, List.all_eq_true] at h
    exact h c hc
  · obtain ⟨loci, hloci, hpermitted⟩ := (permits_iff_of_not_skip hskip).1 h
    obtain ⟨other, hother, hmem⟩ := exists_of_locusPermitted hpermitted hc
    exact DynamicArchitecture.hasComponent_of_calibrated checked
      (mem_calibrated_of_calibratedLoci hloci hother) hmem

/-! ### Controlled-Z gates and MOVEs -/

theorem locusPermitted_cz_iff {loci : List Locus} : locusPermitted .cz loci locus = true ↔
    ∃ other ∈ loci, other.Perm locus := by
  simp only [locusPermitted, Operation.cz, Bool.false_eq_true, if_false, List.any_eq_true,
    beq_iff_eq, sortNames_eq_iff]

theorem locusPermitted_move_iff {loci : List Locus} :
    locusPermitted .move loci locus = true ↔ locus ∈ loci := by
  simp only [locusPermitted, Operation.move, if_true, List.contains_iff_mem]

theorem permits_cz (implementation : Option String) :
    a.permits ⟨.cz p q, implementation⟩ locus =
      match calibratedLoci a "cz" implementation with
      | .ok loci => locusPermitted .cz loci locus
      | .error _ => false := rfl

theorem permits_move (implementation : Option String) :
    a.permits ⟨.move q r, implementation⟩ locus =
      match calibratedLoci a "move" implementation with
      | .ok loci => locusPermitted .move loci locus
      | .error _ => false := rfl

/-- A barrier needs nothing but components that exist. -/
theorem permits_barrier (qubits : Locus) :
    a.permits (.barrier qubits) locus = locus.all a.hasComponent := rfl

/-- A controlled-Z that is accepted is calibrated, in one direction or the other. -/
theorem calibrated_of_permits_cz (hcz : i.isCz = true) (h : a.permits i locus = true) :
    ∃ other ∈ a.calibrated "cz", other.Perm locus := by
  obtain ⟨action, implementation⟩ := i
  cases action with
  | cz first second =>
      rw [permits_cz] at h
      cases hloci : calibratedLoci a "cz" implementation with
      | error v =>
          rw [hloci] at h
          simp at h
      | ok loci =>
          rw [hloci] at h
          obtain ⟨other, hother, hperm⟩ := locusPermitted_cz_iff.1 h
          exact ⟨other, mem_calibrated_of_calibratedLoci hloci hother, hperm⟩
  | _ => simp [Instruction.isCz] at hcz

/-- A controlled-Z that asks for no implementation is accepted on every calibrated locus. -/
theorem permits_cz_of_calibrated (p q : String) {other : Locus}
    (hother : other ∈ a.calibrated "cz") (hperm : other.Perm locus) :
    a.permits (.cz p q) locus = true := by
  obtain ⟨loci, hloci, hmem⟩ := calibratedLoci_none_of_mem hother
  rw [Instruction.cz, permits_cz, hloci]
  exact locusPermitted_cz_iff.2 ⟨other, hmem, hperm⟩

/-- A MOVE that is accepted is calibrated. -/
theorem calibrated_of_permits_move (hmove : i.action = .move q r)
    (h : a.permits i i.qubits = true) : [q, r] ∈ a.calibrated "move" := by
  obtain ⟨action, implementation⟩ := i
  obtain rfl : action = .move q r := hmove
  rw [permits_move] at h
  cases hloci : calibratedLoci a "move" implementation with
  | error v =>
      rw [hloci] at h
      exact absurd h Bool.false_ne_true
  | ok loci =>
      rw [hloci] at h
      exact mem_calibrated_of_calibratedLoci hloci (locusPermitted_move_iff.1 h)

/-- A MOVE that asks for no implementation is accepted on every calibrated locus. -/
theorem permits_move_of_calibrated (q r : String) (hlocus : locus ∈ a.calibrated "move") :
    a.permits (.move q r) locus = true := by
  obtain ⟨loci, hloci, hmem⟩ := calibratedLoci_none_of_mem hlocus
  rw [Instruction.move, permits_move, hloci]
  exact locusPermitted_move_iff.2 hmem

end StarQpu
