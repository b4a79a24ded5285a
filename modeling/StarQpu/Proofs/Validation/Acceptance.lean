import StarQpu.Proofs.Architecture.Comparison
import StarQpu.Proofs.Instruction
import StarQpu.Proofs.Validation

/-!
# StarQpu.Proofs.Validation.Acceptance

**Which instructions are accepted together.** An instruction that was built and another one on other
components, or for another implementation, differ for the check only in the physical locus and in
the calibrated loci that it is compared with (`accepts_iff`). So the laws of acceptance
(`acceptance_laws`) are laws of the three ways to check a locus: an exact one is looked for among
the loci, which may be those of one implementation after the other; without a direction the order of
the components does not count; where any combination will do each component is checked by itself;
and none of them minds further loci (`Enlarges`).
-/

namespace StarQpu

variable {a b : DynamicArchitecture} {mapping : Option QubitMapping} {name gate : String}
  {implementation asked : Option String} {qubits others locus : Locus} {args : Table String Json}
  {i : Instruction} {action : Action} {op : Operation} {loci : List Locus}

/-! ### The physical locus -/

/-- Does the name stand for a component? Without a mapping every name does, for itself. -/
def Knows (mapping : Option QubitMapping) (q : String) : Prop :=
  ∀ m, mapping = some m → m.contains q = true

/-- The component that a name stands for. -/
def physical (mapping : Option QubitMapping) : String → String := renamed (mapping.getD .empty)

theorem mapLocus_eq_ok_iff {found : Locus} : mapLocus mapping locus = .ok found ↔
    (∀ q ∈ locus, Knows mapping q) ∧ found = locus.map (physical mapping) := by
  cases mapping with
  | none =>
      have hself : locus.map (physical none) = locus :=
        (List.map_congr_left fun q _ => renamed_empty q).trans locus.map_id
      rw [mapLocus_none, Except.ok.injEq, hself]
      constructor
      · intro h
        refine ⟨fun q _ m hnone => ?_, h.symm⟩
        cases hnone
      · intro h
        exact h.2.symm
  | some m =>
      rw [mapLocus_some_eq_ok_iff]
      simp only [Knows, Option.some.injEq, forall_eq']
      rfl

/-! ### Accepted parts -/

namespace DynamicArchitecture

/-- Is there an instruction with these parts, and is it accepted? -/
def Accepts (a : DynamicArchitecture) (mapping : Option QubitMapping) (name : String)
    (implementation : Option String) (qubits : Locus) (args : Table String Json) : Prop :=
  ∃ i, Instruction.build name implementation qubits args = .ok i ∧
    validateInstruction a i mapping = .ok ()

theorem permits_congr (h : i.action.operation = action.operation) :
    a.permits i locus = a.permits ⟨action, i.implementation⟩ locus := by
  simp only [permits, Instruction.name, h]

/-- **What is accepted besides an instruction that was built**, under its name and with its
arguments. -/
theorem accepts_iff (built : Instruction.build name implementation qubits args = .ok i) :
    a.Accepts mapping name asked others args ↔ asked ≠ some "" ∧
      i.action.operation.arity.any (· ≠ others.length) = false ∧
      (∀ q ∈ others, Knows mapping q) ∧
      a.permits ⟨i.action, asked⟩ (others.map (physical mapping)) = true := by
  simp only [Accepts, Instruction.build_eq_ok_iff_of_build built, validateInstruction_eq_ok_iff,
    mapLocus_eq_ok_iff, ← Action.exists_withQubits?_iff]
  constructor
  · intro h
    obtain ⟨j, ⟨hnamed, rfl, hj⟩, _, ⟨hknown, rfl⟩, hpermits⟩ := h
    rw [Instruction.qubits, Action.qubits_of_withQubits? hj] at hknown hpermits
    rw [permits_congr (Action.operation_of_withQubits? hj)] at hpermits
    exact ⟨hnamed, ⟨j.action, hj⟩, hknown, hpermits⟩
  · intro h
    obtain ⟨hnamed, ⟨other, hother⟩, hknown, hpermits⟩ := h
    have hqubits : (⟨other, asked⟩ : Instruction).qubits = others :=
      Action.qubits_of_withQubits? hother
    refine ⟨⟨other, asked⟩, ⟨hnamed, rfl, hother⟩, _, ⟨hqubits ▸ hknown, rfl⟩, ?_⟩
    rw [hqubits, permits_congr (Action.operation_of_withQubits? hother)]
    exact hpermits

end DynamicArchitecture

/-! ### The three ways to check a locus -/

theorem locusPermitted_iff_exists (hcheck : op.locusCheck ≠ .anyCombination) :
    locusPermitted op loci locus = true ↔ ∃ other ∈ loci, SameLocus op.directed other locus := by
  unfold locusPermitted
  split
  next hany => exact absurd hany hcheck
  next =>
      cases hdirected : op.directed with
      | false =>
          simp only [Bool.false_eq_true, if_false, List.any_eq_true, beq_iff_eq, sortNames_eq_iff,
            SameLocus]
      | true =>
          simp only [if_true, List.contains_iff_mem, SameLocus, exists_eq_right]

theorem locusPermitted_iff_forall (hcheck : op.locusCheck = .anyCombination) :
    locusPermitted op loci locus = true ↔ ∀ c ∈ locus, ∃ other ∈ loci, c ∈ other := by
  simp only [locusPermitted, hcheck, List.all_eq_true, List.any_eq_true, List.contains_iff_mem]

/-- Without a direction the order of the components does not count. -/
theorem locusPermitted_of_perm (hdirected : op.directed = false) (h : locus.Perm others)
    (hpermitted : locusPermitted op loci locus = true) : locusPermitted op loci others = true := by
  by_cases hcheck : op.locusCheck = .anyCombination
  · rw [locusPermitted_iff_forall hcheck] at hpermitted ⊢
    exact fun c hc => hpermitted c (h.mem_iff.2 hc)
  · rw [locusPermitted_iff_exists hcheck, hdirected] at hpermitted ⊢
    obtain ⟨other, hother, hsame⟩ := hpermitted
    exact ⟨other, hother, List.Perm.trans hsame h⟩

namespace DynamicArchitecture

/-- Is the implementation of the gate calibrated? -/
def Calibrates (a : DynamicArchitecture) (gate implementation : String) : Prop :=
  ∃ g loci, a.gates.get? gate = some g ∧ g.implementations.get? implementation = some loci

/-- If no implementation is asked for, the locus is checked against those of all implementations,
each listed once in natural order. -/
theorem permits_none_iff (hcheck : action.operation.locusCheck ≠ .skip) :
    a.permits ⟨action, none⟩ locus = true ↔ ∃ g, a.gates.get? action.operation.name = some g ∧
      locusPermitted action.operation g.loci locus = true := by
  rw [permits_iff_of_not_skip hcheck]
  simp only [calibratedLoci_eq_ok_iff, Instruction.name]
  constructor
  · intro h
    obtain ⟨loci, ⟨g, hg, hloci⟩, hpermitted⟩ := h
    obtain rfl := Option.some.inj hloci
    exact ⟨g, hg, locusPermitted_mono (fun _ => mem_sortLoci.2) hpermitted⟩
  · intro h
    obtain ⟨g, hg, hpermitted⟩ := h
    exact ⟨g.allLoci, ⟨g, hg, rfl⟩, locusPermitted_mono (fun _ => mem_sortLoci.1) hpermitted⟩

theorem permits_some_iff (hcheck : action.operation.locusCheck ≠ .skip)
    {implementation : String} : a.permits ⟨action, some implementation⟩ locus = true ↔
      ∃ g loci, a.gates.get? action.operation.name = some g ∧
        g.implementations.get? implementation = some loci ∧
        locusPermitted action.operation loci locus = true := by
  rw [permits_iff_of_not_skip hcheck]
  simp only [calibratedLoci_eq_ok_iff, Instruction.name, GateInfo.lociFor?]
  constructor
  · intro h
    obtain ⟨loci, ⟨g, hg, hloci⟩, hpermitted⟩ := h
    exact ⟨g, loci, hg, hloci, hpermitted⟩
  · intro h
    obtain ⟨g, loci, hg, hloci, hpermitted⟩ := h
    exact ⟨loci, ⟨g, hg, hloci⟩, hpermitted⟩

/-- What one implementation is calibrated for may be asked of any. -/
theorem permits_none_of_some (hcheck : action.operation.locusCheck ≠ .skip)
    {implementation : String} (h : a.permits ⟨action, some implementation⟩ locus = true) :
    a.permits ⟨action, none⟩ locus = true := by
  obtain ⟨g, loci, hg, hloci, hpermitted⟩ := (permits_some_iff hcheck).1 h
  refine (permits_none_iff hcheck).2 ⟨g, hg, locusPermitted_mono (fun l hl => ?_) hpermitted⟩
  exact mem_sortLoci.2 (GateInfo.mem_allLoci_iff.2 ⟨implementation, loci, hloci, hl⟩)

/-- An exact locus is one of some implementation. -/
theorem exists_permits_some (hcheck : action.operation.locusCheck = .exact)
    (h : a.permits ⟨action, none⟩ locus = true) : ∃ implementation,
      a.Calibrates action.operation.name implementation ∧
      a.permits ⟨action, some implementation⟩ locus = true := by
  have hany : action.operation.locusCheck ≠ .anyCombination := by rw [hcheck]; decide
  have hskip : action.operation.locusCheck ≠ .skip := by rw [hcheck]; decide
  obtain ⟨g, hg, hpermitted⟩ := (permits_none_iff hskip).1 h
  obtain ⟨other, hother, hsame⟩ := (locusPermitted_iff_exists hany).1 hpermitted
  obtain ⟨implementation, loci, hloci, hmem⟩ := GateInfo.mem_allLoci_iff.1 (mem_sortLoci.1 hother)
  exact ⟨implementation, ⟨g, loci, hg, hloci⟩, (permits_some_iff hskip).2
    ⟨g, loci, hg, hloci, (locusPermitted_iff_exists hany).2 ⟨other, hmem, hsame⟩⟩⟩

theorem permits_of_perm (hdirected : i.action.operation.directed = false) (h : locus.Perm others)
    (hpermits : a.permits i locus = true) : a.permits i others = true := by
  by_cases hskip : i.action.operation.locusCheck = .skip
  · rw [permits, if_pos hskip, List.all_eq_true] at hpermits ⊢
    exact fun c hc => hpermits c (h.mem_iff.2 hc)
  · obtain ⟨loci, hloci, hpermitted⟩ := (permits_iff_of_not_skip hskip).1 hpermits
    exact (permits_iff_of_not_skip hskip).2
      ⟨loci, hloci, locusPermitted_of_perm hdirected h hpermitted⟩

/-- Unless the locus has to be exact, each component is checked by itself. -/
theorem permits_iff_forall (hcheck : i.action.operation.locusCheck ≠ .exact) :
    a.permits i locus = true ↔ a.permits i [] = true ∧ ∀ c ∈ locus, a.permits i [c] = true := by
  by_cases hskip : i.action.operation.locusCheck = .skip
  · simp [permits, hskip]
  · have hany : i.action.operation.locusCheck = .anyCombination := by
      cases hcase : i.action.operation.locusCheck with
      | skip => exact absurd hcase hskip
      | anyCombination => rfl
      | exact => exact absurd hcase hcheck
    simp only [permits_iff_of_not_skip hskip, locusPermitted_iff_forall hany]
    constructor
    · intro h
      obtain ⟨loci, hloci, hall⟩ := h
      exact ⟨⟨loci, hloci, by simp⟩, fun c hc => ⟨loci, hloci, by simpa using hall c hc⟩⟩
    · intro h
      obtain ⟨⟨loci, hloci, -⟩, hall⟩ := h
      refine ⟨loci, hloci, fun c hc => ?_⟩
      obtain ⟨found, hfound, hc'⟩ := hall c hc
      obtain rfl := Except.ok.inj (hloci.symm.trans hfound)
      exact hc' c List.mem_cons_self

/-! ### Larger architectures -/

/-- An architecture with all that the other one has: its components, its gates, their
implementations and the loci of these. -/
structure Enlarges (b a : DynamicArchitecture) : Prop where
  qubits : a.qubits ⊆ b.qubits
  resonators : a.resonators ⊆ b.resonators
  gates : ∀ {gate g}, a.gates.get? gate = some g → ∃ g', b.gates.get? gate = some g' ∧
    ∀ {implementation loci}, g.implementations.get? implementation = some loci →
      ∃ loci', g'.implementations.get? implementation = some loci' ∧ loci ⊆ loci'

theorem Enlarges.hasComponent (h : b.Enlarges a) {c : String} (hc : a.hasComponent c = true) :
    b.hasComponent c = true := by
  simp only [DynamicArchitecture.hasComponent, isQubit, isResonator, Bool.or_eq_true,
    List.contains_iff_mem] at hc ⊢
  exact hc.imp (fun hq => h.qubits hq) fun hr => h.resonators hr

theorem Enlarges.calibratedLoci (h : b.Enlarges a)
    (hloci : calibratedLoci a gate implementation = .ok loci) :
    ∃ loci', StarQpu.calibratedLoci b gate implementation = .ok loci' ∧ loci ⊆ loci' := by
  obtain ⟨g, hg, hfor⟩ := calibratedLoci_eq_ok_iff.1 hloci
  obtain ⟨g', hg', himplementations⟩ := h.gates hg
  cases implementation with
  | none =>
      obtain rfl := Option.some.inj hfor
      refine ⟨g'.allLoci, calibratedLoci_eq_ok_iff.2 ⟨g', hg', rfl⟩, fun locus hlocus => ?_⟩
      obtain ⟨implementation, loci, hget, hmem⟩ := GateInfo.mem_allLoci_iff.1 hlocus
      obtain ⟨loci', hget', hsub⟩ := himplementations hget
      exact GateInfo.mem_allLoci_iff.2 ⟨implementation, loci', hget', hsub hmem⟩
  | some implementation =>
      obtain ⟨loci', hget', hsub⟩ := himplementations hfor
      exact ⟨loci', calibratedLoci_eq_ok_iff.2 ⟨g', hg', hget'⟩, hsub⟩

theorem Enlarges.permits (h : b.Enlarges a) (hpermits : a.permits i locus = true) :
    b.permits i locus = true := by
  by_cases hskip : i.action.operation.locusCheck = .skip
  · rw [DynamicArchitecture.permits, if_pos hskip, List.all_eq_true] at hpermits ⊢
    exact fun c hc => h.hasComponent (hpermits c hc)
  · obtain ⟨loci, hloci, hpermitted⟩ := (permits_iff_of_not_skip hskip).1 hpermits
    obtain ⟨loci', hloci', hsub⟩ := h.calibratedLoci hloci
    exact (permits_iff_of_not_skip hskip).2
      ⟨loci', hloci', locusPermitted_mono (fun _ hl => hsub hl) hpermitted⟩

/-! ### Accepted instructions -/

/-- No implementation is calibrated under the empty name. -/
def NamesImplementations (a : DynamicArchitecture) : Prop := ∀ gate, ¬ a.Calibrates gate ""

/-- Without an implementation the locus is compared with those of all implementations. -/
theorem accepts_none_iff (built : Instruction.build name none qubits args = .ok i)
    (hskip : i.action.operation.locusCheck ≠ .skip) :
    a.Accepts mapping name none qubits args ↔
      ∃ g locus, a.gates.get? i.name = some g ∧ mapLocus mapping qubits = .ok locus ∧
        locusPermitted i.action.operation g.loci locus = true := by
  rw [accepts_iff built, permits_none_iff hskip]
  simp only [mapLocus_eq_ok_iff]
  constructor
  · intro h
    obtain ⟨-, -, hknown, g, hg, hpermitted⟩ := h
    exact ⟨g, _, hg, ⟨hknown, rfl⟩, hpermitted⟩
  · intro h
    obtain ⟨g, _, hg, ⟨hknown, rfl⟩, hpermitted⟩ := h
    exact ⟨nofun, Instruction.arity_of_build built, hknown, g, hg, hpermitted⟩

theorem accepts_none_of_some (built : Instruction.build name none qubits args = .ok i)
    (hskip : i.action.operation.locusCheck ≠ .skip) {implementation : String}
    (h : a.Accepts mapping name (some implementation) qubits args) :
    a.Accepts mapping name none qubits args := by
  obtain ⟨-, harity, hknown, hpermits⟩ := (accepts_iff built).1 h
  exact (accepts_iff built).2 ⟨nofun, harity, hknown, permits_none_of_some hskip hpermits⟩

/-- An instruction on an exact locus that is accepted without an implementation is with one. -/
theorem exists_accepts_some (named : a.NamesImplementations)
    (built : Instruction.build name none qubits args = .ok i)
    (hexact : i.action.operation.locusCheck = .exact)
    (h : a.Accepts mapping name none qubits args) : ∃ implementation,
      a.Calibrates i.name implementation ∧
        a.Accepts mapping name (some implementation) qubits args := by
  obtain ⟨-, harity, hknown, hpermits⟩ := (accepts_iff built).1 h
  obtain ⟨implementation, hcalibrated, hpermits⟩ := exists_permits_some hexact hpermits
  refine ⟨implementation, hcalibrated, (accepts_iff built).2
    ⟨fun hempty => ?_, harity, hknown, hpermits⟩⟩
  exact named i.name (Option.some.inj hempty ▸ hcalibrated)

theorem accepts_iff_of_perm (built : Instruction.build name implementation qubits args = .ok i)
    (hdirected : i.action.operation.directed = false) (hperm : qubits.Perm others) :
    a.Accepts mapping name implementation qubits args ↔
      a.Accepts mapping name implementation others args := by
  have hphysical := hperm.map (physical mapping)
  have hpermits : a.permits ⟨i.action, implementation⟩ (qubits.map (physical mapping)) = true ↔
      a.permits ⟨i.action, implementation⟩ (others.map (physical mapping)) = true :=
    ⟨permits_of_perm hdirected hphysical, permits_of_perm hdirected hphysical.symm⟩
  rw [accepts_iff built, accepts_iff built, hperm.length_eq, hpermits]
  simp only [hperm.mem_iff]

/-- On any number of components an instruction is accepted if each of them is and there might be
none. -/
theorem accepts_iff_forall (built : Instruction.build name implementation qubits args = .ok i)
    (harity : i.action.operation.arity = none)
    (hcheck : i.action.operation.locusCheck ≠ .exact) :
    a.Accepts mapping name implementation qubits args ↔
      (∀ q ∈ qubits, a.Accepts mapping name implementation [q] args) ∧
        a.Accepts mapping name implementation [] args := by
  simp only [accepts_iff built, harity, Option.any_none, true_and, List.map_cons, List.map_nil,
    List.forall_mem_singleton]
  rw [permits_iff_forall (i := ⟨i.action, implementation⟩) hcheck, List.forall_mem_map]
  constructor
  · intro h
    obtain ⟨hnamed, hknown, hnone, hall⟩ := h
    exact ⟨fun q hq => ⟨hnamed, hknown q hq, hall q hq⟩, hnamed, by simp, hnone⟩
  · intro h
    obtain ⟨hall, hnamed, -, hnone⟩ := h
    exact ⟨hnamed, fun q hq => (hall q hq).2.1, hnone, fun q hq => (hall q hq).2.2⟩

/-- Without components there is nothing to check. -/
theorem accepts_nil_of_skip (built : Instruction.build name implementation qubits args = .ok i)
    (harity : i.action.operation.arity = none) (hskip : i.action.operation.locusCheck = .skip) :
    a.Accepts mapping name implementation [] args := by
  have hnamed := ((Instruction.build_eq_ok_iff_of_build built).1 built).1
  refine (accepts_iff built).2 ⟨hnamed, by rw [harity]; rfl, by simp, ?_⟩
  rw [permits, if_pos hskip]
  rfl

theorem Enlarges.accepts (h : b.Enlarges a)
    (haccepts : a.Accepts mapping name implementation qubits args) :
    b.Accepts mapping name implementation qubits args := by
  obtain ⟨i, hbuilt, hvalid⟩ := haccepts
  obtain ⟨locus, hlocus, hpermits⟩ := validateInstruction_eq_ok_iff.1 hvalid
  exact ⟨i, hbuilt, validateInstruction_eq_ok_iff.2 ⟨locus, hlocus, h.permits hpermits⟩⟩

/-! ### The laws -/

/-- What the check of an instruction that can be built says about the check of others under its name
and with its arguments. -/
structure AcceptanceLaws (a : DynamicArchitecture) (mapping : Option QubitMapping) : Prop where
  /-- Without an implementation the loci of all implementations are allowed, as `GateInfo.loci`
  lists them. -/
  union : ∀ {name qubits args i}, Instruction.build name none qubits args = .ok i →
    i.name ≠ "barrier" → (a.Accepts mapping name none qubits args ↔
      ∃ g locus, a.gates.get? i.name = some g ∧ mapLocus mapping qubits = .ok locus ∧
        locusPermitted i.action.operation g.loci locus = true)
  /-- Where the locus has to be exact, this is to be accepted for some implementation. -/
  implementations : ∀ {name qubits args i}, Instruction.build name none qubits args = .ok i →
    i.name ∈ ["cz", "move", "prx"] → (a.Accepts mapping name none qubits args ↔
      ∃ implementation, a.Calibrates i.name implementation ∧
        a.Accepts mapping name (some implementation) qubits args)
  /-- A measurement that is accepted for some implementation is accepted without one. -/
  measureImplementation : ∀ {name qubits args i}, Instruction.build name none qubits args = .ok i →
    i.name = "measure" → ∀ {implementation}, a.Calibrates i.name implementation →
      a.Accepts mapping name (some implementation) qubits args →
        a.Accepts mapping name none qubits args
  /-- Only for MOVEs the order of the components counts. -/
  permutation : ∀ {name implementation qubits others args i},
    Instruction.build name implementation qubits args = .ok i → i.name ≠ "move" →
      qubits.Perm others → (a.Accepts mapping name implementation qubits args ↔
        a.Accepts mapping name implementation others args)
  /-- A barrier is accepted if it is on each of its components alone. -/
  barrier : ∀ {name implementation qubits args i},
    Instruction.build name implementation qubits args = .ok i → i.name = "barrier" →
      (a.Accepts mapping name implementation qubits args ↔
        ∀ q ∈ qubits, a.Accepts mapping name implementation [q] args)
  /-- A measurement also has to be accepted on no qubits. -/
  measure : ∀ {name implementation qubits args i},
    Instruction.build name implementation qubits args = .ok i → i.name = "measure" →
      (a.Accepts mapping name implementation qubits args ↔
        (∀ q ∈ qubits, a.Accepts mapping name implementation [q] args) ∧
          a.Accepts mapping name implementation [] args)
  /-- What is accepted stays accepted on a larger architecture. -/
  enlargement : ∀ {b : DynamicArchitecture}, b.Enlarges a → ∀ {name implementation qubits args},
    a.Accepts mapping name implementation qubits args →
      b.Accepts mapping name implementation qubits args

/-- **The laws of acceptance** hold on every architecture whose implementations have names, for
every instruction that can be built and for every mapping or none. -/
theorem acceptance_laws (named : a.NamesImplementations) (mapping : Option QubitMapping) :
    a.AcceptanceLaws mapping where
  union := by
    intro name qubits args i built hname
    have hrow : ∀ op ∈ Operation.table, op.name ≠ "barrier" → op.locusCheck ≠ .skip := by decide
    exact accepts_none_iff built (hrow _ i.action.operation_mem_table hname)
  implementations := by
    intro name qubits args i built hname
    have hrow : ∀ op ∈ Operation.table, op.name ∈ ["cz", "move", "prx"] →
        op.locusCheck = .exact ∧ op.locusCheck ≠ .skip := by decide
    obtain ⟨hexact, hskip⟩ := hrow _ i.action.operation_mem_table hname
    refine ⟨exists_accepts_some named built hexact, fun h => ?_⟩
    obtain ⟨implementation, -, haccepts⟩ := h
    exact accepts_none_of_some built hskip haccepts
  measureImplementation := by
    intro name qubits args i built hname implementation _ h
    have hrow : ∀ op ∈ Operation.table, op.name = "measure" → op.locusCheck ≠ .skip := by decide
    exact accepts_none_of_some built (hrow _ i.action.operation_mem_table hname) h
  permutation := by
    intro name implementation qubits others args i built hname hperm
    have hrow : ∀ op ∈ Operation.table, op.name ≠ "move" → op.directed = false := by decide
    exact accepts_iff_of_perm built (hrow _ i.action.operation_mem_table hname) hperm
  barrier := by
    intro name implementation qubits args i built hname
    have hrow : ∀ op ∈ Operation.table, op.name = "barrier" →
        op.arity = none ∧ op.locusCheck = .skip ∧ op.locusCheck ≠ .exact := by decide
    obtain ⟨harity, hskip, hexact⟩ := hrow _ i.action.operation_mem_table hname
    rw [accepts_iff_forall built harity hexact,
      and_iff_left (accepts_nil_of_skip built harity hskip)]
  measure := by
    intro name implementation qubits args i built hname
    have hrow : ∀ op ∈ Operation.table, op.name = "measure" →
        op.arity = none ∧ op.locusCheck ≠ .exact := by decide
    obtain ⟨harity, hexact⟩ := hrow _ i.action.operation_mem_table hname
    exact accepts_iff_forall built harity hexact
  enlargement := by
    intro b hb name implementation qubits args h
    exact hb.accepts h

/-- Each of the two implementations of the controlled-Z gate has a pair of its own. -/
def pairPerImplementation : DynamicArchitecture :=
  (DynamicArchitecture.mk .nil ["QB1", "QB2", "QB3"] [] .empty).withGate "cz"
    (((GateInfo.new "slow").withImplementation "slow" [["QB1", "QB2"]]).withImplementation "fast"
      [["QB2", "QB3"]])

/-- A gate that the fast implementation can do one way round is accepted the other way round too,
and if no implementation is asked for. -/
theorem acceptance_laws_pairPerImplementation :
    let mapping : QubitMapping := (Table.empty.insert "a" "QB2").insert "b" "QB3"
    pairPerImplementation.NamesImplementations ∧
      Instruction.build "cz" none ["b", "a"] .empty = .ok (.cz "b" "a") ∧
      pairPerImplementation.Accepts (some mapping) "cz" (some "fast") ["a", "b"] .empty ∧
      pairPerImplementation.Accepts (some mapping) "cz" none ["b", "a"] .empty := by
  intro mapping
  have named : pairPerImplementation.NamesImplementations := by
    intro gate h
    obtain ⟨g, loci, hg, hloci⟩ := h
    simp only [pairPerImplementation, withGate, Table.get?_insert, Table.get?_empty,
      Option.ite_none_right_eq_some] at hg
    obtain ⟨-, hg⟩ := hg
    obtain rfl := Option.some.inj hg
    simp [GateInfo.withImplementation, GateInfo.new] at hloci
  have built : Instruction.build "cz" none ["b", "a"] .empty = .ok (.cz "b" "a") := rfl
  have built' : Instruction.build "cz" (some "fast") ["a", "b"] .empty =
      .ok ⟨.cz "a" "b", some "fast"⟩ := rfl
  have calibrated : pairPerImplementation.Calibrates "cz" "fast" := ⟨_, _, rfl, rfl⟩
  have fast :
      pairPerImplementation.Accepts (some mapping) "cz" (some "fast") ["a", "b"] .empty := by
    refine (accepts_iff built').2 ⟨by decide, rfl, by simp [Knows, mapping, Table.contains], ?_⟩
    exact (permits_some_iff (by decide)).2 ⟨_, _, rfl, rfl, (locusPermitted_iff_exists
      (by decide)).2 ⟨["QB2", "QB3"], List.mem_singleton_self _, List.Perm.refl _⟩⟩
  have laws := acceptance_laws named (some mapping)
  refine ⟨named, built, fast, (laws.implementations built (by decide)).2 ⟨"fast", calibrated, ?_⟩⟩
  exact (laws.permutation built' (by decide) (List.Perm.swap _ _ _)).1 fast

end DynamicArchitecture

end StarQpu
