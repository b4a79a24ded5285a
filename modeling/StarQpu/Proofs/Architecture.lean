import StarQpu.Proofs.Bank.Setup
import StarQpu.Proofs.Table

/-!
# StarQpu.Proofs.Architecture

**What a checked architecture promises.** The check passes exactly when no name stands for a qubit
and a resonator and every calibrated locus consists of components (`check_eq_ok_iff`). If moreover
every MOVE goes from a qubit into a resonator, the bank of the architecture is separated.
-/

namespace StarQpu

theorem GateInfo.mem_allLoci_iff {g : GateInfo} {locus : Locus} : locus ∈ g.allLoci ↔
    ∃ implementation loci, g.implementations.get? implementation = some loci ∧ locus ∈ loci := by
  rw [allLoci, List.mem_flatten]
  simp only [Table.mem_values_iff]
  constructor
  · intro h
    obtain ⟨loci, ⟨implementation, hget⟩, hmem⟩ := h
    exact ⟨implementation, loci, hget, hmem⟩
  · intro h
    obtain ⟨implementation, loci, hget, hmem⟩ := h
    exact ⟨loci, ⟨implementation, hget⟩, hmem⟩

namespace DynamicArchitecture

variable {a : DynamicArchitecture} {gate : String} {locus : Locus} {c q r : String}

/-- The calibrated loci of a gate; none if it is not calibrated. -/
def calibrated (a : DynamicArchitecture) (gate : String) : List Locus :=
  (a.gateLoci? gate).getD []

theorem moveLoci_eq (a : DynamicArchitecture) : a.moveLoci = a.calibrated "move" := rfl

theorem mem_calibrated_iff : locus ∈ a.calibrated gate ↔
    ∃ info, a.gates.get? gate = some info ∧ locus ∈ info.allLoci := by
  rw [calibrated, gateLoci?]
  cases a.gates.get? gate with
  | none => simp
  | some info => simp [GateInfo.loci]

theorem moveLoci_eq_nil (h : a.supportsMove = false) : a.moveLoci = [] := by
  rw [supportsMove, Table.contains] at h
  rw [moveLoci, gateLoci?]
  cases hmove : a.gates.get? "move" with
  | none => rfl
  | some info =>
      rw [hmove] at h
      exact absurd h (by simp)

@[simp] theorem mem_components_iff : c ∈ a.components ↔ a.hasComponent c = true := by
  rw [components, mem_sortComponents, List.mem_append, hasComponent, isQubit, isResonator,
    Bool.or_eq_true, List.contains_iff_mem, List.contains_iff_mem]

theorem hasComponent_of_isQubit (h : a.isQubit c = true) : a.hasComponent c = true := by
  rw [hasComponent, h, Bool.true_or]

theorem hasComponent_of_isResonator (h : a.isResonator c = true) : a.hasComponent c = true := by
  rw [hasComponent, h, Bool.or_true]

/-! ### The check -/

theorem unknownIn?_eq_none_iff {loci : List Locus} :
    a.unknownIn? loci = none ↔ ∀ locus ∈ loci, ∀ c ∈ locus, a.hasComponent c = true := by
  simp only [unknownIn?, List.findSome?_eq_none_iff, Option.map_eq_none_iff, List.find?_eq_none,
    Bool.not_eq_true', Bool.not_eq_false]

theorem flaw?_eq_none_iff : a.flaw? = none ↔
    (∀ q, a.isQubit q = true → a.isResonator q = false) ∧
      ∀ gate, ∀ locus ∈ a.calibrated gate, ∀ c ∈ locus, a.hasComponent c = true := by
  rw [flaw?]
  cases hshared : a.qubits.find? a.isResonator with
  | some q =>
      have hq : q ∈ a.qubits := List.mem_of_find?_eq_some hshared
      have hr : a.isResonator q = true := List.find?_some hshared
      constructor
      · intro h
        simp at h
      · intro h
        obtain ⟨hdisjoint, -⟩ := h
        rw [hdisjoint q (List.contains_iff_mem.2 hq)] at hr
        exact absurd hr (by decide)
  | none =>
      have hdisjoint : ∀ q, a.isQubit q = true → a.isResonator q = false := by
        intro q hq
        simpa using List.find?_eq_none.1 hshared q (List.contains_iff_mem.1 hq)
      simp only [List.findSome?_eq_none_iff, Option.map_eq_none_iff, unknownIn?_eq_none_iff,
        Prod.forall, Table.mem_entries_iff, mem_calibrated_iff, GateInfo.mem_allLoci_iff]
      constructor
      · intro hall
        refine ⟨hdisjoint, fun gate locus hlocus c hc => ?_⟩
        obtain ⟨info, hinfo, implementation, loci, hloci, hmem⟩ := hlocus
        exact hall gate info hinfo implementation loci hloci locus hmem c hc
      · intro h gate info hinfo implementation loci hloci locus hmem c hc
        exact h.2 gate locus ⟨info, hinfo, implementation, loci, hloci, hmem⟩ c hc

theorem check_eq_ok_iff : a.check = .ok () ↔
    (∀ q, a.isQubit q = true → a.isResonator q = false) ∧
      ∀ gate, ∀ locus ∈ a.calibrated gate, ∀ c ∈ locus, a.hasComponent c = true := by
  rw [← flaw?_eq_none_iff, check]
  cases a.flaw? <;> simp

section Checked

variable (checked : a.check = .ok ())
include checked

theorem not_isResonator_of_isQubit (hq : a.isQubit q = true) : a.isResonator q = false :=
  (check_eq_ok_iff.1 checked).1 q hq

theorem hasComponent_of_calibrated (hlocus : locus ∈ a.calibrated gate) (hc : c ∈ locus) :
    a.hasComponent c = true :=
  (check_eq_ok_iff.1 checked).2 gate locus hlocus c hc

end Checked

/-! ### MOVEs into resonators -/

/-- Every calibrated MOVE goes from a qubit into a resonator. -/
def MovesIntoResonators (a : DynamicArchitecture) : Prop :=
  ∀ locus ∈ a.moveLoci, ∃ q r, locus = [q, r] ∧ a.isQubit q = true ∧ a.isResonator r = true

theorem MovesIntoResonators.isQubit (h : a.MovesIntoResonators) (hmove : [q, r] ∈ a.moveLoci) :
    a.isQubit q = true := by
  obtain ⟨p, s, heq, hp, -⟩ := h _ hmove
  obtain ⟨rfl, -⟩ : q = p ∧ r = s := by simpa using heq
  exact hp

theorem MovesIntoResonators.isResonator (h : a.MovesIntoResonators)
    (hmove : [q, r] ∈ a.moveLoci) : a.isResonator r = true := by
  obtain ⟨p, s, heq, -, hs⟩ := h _ hmove
  obtain ⟨-, rfl⟩ : q = p ∧ r = s := by simpa using heq
  exact hs

theorem supportsMove_of_moveLoci (hsome : a.moveLoci ≠ []) : a.supportsMove = true := by
  by_contra hnot
  rw [Bool.not_eq_true] at hnot
  exact hsome (moveLoci_eq_nil hnot)

/-- The bank of an architecture supports MOVEs exactly when there is one. -/
theorem MovesIntoResonators.supportsMove_iff (h : a.MovesIntoResonators) :
    (ResonatorBank.ofArchitecture a).supportsMove = true ↔ a.moveLoci ≠ [] := by
  rw [ResonatorBank.supportsMove_ofArchitecture_iff]
  constructor
  · intro hmove
    obtain ⟨q, r, -, hlocus⟩ := hmove
    exact List.ne_nil_of_mem hlocus
  · intro hsome
    obtain ⟨locus, hlocus⟩ := List.exists_mem_of_ne_nil _ hsome
    obtain ⟨q, r, rfl, -, hr⟩ := h locus hlocus
    exact ⟨q, r, hr, hlocus⟩

end DynamicArchitecture

/-! ### Its banks -/

namespace ResonatorBank

variable {a : DynamicArchitecture} {b b' : ResonatorBank} {q r h : String} {l : List Instruction}

/-- A bank that MOVEs lead to from the one of the architecture: it has the resonators of the
architecture and its MOVEs. -/
structure Serves (b : ResonatorBank) (a : DynamicArchitecture) : Prop extends b.Separated where
  tracks_eq : b.tracks = a.isResonator
  qubitsOf_eq : b.qubitsOf = (ofArchitecture a).qubitsOf

theorem serves_ofArchitecture (checked : a.check = .ok ()) (moves : a.MovesIntoResonators) :
    (ofArchitecture a).Serves a where
  toSound := sound_ofPairs _
  apart := by
    intro q r hq
    have hmove := (mem_qubitsOf_ofArchitecture_iff.1 hq).2
    rw [tracks_ofArchitecture]
    exact DynamicArchitecture.not_isResonator_of_isQubit checked (moves.isQubit hmove)
  tracks_eq := tracks_ofArchitecture a
  qubitsOf_eq := rfl

/-- If the MOVEs go from qubits to resonators, their bank is separated. -/
theorem separated_ofInstructions (checked : a.check = .ok ())
    (ends : ∀ i ∈ l, ∀ q r, i.action = .move q r → a.isQubit q = true ∧ a.isResonator r = true) :
    (ofInstructions l).Separated := by
  refine separated_ofInstructions_iff.2 fun i hi j hj q r s hmove hmove' => ?_
  have hfree := DynamicArchitecture.not_isResonator_of_isQubit checked (ends i hi q r hmove).1
  rw [(ends j hj s q hmove').2] at hfree
  exact absurd hfree (by decide)

namespace Serves

variable (hb : b.Serves a)
include hb

theorem applied (applied : b.applied? q r = some b') : b'.Serves a where
  toSeparated := hb.toSeparated.applied applied
  tracks_eq := (tracks_applied applied).trans hb.tracks_eq
  qubitsOf_eq := (qubitsOf_applied applied).trans hb.qubitsOf_eq

theorem mem_qubitsOf_iff :
    q ∈ b.qubitsOf r ↔ a.isResonator r = true ∧ [q, r] ∈ a.moveLoci := by
  rw [hb.qubitsOf_eq, mem_qubitsOf_ofArchitecture_iff]

theorem hasComponent_of_mem_qubitsOf (checked : a.check = .ok ()) (hq : q ∈ b.qubitsOf r) :
    a.hasComponent q = true := by
  obtain ⟨-, hmove⟩ := hb.mem_qubitsOf_iff.1 hq
  rw [DynamicArchitecture.moveLoci_eq] at hmove
  exact DynamicArchitecture.hasComponent_of_calibrated checked hmove List.mem_cons_self

theorem isResonator_of_holder? (hr : b.holder? r = some h) : a.isResonator r = true := by
  rw [← hb.tracks_eq]
  exact tracks_iff.2 ⟨h, hr⟩

theorem hasComponent_of_holder? (checked : a.check = .ok ()) (hr : b.holder? r = some h) :
    a.hasComponent h = true := by
  rcases hb.holder_mem hr with rfl | hmem
  · exact DynamicArchitecture.hasComponent_of_isResonator (hb.isResonator_of_holder? hr)
  · exact hb.hasComponent_of_mem_qubitsOf checked hmem

theorem not_tracks (hq : a.isResonator q = false) : b.tracks q = false := by
  rw [hb.tracks_eq]
  exact hq

end Serves

end ResonatorBank

end StarQpu
