import StarQpu.Proofs.Routing.Meaning
import StarQpu.Proofs.Routing.Planned

/-!
# StarQpu.Proofs.Routing.Hub

**One resonator in the middle.** The bank of a star is its one resonator with a holder, so that what
the router does on it can be written out: a rotation stays, a gate lets the state of its first qubit
into the resonator or finds it there, and a measurement lets it out. A routed list is put together
from such steps, from its end (`RoutingContext.Yields`), and so is what is left of a list when its
MOVEs are removed (`Clears`).
-/

namespace StarQpu

variable {n : Nat} {first target p q h h' r : String} {qubits locus : List String}
  {b b' next : ResonatorBank} {i : Instruction} {source out out' lookahead : List Instruction}
  {pairs : List (String × String)} {angle phase : Angle}

/-! ### The bank of a star -/

namespace ResonatorBank

/-- The bank of a star: one resonator with these qubits and this holder. -/
def hub (qubits : List String) (holder : String) : ResonatorBank :=
  ⟨[⟨starResonator, qubits, holder⟩]⟩

theorem resonators_hub : (hub qubits h).resonators = [⟨starResonator, qubits, h⟩] := rfl

theorem find?_hub : (hub qubits h).find? r =
    if r = starResonator then some ⟨starResonator, qubits, h⟩ else none := by
  by_cases hr : r = starResonator
  · simp [find?, resonators_hub, hr]
  · simp [find?, resonators_hub, hr, Ne.symm hr]

theorem holder?_hub : (hub qubits h).holder? r = if r = starResonator then some h else none := by
  rw [holder?, find?_hub]
  split <;> rfl

theorem tracks_hub : (hub qubits h).tracks r = decide (r = starResonator) := by
  rw [tracks, find?_hub]
  by_cases hr : r = starResonator <;> simp [hr]

theorem mem_qubitsOf_hub_iff : q ∈ (hub qubits h).qubitsOf r ↔ r = starResonator ∧ q ∈ qubits := by
  rw [qubitsOf, find?_hub]
  by_cases hr : r = starResonator <;> simp [hr]

theorem setHolder_hub : (hub qubits h).setHolder starResonator h' = hub qubits h' := by
  simp [hub, setHolder]

theorem holding_hub : (hub qubits h).holding locus =
    if h ∈ locus ∧ h ≠ starResonator then [starResonator] else [] := by
  by_cases hheld : h ∈ locus ∧ h ≠ starResonator
  · rw [if_pos hheld]
    simp [holding, resonators_hub, tracks_hub, hheld.1, hheld.2]
  · rw [if_neg hheld]
    rw [not_and_or, not_not] at hheld
    rcases hheld with hnot | hempty
    · simp [holding, resonators_hub, hnot]
    · simp [holding, resonators_hub, tracks_hub, hempty]

theorem surplus_hub : (hub qubits h).surplus locus starResonator = [] := by
  rw [surplus, holding_hub]
  split <;> simp

theorem emptied_hub : (hub qubits h).emptied (some [starResonator]) = hub qubits starResonator := by
  simp [emptied, hub]

theorem occupied_hub (hne : h ≠ starResonator) :
    (hub qubits h).occupied (some [starResonator]) = [(h, starResonator)] := by
  simp [occupied, resonators_hub, hne]

/-- From an empty resonator any state of a gate may be moved. -/
theorem sources_hub_empty : (hub qubits starResonator).sources locus = locus := by
  simp [sources, holding_hub]

/-- A state of a gate that is held is the one that is used. -/
theorem sources_hub_held (hmem : h ∈ locus) (hne : h ≠ starResonator) :
    (hub qubits h).sources locus = [h] := by
  simp [sources, holding_hub, holder?_hub, hmem, hne]

theorem fetching_hub_empty (hne : q ≠ starResonator) :
    (hub qubits starResonator).fetching q starResonator = [(q, starResonator)] := by
  simp [fetching, plan, holder?_hub, hne.symm]

theorem fetching_hub_held : (hub qubits h).fetching h starResonator = [] := by
  simp [fetching, holder?_hub]

theorem separated_hub (apart : starResonator ∉ qubits) (hmem : h = starResonator ∨ h ∈ qubits) :
    (hub qubits h).Separated where
  nodup := List.nodup_singleton _
  holder_mem := by
    intro s k hs
    rw [holder?_hub, Option.ite_none_right_eq_some] at hs
    obtain ⟨rfl, hk⟩ := hs
    obtain rfl := Option.some.inj hk
    exact hmem.imp_right fun hq => mem_qubitsOf_hub_iff.2 ⟨rfl, hq⟩
  single := by
    intro s t k hs ht _ _
    rw [holder?_hub, Option.ite_none_right_eq_some] at hs ht
    exact hs.1.trans ht.1.symm
  apart := by
    intro p s hp
    rw [tracks_hub, decide_eq_false_iff_not]
    rintro rfl
    exact apart (mem_qubitsOf_hub_iff.1 hp).2

theorem applied?_hub_in (hq : q ∈ qubits) (apart : starResonator ∉ qubits) :
    (hub qubits starResonator).applied? q starResonator = some (hub qubits q) := by
  have hne : q ≠ starResonator := fun h => apart (h ▸ hq)
  have happly := (separated_hub apart (Or.inl rfl)).applied?_in (r := starResonator)
    (by rw [holder?_hub, if_pos rfl]) (mem_qubitsOf_hub_iff.2 ⟨rfl, hq⟩)
    (by simp [holder?_hub, hne.symm])
  rwa [setHolder_hub] at happly

theorem applied?_hub_out (hq : q ∈ qubits) (apart : starResonator ∉ qubits) :
    (hub qubits q).applied? q starResonator = some (hub qubits starResonator) := by
  have hne : q ≠ starResonator := fun h => apart (h ▸ hq)
  have happly := (separated_hub apart (Or.inr hq)).applied?_out (r := starResonator)
    (by rw [holder?_hub, if_pos rfl]) hne
  rwa [setHolder_hub] at happly

theorem rankedPairs_hub_single (hp : p ∈ qubits) :
    (hub qubits h).rankedPairs [p] lookahead = [(starResonator, p)] := by
  have hpairs : (hub qubits h).pairs [p] = [(starResonator, p)] := by
    simp [pairs, reachable, addMissing, resonators_hub, hp]
  rw [rankedPairs_of_pairwise, hpairs]
  rw [hpairs]
  exact List.pairwise_singleton _ _

theorem rankedPairs_hub_pair (hp : p ∈ qubits) (hq : q ∈ qubits) (hne : p ≠ q)
    (hscore : czScore q lookahead ≤ czScore p lookahead) :
    (hub qubits h).rankedPairs [p, q] lookahead = [(starResonator, p), (starResonator, q)] := by
  have hpairs : (hub qubits h).pairs [p, q] = [(starResonator, p), (starResonator, q)] := by
    simp [pairs, reachable, addMissing, resonators_hub, hp, hq, hne.symm]
  rw [rankedPairs_of_pairwise, hpairs]
  rw [hpairs]
  simpa using hscore

end ResonatorBank

/-- The bank of the sample star. -/
theorem exists_hub_star (n : Nat) : ∃ qubits,
    ResonatorBank.ofArchitecture (starArchitecture n) = .hub qubits starResonator ∧
      ∀ q, q ∈ qubits ↔ q ∈ qubitNames n := by
  refine ⟨_, rfl, fun q => ?_⟩
  have hlisted : q ∈ (ResonatorBank.ofArchitecture (starArchitecture n)).qubitsOf starResonator ↔
      q ∈ qubitNames n := by
    rw [ResonatorBank.mem_qubitsOf_ofArchitecture_iff, isResonator_star_iff,
      DynamicArchitecture.moveLoci_eq, mem_calibrated_star_iff]
    simp
  exact ((and_iff_right rfl).symm.trans ResonatorBank.mem_qubitsOf_hub_iff.symm).trans hlisted

/-! ### The router on a star -/

namespace RoutingContext

/-- Without a mapping the router gets through `source` from one bank to another and writes `out`. -/
def Yields (a : DynamicArchitecture) (b : ResonatorBank) (source out : List Instruction)
    (b' : ResonatorBank) : Prop :=
  (ofMapping a none).routeAll b source
    (source.map (·.mapQubits (renamed (ofMapping a none).mapping))) = .ok (out, b')

theorem Yields.cons {a : DynamicArchitecture}
    (step : (ofMapping a none).route b i i.qubits (i :: source) = .ok (out, next))
    (more : Yields a next source out' b') : Yields a b (i :: source) (out ++ out') b' := by
  refine routeAll_cons_eq_ok_iff.2 ⟨out, next, out', ?_, more, rfl⟩
  rw [locus_plain, map_mapQubits_plain]
  exact step

theorem validate_prx_star (hq : q ∈ qubitNames n) :
    (ofMapping (starArchitecture n) none).validate ⟨.prx q angle phase, none⟩ = .ok () := by
  have hcalibrated : [q] ∈ (starArchitecture n).calibrated "prx" :=
    mem_calibrated_star_iff.2 (Or.inr ⟨Or.inl rfl, q, hq, rfl⟩)
  obtain ⟨loci, hloci, hmem⟩ := calibratedLoci_none_of_mem hcalibrated
  have hchecked : Operation.prx.locusCheck ≠ .skip := by decide
  refine validate_plain_iff.2 ⟨fun c hc => ?_, ?_⟩
  · rw [List.mem_singleton.1 hc]
    exact DynamicArchitecture.hasComponent_of_isQubit (isQubit_star_iff.2 hq)
  · refine (permits_iff_of_not_skip (i := ⟨.prx q angle phase, none⟩) hchecked).2 ⟨loci, hloci, ?_⟩
    exact List.any_eq_true.2 ⟨[q], hmem, beq_self_eq_true _⟩

/-- An instruction that can run stays unless it touches the state that is held. -/
theorem Yields.keep (hvalid : (ofMapping (starArchitecture n) none).validate i = .ok ())
    (hmove : i.isMove = false) (hfree : h ∉ i.qubits)
    (more : Yields (starArchitecture n) (.hub qubits h) source out b') :
    Yields (starArchitecture n) (.hub qubits h) (i :: source) (i :: out) b' := by
  have hnone : (ResonatorBank.hub qubits h).holding i.qubits = [] := by
    rw [ResonatorBank.holding_hub, if_neg fun hheld => hfree hheld.1]
  have hstep : (ofMapping (starArchitecture n) none).route (.hub qubits h) i i.qubits
      (i :: source) = .ok ([i], .hub qubits h) := by
    rw [← locus_plain (a := starArchitecture n), route_of_not_held, hvalid, mapQubits_plain]
    · dsimp only
      rw [follow_of_not_move hmove]
      rfl
    · rw [locus_plain]
      exact Or.inl hnone
  exact .cons hstep more

theorem Yields.rotation (hq : q ∈ qubitNames n) (hne : h ≠ q)
    (more : Yields (starArchitecture n) (.hub qubits h) source out b') :
    Yields (starArchitecture n) (.hub qubits h) (⟨.prx q angle phase, none⟩ :: source)
      (⟨.prx q angle phase, none⟩ :: out) b' :=
  .keep (validate_prx_star hq) rfl (fun hmem => hne (List.mem_singleton.1 hmem)) more

section Gates

variable (hqubits : ∀ q, q ∈ qubits ↔ q ∈ qubitNames n)
include hqubits

theorem separated_star (hmem : h = starResonator ∨ h ∈ qubitNames n) :
    (ResonatorBank.hub qubits h).Separated :=
  ResonatorBank.separated_hub (fun hr => starResonator_not_mem ((hqubits _).1 hr))
    (hmem.imp_right (hqubits h).2)

/-- A gate goes through the resonator with the state of its first qubit if that one ranks first. -/
theorem route_cz (hmem : h = starResonator ∨ h ∈ qubitNames n) (hfirst : first ∈ qubitNames n)
    (htarget : target ∈ qubitNames n) (hne : first ≠ target)
    (ranked : (ResonatorBank.hub qubits h).rankedPairs
      ((ResonatorBank.hub qubits h).sources [first, target]) lookahead =
        (starResonator, first) :: pairs) :
    (ofMapping (starArchitecture n) none).route (.hub qubits h) (.cz first target)
        [first, target] lookahead =
      .ok (((ResonatorBank.hub qubits h).fetching first starResonator).map
        (fun m => .move m.1 m.2) ++ [.cz target starResonator], .hub qubits first) := by
  have hlocus : (ofMapping (starArchitecture n) none).locus (.cz first target) = [first, target] :=
    locus_plain _
  have hinvalid : (ofMapping (starArchitecture n) none).validate (.cz first target) ≠ .ok () :=
    not_valid_of_cz (exists_resonator_star n) rfl (List.forall_mem_cons.2
      ⟨isResonator_star_of_mem hfirst,
        List.forall_mem_singleton.2 (isResonator_star_of_mem htarget)⟩)
  have hvalid :
      (ofMapping (starArchitecture n) none).validate (.cz target starResonator) = .ok () :=
    validate_cz_plain (DynamicArchitecture.hasComponent_of_isQubit (isQubit_star_iff.2 htarget))
      (DynamicArchitecture.hasComponent_of_isResonator (isResonator_star_iff.2 rfl))
      (permits_cz_of_calibrated _ _
        (mem_calibrated_star_iff.2 (Or.inl ⟨Or.inl rfl, target, htarget, rfl⟩)) (.refl _))
  rw [← hlocus, route_of_invalid_cz rfl hinvalid, hlocus]
  refine (throughResonator_eq_ok_iff_rerouted (separated_star hqubits hmem)).2
    ⟨starResonator, first, .cz target starResonator, ?_, ?_, ?_⟩
  · rw [ranked]
    exact usablePair?_cons_of_usable
      (usable_plain List.mem_cons_self hne.symm (List.Perm.swap _ _ []) hvalid)
  · rw [ResonatorBank.rerouting, ResonatorBank.surplus_hub, ResonatorBank.occupied_none_in_scope,
      ResonatorBank.emptied_nil, List.nil_append, moveInstructions_plain]
  · rw [ResonatorBank.rerouted, ResonatorBank.surplus_hub, ResonatorBank.emptied_nil,
      ResonatorBank.setHolder_hub]

/-- In front of the first gate the state enters the resonator. -/
theorem Yields.firstGate (hfirst : first ∈ qubitNames n) (htarget : target ∈ qubitNames n)
    (hne : first ≠ target)
    (hscore : ResonatorBank.czScore target (.cz first target :: source) ≤
      ResonatorBank.czScore first (.cz first target :: source))
    (more : Yields (starArchitecture n) (.hub qubits first) source out b') :
    Yields (starArchitecture n) (.hub qubits starResonator) (.cz first target :: source)
      (.move first starResonator :: .cz target starResonator :: out) b' := by
  have hranked : (ResonatorBank.hub qubits starResonator).rankedPairs
      ((ResonatorBank.hub qubits starResonator).sources [first, target])
      (.cz first target :: source) = [(starResonator, first), (starResonator, target)] := by
    rw [ResonatorBank.sources_hub_empty]
    exact ResonatorBank.rankedPairs_hub_pair ((hqubits first).2 hfirst)
      ((hqubits target).2 htarget) hne hscore
  have hgate := route_cz hqubits (Or.inl rfl) hfirst htarget hne hranked
  rw [ResonatorBank.fetching_hub_empty (ne_starResonator hfirst)] at hgate
  exact .cons hgate more

/-- For any other gate it is there. -/
theorem Yields.gate (hfirst : first ∈ qubitNames n) (htarget : target ∈ qubitNames n)
    (hne : first ≠ target)
    (more : Yields (starArchitecture n) (.hub qubits first) source out b') :
    Yields (starArchitecture n) (.hub qubits first) (.cz first target :: source)
      (.cz target starResonator :: out) b' := by
  have hranked : (ResonatorBank.hub qubits first).rankedPairs
      ((ResonatorBank.hub qubits first).sources [first, target])
      (.cz first target :: source) = [(starResonator, first)] := by
    rw [ResonatorBank.sources_hub_held List.mem_cons_self (ne_starResonator hfirst)]
    exact ResonatorBank.rankedPairs_hub_single ((hqubits first).2 hfirst)
  have hgate := route_cz hqubits (Or.inr hfirst) hfirst htarget hne hranked
  rw [ResonatorBank.fetching_hub_held] at hgate
  exact .cons hgate more

/-- An instruction that is no gate needs the state outside of the resonator. -/
theorem Yields.ending (hfirst : first ∈ qubitNames n) (hcz : i.isCz = false)
    (hmove : i.isMove = false) (hmem : first ∈ i.qubits)
    (more : Yields (starArchitecture n) (.hub qubits starResonator) source out b') :
    Yields (starArchitecture n) (.hub qubits first) (i :: source)
      (.move first starResonator :: i :: out) b' := by
  have hloaded := ne_starResonator hfirst
  have hholding : (ResonatorBank.hub qubits first).holding i.qubits = [starResonator] := by
    rw [ResonatorBank.holding_hub, if_pos ⟨hmem, hloaded⟩]
  have hstep : (ofMapping (starArchitecture n) none).route (.hub qubits first) i i.qubits
      (i :: source) = .ok ([.move first starResonator, i], .hub qubits starResonator) := by
    rw [← locus_plain (a := starArchitecture n), route_of_held _ hcz hmove, locus_plain, hholding,
      giveBack_eq (separated_star hqubits (Or.inr hfirst)), ResonatorBank.occupied_hub hloaded,
      ResonatorBank.emptied_hub, moveInstructions_plain]
    · rfl
    · rw [locus_plain, hholding]
      exact List.cons_ne_nil _ _
  exact .cons hstep more

end Gates

end RoutingContext

/-! ### Removal -/

/-- Removal gets through `source` with this bank and leaves `out`. -/
def Clears (b : ResonatorBank) (source out : List Instruction) : Prop :=
  ∀ circuit, (removeFrom circuit b source).result = .ok out

theorem clears_nil : Clears b [] [] := fun _ => rfl

theorem Clears.other (hother : i.isMove = false) (more : Clears b source out) :
    Clears b (i :: source) (resolveInstruction b i :: out) := by
  intro circuit
  rw [removeFrom_result_other circuit hother, more circuit]
  rfl

/-- An instruction on other components stays. -/
theorem Clears.keep (hother : i.isMove = false) (hfree : ∀ q ∈ i.qubits, q ≠ starResonator)
    (more : Clears (.hub qubits h) source out) :
    Clears (.hub qubits h) (i :: source) (i :: out) := by
  have hsame : resolveInstruction (.hub qubits h) i = i :=
    resolveInstruction_of_not_tracks fun q hq => by
      rw [ResonatorBank.tracks_hub, decide_eq_false_iff_not]
      exact hfree q hq
  have hkept := Clears.other hother more
  rwa [hsame] at hkept

/-- A gate on the resonator is one on the qubit whose state is there. -/
theorem Clears.gate (hq : q ≠ starResonator) (hh : h ≠ starResonator)
    (more : Clears (.hub qubits h) source out) :
    Clears (.hub qubits h) (.cz q starResonator :: source) (.cz q h :: out) := by
  have hresolved : resolveInstruction (.hub qubits h) (.cz q starResonator) = .cz q h := by
    simp [resolveInstruction, Instruction.cz, Instruction.qubits, Action.qubits,
      Instruction.mapQubits, Action.mapQubits, Instruction.withoutImplementation,
      ResonatorBank.resolve, ResonatorBank.holder?_hub, hq, hh]
  have hgate := Clears.other (i := .cz q starResonator) rfl more
  rwa [hresolved] at hgate

theorem Clears.move (applied : b.applied? q r = some next) (more : Clears next source out) :
    Clears b (.move q r :: source) out := by
  intro circuit
  rw [removeFrom_result_move circuit rfl, ResonatorBank.apply_eq_ok_iff.2 applied]
  exact more circuit

end StarQpu
