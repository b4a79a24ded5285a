import Mathlib.Data.List.Forall2
import StarQpu.Proofs.Routing.Insertion
import StarQpu.Proofs.Samples

/-!
# StarQpu.Proofs.Routing.RoundTrip

**Removal takes back what insertion did.** Insertion works on physical names with a bank of the
architecture, removal on the names of the circuit with a bank of the MOVEs it finds. The second bank
`Mirrors` the first one through the names that components have in the circuit: it tracks names of
resonators only, and finds under such a name the name of what the resonator holds. A MOVE of the
router keeps the two in step (`Mirrors.applied`), an instruction that was kept is seen unchanged,
and a controlled-Z on a resonator becomes one on the two qubits again (`Routes.restored`).
-/

namespace StarQpu

variable {a : DynamicArchitecture} {mapping : Option QubitMapping} {b b₁ b' l : ResonatorBank}
  {i j : Instruction} {c d p q r partner moved : String} {source out : List Instruction}

namespace RoutingContext

variable {x : RoutingContext}

/-- How an instruction comes back, given what stood for it after the insertion. -/
inductive Restored (x : RoutingContext) : Instruction × Instruction → Instruction → Prop where
  /-- It stood there as it was and comes back as it was. -/
  | kept (i : Instruction) : Restored x (i, i) i
  /-- A controlled-Z stood there on a resonator, and comes back without an implementation. -/
  | rerouted {i back : Instruction} {p q l r : String} (cz : i.action = .cz p q)
      (resonator : x.architecture.isResonator r = true) (ends : back = .cz p q ∨ back = .cz q p) :
      Restored x (i, back) (.cz l (x.logical r))

/-- A bank `l` on the names of the circuit agrees with a bank `b` on physical names. -/
structure Mirrors (x : RoutingContext) (b l : ResonatorBank) : Prop where
  nodup : l.names.Nodup
  tracked : ∀ {c}, l.tracks c = true → ∃ r, b.tracks r = true ∧ c = x.logical r
  resolve : ∀ {r}, b.tracks r = true → l.resolve (x.logical r) = x.logical (b.resolve r)

/-- A gate that is rerouted is one between the partner and the qubit that is moved. -/
theorem Reroutes.ends (fits : (mapping.getD .empty).Fits a)
    (h : (ofMapping a mapping).Reroutes b i j partner moved r) (haction : i.action = .cz p q) :
    (ofMapping a mapping).logical partner = p ∧ (ofMapping a mapping).logical moved = q ∨
      (ofMapping a mapping).logical partner = q ∧ (ofMapping a mapping).logical moved = p := by
  have hmapped := h.mapped
  have hlocus := h.locus
  rw [Mapped, Instruction.qubits_of_cz haction] at hmapped
  rw [RoutingContext.locus, Instruction.qubits_of_cz haction] at hlocus
  obtain ⟨hp, -⟩ := logical_renamed fits (hmapped p (by simp))
  obtain ⟨hq, -⟩ := logical_renamed fits (hmapped q (by simp))
  rcases List.perm_pair.1 hlocus.symm with heq | heq
  · obtain ⟨rfl, rfl⟩ : partner = _ ∧ moved = _ := by simpa using heq
    exact Or.inl ⟨hp, hq⟩
  · obtain ⟨rfl, rfl⟩ : partner = _ ∧ moved = _ := by simpa using heq
    exact Or.inr ⟨hq, hp⟩

/-! ### The mirror -/

namespace Mirrors

/-- Before the first MOVE every resonator holds its own state, under either name. -/
theorem start_of_listed (listed : ∀ i ∈ out, ∀ l l', i.action = .move l l' →
      ∃ r, (ResonatorBank.ofArchitecture a).tracks r = true ∧ l' = x.logical r) :
    x.Mirrors (.ofArchitecture a) (.ofInstructions out) where
  nodup := (ResonatorBank.sound_ofInstructions out).nodup
  tracked := by
    intro c hc
    obtain ⟨i, hi, q, hmove⟩ := ResonatorBank.tracks_ofInstructions_iff.1 hc
    exact listed i hi q c hmove
  resolve := by
    intro r hr
    obtain ⟨h, hheld⟩ := ResonatorBank.tracks_iff.1 hr
    rw [ResonatorBank.resolve_of_holder? hheld, ResonatorBank.holder?_ofArchitecture hheld]
    cases hl : (ResonatorBank.ofInstructions out).holder? (x.logical r) with
    | none => exact ResonatorBank.resolve_of_not_tracks (ResonatorBank.tracks_eq_false_iff.2 hl)
    | some k =>
        rw [ResonatorBank.resolve_of_holder? hl]
        exact ResonatorBank.holder?_ofInstructions hl

theorem start (run : x.Routes (.ofArchitecture a) source out b')
    (noMoves : ∀ i ∈ source, i.isMove = false) :
    x.Mirrors (.ofArchitecture a) (.ofInstructions out) := by
  refine start_of_listed fun i hi l l' hmove => ?_
  obtain ⟨q, r, -, hr, hq⟩ := run.move_of_mem noMoves hi hmove
  exact ⟨r, ResonatorBank.tracks_of_mem_qubitsOf hq, hr⟩

section Serving

variable (fits : (mapping.getD .empty).Fits a) (hb : b.Serves a)
  (mirrors : (ofMapping a mapping).Mirrors b l)
include fits hb mirrors

/-- The name of a component that is no resonator is not tracked. -/
theorem not_tracks (hc : a.hasComponent c = true) (hfree : a.isResonator c = false) :
    l.tracks ((ofMapping a mapping).logical c) = false := by
  rw [← Bool.not_eq_true]
  intro htracks
  obtain ⟨r, hr, heq⟩ := mirrors.tracked htracks
  rw [hb.tracks_eq] at hr
  rw [logical_inj fits hc (DynamicArchitecture.hasComponent_of_isResonator hr) heq, hr] at hfree
  exact absurd hfree (by decide)

/-- The names of an instruction that is kept are not tracked. -/
theorem not_tracks_of_mem (hmapped : (ofMapping a mapping).Mapped i)
    (free : ∀ q ∈ (ofMapping a mapping).locus i, a.isResonator q = false) :
    ∀ q ∈ i.qubits, l.tracks q = false := by
  intro q hq
  obtain ⟨hname, hcomponent⟩ := logical_renamed fits (hmapped q hq)
  rw [← hname]
  exact mirrors.not_tracks fits hb hcomponent (free _ (List.mem_map_of_mem hq))

variable (checked : a.check = .ok ())
include checked

/-- What a tracked name holds is the name of what its resonator holds. -/
theorem holder?_iff (hr : a.isResonator r = true) (hp : a.hasComponent p = true)
    (hl : l.tracks ((ofMapping a mapping).logical r) = true) :
    l.holder? ((ofMapping a mapping).logical r) = some ((ofMapping a mapping).logical p) ↔
      b.holder? r = some p := by
  have hbr : b.tracks r = true := by
    rw [hb.tracks_eq]
    exact hr
  obtain ⟨h, hheld⟩ := ResonatorBank.tracks_iff.1 hbr
  obtain ⟨k, hk⟩ := ResonatorBank.tracks_iff.1 hl
  have hresolve := mirrors.resolve hbr
  rw [ResonatorBank.resolve_of_holder? hk, ResonatorBank.resolve_of_holder? hheld] at hresolve
  rw [hk, hheld, hresolve, Option.some.injEq, Option.some.injEq]
  constructor
  · exact logical_inj fits (hb.hasComponent_of_holder? checked hheld) hp
  · intro heq
    rw [heq]

/-- **The mirror allows what the bank allows**, and shows the same after it. -/
theorem applied (applied : b.applied? q r = some b₁)
    (hmem : (ofMapping a mapping).logical q ∈ l.qubitsOf ((ofMapping a mapping).logical r)) :
    ∃ l₁, l.applied? ((ofMapping a mapping).logical q) ((ofMapping a mapping).logical r) =
        some l₁ ∧ (ofMapping a mapping).Mirrors b₁ l₁ := by
  have hb₁ := hb.applied applied
  obtain ⟨hallow, rfl⟩ := ResonatorBank.applied?_eq_some_iff.1 applied
  obtain ⟨hq, hheld, honly⟩ := (ResonatorBank.allows_iff hb.nodup).1 hallow
  have hr := (hb.mem_qubitsOf_iff.1 hq).1
  have hqc := hb.hasComponent_of_mem_qubitsOf checked hq
  have hrc := DynamicArchitecture.hasComponent_of_isResonator hr
  have hl := ResonatorBank.tracks_of_mem_qubitsOf hmem
  have hsame := fun {p} (hp : a.hasComponent p = true) =>
    mirrors.holder?_iff fits hb checked hr hp hl
  -- the mirror tracks names of resonators only, so nothing else can hold the name
  have honly' : ∀ n, l.holder? n = some ((ofMapping a mapping).logical q) →
      n = (ofMapping a mapping).logical r := by
    intro n hn
    have hnl : l.tracks n = true := ResonatorBank.tracks_iff.2 ⟨_, hn⟩
    obtain ⟨s, hs, rfl⟩ := mirrors.tracked hnl
    rw [hb.tracks_eq] at hs
    rw [honly s ((mirrors.holder?_iff fits hb checked hs hqc hnl).1 hn)]
  refine ⟨_, ResonatorBank.applied?_eq_some_iff.2
    ⟨(ResonatorBank.allows_iff mirrors.nodup).2 ⟨hmem, ?_, honly'⟩, rfl⟩, ?_, ?_, ?_⟩
  · rw [hsame hqc, hsame hrc]
    exact hheld
  · rw [ResonatorBank.names_setHolder]
    exact mirrors.nodup
  · intro n hn
    rw [ResonatorBank.tracks_setHolder] at hn
    obtain ⟨s, hs, rfl⟩ := mirrors.tracked hn
    exact ⟨s, by rw [ResonatorBank.tracks_setHolder]; exact hs, rfl⟩
  · intro s hs
    rw [ResonatorBank.tracks_setHolder] at hs
    by_cases hsr : s = r
    · -- the resonator of the MOVE changes its holder on both sides
      subst hsr
      rw [ResonatorBank.resolve_setHolder_self hl, ResonatorBank.resolve_setHolder_self hs]
      by_cases hempty : b.holder? s = some s
      · rw [if_pos hempty, if_pos ((hsame hrc).2 hempty)]
      · rw [if_neg hempty, if_neg fun h => hempty ((hsame hrc).1 h)]
    · have hne : (ofMapping a mapping).logical s ≠ (ofMapping a mapping).logical r := by
        intro heq
        rw [hb.tracks_eq] at hs
        exact hsr (logical_inj fits (DynamicArchitecture.hasComponent_of_isResonator hs) hrc heq)
      rw [ResonatorBank.resolve_setHolder_ne hne, ResonatorBank.resolve_setHolder_ne hsr]
      exact mirrors.resolve hs

section Rerouted

variable (h : (ofMapping a mapping).Reroutes b i j partner moved r)
include h

/-- Under the name of its resonator a rerouted gate finds the qubit that was moved. -/
theorem resolve_of_reroutes :
    l.resolve ((ofMapping a mapping).logical r) = (ofMapping a mapping).logical moved ∧
      (ofMapping a mapping).logical moved ≠ (ofMapping a mapping).logical r := by
  constructor
  · rw [mirrors.resolve (ResonatorBank.tracks_iff.2 ⟨_, h.held⟩),
      ResonatorBank.resolve_of_holder? h.held]
  · intro heq
    have hr := DynamicArchitecture.hasComponent_of_isResonator (hb.isResonator_of_holder? h.held)
    have hmoved := hb.hasComponent_of_mem_qubitsOf checked h.reachable
    exact hb.ne_of_mem_qubitsOf h.reachable (logical_inj fits hmoved hr heq)

variable (free : ∀ q ∈ (ofMapping a mapping).locus i, a.isResonator q = false)
include free

omit checked in
theorem not_tracks_partner : l.tracks ((ofMapping a mapping).logical partner) = false :=
  mirrors.not_tracks fits hb (hasComponent_of_mem_locus fits h.mapped h.partner_mem)
    (free partner h.partner_mem)

/-- The resonator of a rerouted gate is not empty. -/
theorem emptyResonatorIn?_of_reroutes : emptyResonatorIn? l j.qubits = none := by
  obtain ⟨hresolve, hne⟩ := mirrors.resolve_of_reroutes fits hb checked h
  have hpartner := mirrors.not_tracks_partner fits hb h free
  rw [h.replacement, emptyResonatorIn?_eq_none_iff]
  intro c hc hheld
  rcases List.mem_cons.1 hc with rfl | hc
  · exact absurd rfl (ResonatorBank.ne_of_not_tracks hpartner hheld)
  · rw [List.mem_singleton.1 hc] at hheld
    rw [ResonatorBank.resolve_of_holder? hheld] at hresolve
    exact hne hresolve.symm

theorem resolveInstruction_of_reroutes : resolveInstruction l j =
    .cz ((ofMapping a mapping).logical partner) ((ofMapping a mapping).logical moved) := by
  obtain ⟨hresolve, hne⟩ := mirrors.resolve_of_reroutes fits hb checked h
  have hpartner := mirrors.not_tracks_partner fits hb h free
  rw [h.replacement, resolveInstruction, if_neg]
  · show Instruction.cz _ _ = _
    rw [ResonatorBank.resolve_of_not_tracks hpartner, hresolve]
  · show ¬ [l.resolve _, l.resolve _] = [_, _]
    rw [ResonatorBank.resolve_of_not_tracks hpartner, hresolve]
    simpa using hne

/-- A controlled-Z on a resonator is seen as one on the qubit whose state is there. -/
theorem restored_of_reroutes :
    (ofMapping a mapping).Restored (i, resolveInstruction l j) j := by
  obtain ⟨p, q, haction⟩ := Instruction.isCz_iff.1 h.cz
  rw [mirrors.resolveInstruction_of_reroutes fits hb checked h free, h.replacement]
  refine .rerouted haction (hb.isResonator_of_holder? h.held) ?_
  rcases h.ends fits haction with ⟨hp, hq⟩ | ⟨hq, hp⟩
  · rw [hp, hq]
    exact Or.inl rfl
  · rw [hp, hq]
    exact Or.inr rfl

end Rerouted

end Serving

end Mirrors

/-! ### The whole run -/

/-- **Removal follows the run back**: it is never in doubt about a resonator, and every instruction
of the source comes back. -/
theorem Routes.restored (run : (ofMapping a mapping).Routes b source out b')
    (fits : (mapping.getD .empty).Fits a) (checked : a.check = .ok ()) (hb : b.Serves a)
    (mirrors : (ofMapping a mapping).Mirrors b l)
    (listed : ∀ i ∈ out, ∀ q r, i.action = .move q r → q ∈ l.qubitsOf r)
    (noMoves : ∀ i ∈ source, i.isMove = false)
    (free : ∀ i ∈ source, ∀ q ∈ (ofMapping a mapping).locus i, a.isResonator q = false)
    (circuit : String) :
    checkRemovable l out = .ok () ∧ ∃ back, (removeFrom circuit l out).result = .ok back ∧
      back.length = source.length ∧
      List.Forall₂ (ofMapping a mapping).Restored (source.zip back)
        (out.filter fun i => !i.isMove) := by
  -- the bank of the removal is generalized: it goes on with the MOVEs of the run
  induction run generalizing l with
  | done => exact ⟨rfl, [], rfl, rfl, .nil⟩
  | @move b b₁ b' q r source out applied _ _ ih =>
      rw [List.forall_mem_cons] at listed
      obtain ⟨l₁, hl₁, mirrors₁⟩ := mirrors.applied fits hb checked applied (listed.1 _ _ rfl)
      have hqubits := ResonatorBank.qubitsOf_applied hl₁
      have happly : l.apply ((ofMapping a mapping).logical q) ((ofMapping a mapping).logical r) =
          .ok l₁ := ResonatorBank.apply_eq_ok_iff.2 hl₁
      obtain ⟨hcheck, back, hback, hlength, hrestored⟩ :=
        ih (hb.applied applied) mirrors₁ (by rw [hqubits]; exact listed.2) noMoves free
      refine ⟨?_, back, ?_, hlength, hrestored⟩
      · rw [checkRemovable_move rfl, happly]
        exact hcheck
      · rw [removeFrom_result_move circuit rfl, happly]
        exact hback
  | @follow b b₁ b' i q r source out _ moves _ _ _ _ =>
      exact absurd moves
        (Instruction.isMove_eq_false_iff.1 (noMoves i List.mem_cons_self) q r)
  | @keep b b' i source out kept _ ih =>
      rw [List.forall_mem_cons] at listed noMoves free
      obtain ⟨hcheck, back, hback, hlength, hrestored⟩ :=
        ih hb mirrors listed.2 noMoves.2 free.2
      have hfree := mirrors.not_tracks_of_mem fits hb kept.mapped free.1
      refine ⟨?_, i :: back, ?_, ?_, ?_⟩
      · rw [checkRemovable_other kept.other (emptyResonatorIn?_of_not_tracks hfree)]
        exact hcheck
      · rw [removeFrom_result_other circuit kept.other, hback,
          resolveInstruction_of_not_tracks hfree]
        rfl
      · rw [List.length_cons, List.length_cons, hlength]
      · rw [List.filter_cons_of_pos (by rw [kept.other]; rfl), List.zip_cons_cons]
        exact .cons (.kept i) hrestored
  | @reroute b b' i j partner moved r source out rerouted _ ih =>
      rw [List.forall_mem_cons] at listed noMoves free
      obtain ⟨hcheck, back, hback, hlength, hrestored⟩ :=
        ih hb mirrors listed.2 noMoves.2 free.2
      have hempty := mirrors.emptyResonatorIn?_of_reroutes fits hb checked rerouted free.1
      have hj := mirrors.restored_of_reroutes fits hb checked rerouted free.1
      have hother := rerouted.not_isMove
      refine ⟨?_, resolveInstruction l j :: back, ?_, ?_, ?_⟩
      · rw [checkRemovable_other hother hempty]
        exact hcheck
      · rw [removeFrom_result_other circuit hother, hback]
        rfl
      · rw [List.length_cons, List.length_cons, hlength]
      · rw [List.filter_cons_of_pos (by rw [hother]; rfl), List.zip_cons_cons]
        exact .cons hj hrestored

/-- A circuit without MOVEs comes back as it is. -/
theorem restored_self (x : RoutingContext) (hother : ∀ i ∈ source, i.isMove = false) :
    List.Forall₂ x.Restored (source.zip source) (source.filter fun i => !i.isMove) := by
  induction source with
  | nil => exact .nil
  | cons i rest ih =>
      rw [List.forall_mem_cons] at hother
      rw [List.filter_cons_of_pos (by rw [hother.1]; rfl), List.zip_cons_cons]
      exact .cons (.kept i) (ih hother.2)

end RoutingContext

/-- **Removal takes back insertion.** Whatever is inserted into a circuit without MOVEs can be
removed again, and what comes back is the circuit: its name, its metadata and each instruction,
except that a controlled-Z that went through a resonator may have its components exchanged and asks
for no implementation. -/
theorem removeMoves_insertMoves {c c' : Circuit} {existing : Option ExistingMoves}
    (checked : a.check = .ok ()) (moves : a.MovesIntoResonators)
    (fits : (mapping.getD .empty).Fits a) (noMoves : c.containsMoves = false)
    (free : ∀ i ∈ c.instructions, ∀ q ∈ i.qubits, ∀ p,
      ((mapping.getD .empty).complete a).get? q = some p → a.isResonator p = false)
    (h : (insertMoves c a existing mapping).result = .ok c') :
    removalPrecondition c' = .ok () ∧ ∃ d, (removeMoves c').result = .ok d ∧
      d.name = c.name ∧ d.metadata = c.metadata ∧
      d.instructions.length = c.instructions.length ∧
      List.Forall₂ (RoutingContext.ofMapping a mapping).Restored
        (c.instructions.zip d.instructions) (c'.instructions.filter fun i => !i.isMove) := by
  have hother := Circuit.containsMoves_eq_false_iff.1 noMoves
  rcases routes_of_insertMoves checked moves noMoves h with
    ⟨-, rfl⟩ | ⟨hname, hmetadata, b', run, -⟩
  · exact ⟨removalPrecondition_of_not_containsMoves noMoves, c', removeMoves_result_self noMoves,
      rfl, rfl, rfl, RoutingContext.restored_self _ hother⟩
  · have hfree : ∀ i ∈ c.instructions, ∀ q ∈ (RoutingContext.ofMapping a mapping).locus i,
        a.isResonator q = false := by
      intro i hi q hq
      obtain ⟨l, hl, rfl⟩ := List.mem_map.1 hq
      obtain ⟨p, hp⟩ := Table.contains_iff.1 (run.mapped i hi l hl)
      rw [renamed_of_get? hp]
      exact free i hi l hl p hp
    obtain ⟨hcheck, back, hback, hlength, hrestored⟩ := run.restored fits checked
      (ResonatorBank.serves_ofArchitecture checked moves) (.start run hother)
      (fun i hi q r hmove => ResonatorBank.mem_qubitsOf_ofInstructions_iff.2 ⟨i, hi, hmove⟩)
      hother hfree c'.name
    have hsome : back ≠ [] := by
      intro hnil
      rw [hnil, List.length_nil] at hlength
      exact c.instructions_ne_nil (List.eq_nil_of_length_eq_zero hlength.symm)
    have hresult := removeMoves_result_of_removeFrom hback hsome
    rw [Circuit.withBody_eq_ok_iff.2 ⟨hsome, rfl⟩] at hresult
    exact ⟨hcheck, _, hresult, hname, hmetadata, hlength, hrestored⟩

/-- One qubit of the star has a name of its own. -/
def renamedStar : QubitMapping := Table.empty.insert "A" "QB1"

theorem get?_renamedStar (name : String) :
    renamedStar.get? name = if name = "A" then some "QB1" else none := by
  rw [renamedStar, Table.get?_insert, Table.get?_empty]

theorem fits_renamedStar : renamedStar.Fits (starArchitecture 3) where
  injective := by
    intro l l' p h h'
    rw [get?_renamedStar, Option.ite_none_right_eq_some] at h h'
    rw [h.1, h'.1]
  component := by
    intro l p h
    rw [get?_renamedStar, Option.ite_none_right_eq_some, Option.some.injEq] at h
    rw [← h.2]
    decide +kernel
  unclaimed := by
    intro l p h hcomponent
    rw [get?_renamedStar, Option.ite_none_right_eq_some] at h
    rw [h.1] at hcomponent
    exact absurd hcomponent (by decide +kernel)

theorem removeMoves_insertMoves_chain :
    removalPrecondition (routedChainOn "A") = .ok () ∧
      ∃ d, (removeMoves (routedChainOn "A")).result = .ok d ∧ d.name = (chainOn "A").name ∧
        d.metadata = (chainOn "A").metadata ∧
        d.instructions.length = (chainOn "A").instructions.length ∧
        List.Forall₂ (RoutingContext.ofMapping (starArchitecture 3) (some renamedStar)).Restored
          ((chainOn "A").instructions.zip d.instructions)
          ((routedChainOn "A").instructions.filter fun i => !i.isMove) := by
  have hrouted : (insertMoves (chainOn "A") (starArchitecture 3) none (some renamedStar)).result =
      .ok (routedChainOn "A") := by cbv
  refine removeMoves_insertMoves (check_star 3) (movesIntoResonators_star 3) fits_renamedStar rfl
    ?_ hrouted
  intro i hi q hq p hp
  rw [← Bool.not_eq_true, isResonator_star_iff]
  intro hresonator
  subst hresonator
  rcases QubitMapping.get?_complete_cases hp with h | ⟨rfl, -, -⟩
  · rw [Option.getD_some, get?_renamedStar, Option.ite_none_right_eq_some] at h
    exact absurd h.2 (by decide)
  · have hfree : ∀ i ∈ (chainOn "A").instructions, starResonator ∉ i.qubits := by decide +kernel
    exact hfree i hi hq

end StarQpu
