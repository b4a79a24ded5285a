import StarQpu.Proofs.Routing.Following
import StarQpu.Proofs.Routing.RoundTrip

/-!
# StarQpu.Proofs.Routing.Removed

**What removal makes of a list.** Removal has a bank of its own, which knows only the resonators of
the MOVEs in the list. As long as a bank of the architecture follows the list the two agree, so
removal succeeds and puts into the place of each resonator the occupant that the resonator has in
the view of the instruction (`Follows.removeFrom_result`). What it leaves has no MOVE, so from there
on it makes no difference how MOVEs are to be treated (`insertMoves_of_removeMoves`).
-/

namespace StarQpu

variable {a : DynamicArchitecture} {b b' l : ResonatorBank} {c d : Circuit} {i : Instruction}
  {f g : String → String} {q r : String} {p : Placement} {out : List Instruction}

/-! ### Other components -/

namespace Instruction

/-- The instruction on other components; if they are others indeed, it asks for no
implementation. -/
def resolvedBy (f : String → String) (i : Instruction) : Instruction :=
  if i.qubits.map f = i.qubits then i else (i.mapQubits f).withoutImplementation

/-- Removal finds its components with a bank. -/
theorem resolveInstruction_eq (b : ResonatorBank) (i : Instruction) :
    resolveInstruction b i = i.resolvedBy b.resolve := rfl

@[simp] theorem qubits_resolvedBy (f : String → String) (i : Instruction) :
    (i.resolvedBy f).qubits = i.qubits.map f := by
  rw [resolvedBy]
  split
  next hsame => exact hsame.symm
  next => exact qubits_mapQubits f i

@[simp] theorem name_resolvedBy (f : String → String) (i : Instruction) :
    (i.resolvedBy f).name = i.name := by
  rw [resolvedBy]
  split
  next => rfl
  next => exact name_mapQubits f i

@[simp] theorem args_resolvedBy (f : String → String) (i : Instruction) :
    (i.resolvedBy f).args = i.args := by
  rw [resolvedBy]
  split
  next => rfl
  next => exact args_mapQubits f i

@[simp] theorem isCz_resolvedBy (f : String → String) (i : Instruction) :
    (i.resolvedBy f).isCz = i.isCz := by
  rw [Bool.eq_iff_iff, ← name_eq_cz_iff, ← name_eq_cz_iff, name_resolvedBy]

theorem resolvedBy_congr (h : ∀ q ∈ i.qubits, f q = g q) : i.resolvedBy f = i.resolvedBy g := by
  rw [resolvedBy, resolvedBy, List.map_congr_left h, mapQubits_congr h]

end Instruction

/-- What removal finds under a name: for a resonator the component whose state it holds. -/
def Placement.occupant (p : Placement) (a : DynamicArchitecture) (c : String) : String :=
  if a.isResonator c = true then p c else c

theorem Placement.occupant_of_isResonator (hr : a.isResonator r = true) :
    p.occupant a r = p r := by
  rw [occupant, if_pos hr]

theorem Placement.occupant_of_not_isResonator (hq : a.isResonator q = false) :
    p.occupant a q = q := by
  have hnot : ¬ a.isResonator q = true := by simp [hq]
  rw [occupant, if_neg hnot]

/-- The instructions on the occupants of their resonators. -/
def DynamicArchitecture.removed (a : DynamicArchitecture)
    (views : List (Instruction × Placement)) : List Instruction :=
  views.map fun e => e.1.resolvedBy (e.2.occupant a)

/-! ### Removal along a bank -/

namespace RoutingContext

/-- The banks agree on every component, as far as it is a resonator of the list. -/
theorem Mirrors.resolve_eq_occupant (mirrors : (ofMapping a none).Mirrors b l) (hb : b.Serves a)
    (c : String) : l.resolve c = b.placement.occupant a c := by
  cases hc : a.isResonator c with
  | true =>
      rw [← hb.tracks_eq] at hc
      obtain ⟨h, hheld⟩ := ResonatorBank.tracks_iff.1 hc
      have hresolve := mirrors.resolve hc
      rw [logical_plain, logical_plain, ResonatorBank.resolve_of_holder? hheld] at hresolve
      rw [hb.tracks_eq] at hc
      rw [hresolve, Placement.occupant_of_isResonator hc,
        ResonatorBank.placement_of_holder? hheld]
  | false =>
      rw [Placement.occupant_of_not_isResonator hc]
      refine ResonatorBank.resolve_of_not_tracks ?_
      rw [← Bool.not_eq_true]
      intro htracks
      obtain ⟨r, hr, rfl⟩ := mirrors.tracked htracks
      rw [logical_plain, ← hb.tracks_eq, hr] at hc
      exact absurd hc (by decide)

end RoutingContext

namespace ResonatorBank

/-- **Removal along a bank** succeeds, and puts occupants into the places of resonators. -/
theorem Follows.removeFrom_result (follows : b.Follows out b') (checked : a.check = .ok ())
    (hb : b.Serves a) (mirrors : (RoutingContext.ofMapping a none).Mirrors b l)
    (listed : ∀ i ∈ out, ∀ q r, i.action = .move q r → q ∈ l.qubitsOf r) (circuit : String) :
    (removeFrom circuit l out).result = .ok (a.removed (b.placement.views out)) := by
  -- the bank of the removal goes on with the MOVEs of the list, as the other one does
  induction follows generalizing l with
  | done => rfl
  | @move b b₁ b' i q r out moves applied _ ih =>
      rw [List.forall_mem_cons] at listed
      have fits : QubitMapping.Fits (Option.getD none .empty) a := .empty a
      obtain ⟨l₁, hl₁, mirrors₁⟩ := mirrors.applied fits hb checked applied (by
        rw [RoutingContext.logical_plain, RoutingContext.logical_plain]
        exact listed.1 q r moves)
      rw [RoutingContext.logical_plain, RoutingContext.logical_plain] at hl₁
      have hlisted := listed.2
      rw [← qubitsOf_applied hl₁] at hlisted
      have hmove := Instruction.isMove_iff.2 ⟨q, r, moves⟩
      rw [removeFrom_result_move circuit moves, apply, hl₁, Placement.views_cons_of_move hmove,
        Placement.step_of_action moves, ← placement_applied hb.toSeparated applied]
      exact ih (hb.applied applied) mirrors₁ hlisted
  | @other b b' i out other _ ih =>
      rw [List.forall_mem_cons] at listed
      rw [removeFrom_result_other circuit other, ih hb mirrors listed.2,
        Placement.views_cons_of_not_move other, Instruction.resolveInstruction_eq,
        Instruction.resolvedBy_congr fun q _ => mirrors.resolve_eq_occupant hb q]
      rfl

end ResonatorBank

/-- A circuit that is followed from empty resonators can be freed of its MOVEs. -/
theorem exists_removeMoves_of_follows (checked : a.check = .ok ()) (moves : a.MovesIntoResonators)
    (follows : (ResonatorBank.ofArchitecture a).Follows c.instructions b')
    (hother : ∃ i ∈ c.instructions, i.isMove = false) :
    ∃ d, (removeMoves c).result = .ok d ∧
      d.instructions = a.removed (Placement.own.views c.instructions) := by
  have hb := ResonatorBank.serves_ofArchitecture checked moves
  have mirrors : (RoutingContext.ofMapping a none).Mirrors (.ofArchitecture a)
      (.ofInstructions c.instructions) := by
    refine .start_of_listed fun i hi q r hmove => ⟨r, ?_, (RoutingContext.logical_plain r).symm⟩
    exact ResonatorBank.tracks_of_mem_qubitsOf (follows.mem_qubitsOf hi hmove)
  have hremove := follows.removeFrom_result checked hb mirrors (fun i hi q r hmove =>
    ResonatorBank.mem_qubitsOf_ofInstructions_iff.2 ⟨i, hi, hmove⟩) c.name
  rw [ResonatorBank.placement_own hb.toSeparated (ResonatorBank.atRest_ofArchitecture a)] at hremove
  have hsome : a.removed (Placement.own.views c.instructions) ≠ [] := by
    obtain ⟨i, hi, hi'⟩ := hother
    rw [DynamicArchitecture.removed, ne_eq, List.map_eq_nil_iff]
    exact Placement.views_ne_nil hi' hi
  exact ⟨_, (removeMoves_result_of_removeFrom hremove hsome).trans
    (Circuit.withBody_eq_ok_iff.2 ⟨hsome, rfl⟩), rfl⟩

/-- What removal returns has no MOVE. -/
theorem containsMoves_of_removeMoves (h : (removeMoves c).result = .ok d) :
    d.containsMoves = false := by
  obtain ⟨instructions, hremove, hbody⟩ := removeMoves_result_eq_ok h
  obtain ⟨hsome, rfl⟩ := Circuit.withBody_eq_ok_iff.1 hbody
  exact Circuit.containsMoves_eq_false_iff.2 (not_isMove_of_removeFrom hremove)

/-! ### Insertion after removal -/

section Handling

variable {mapping : Option QubitMapping}

/-- Where nothing is said about the MOVEs of a circuit they are removed. -/
theorem result_insertMoves_none (c : Circuit) (a : DynamicArchitecture)
    (mapping : Option QubitMapping) :
    (insertMoves c a none mapping).result = (insertMoves c a (some .remove) mapping).result := by
  cases hsupport : (ResonatorBank.ofArchitecture a).supportsMove with
  | true =>
      rw [result_insertMoves_of_supportsMove hsupport, result_insertMoves_of_supportsMove hsupport]
      rfl
  | false =>
      cases hmoves : c.containsMoves with
      | true =>
          rw [result_insertMoves_of_containsMoves hmoves hsupport,
            result_insertMoves_of_containsMoves hmoves hsupport, if_pos (Or.inl rfl),
            if_pos (Or.inr rfl)]
      | false => exact result_insertMoves_congr hmoves none (some .remove)

/-- To insert MOVEs after those of the circuit are removed is to insert them into what removal
leaves. -/
theorem result_insertMoves_remove (h : (removeMoves c).result = .ok d) :
    (insertMoves c a (some .remove) mapping).result =
      (insertMoves d a (some .remove) mapping).result := by
  have noMoves := containsMoves_of_removeMoves h
  have hagain : (removeMoves d).result = .ok d := removeMoves_result_self noMoves
  cases hsupport : (ResonatorBank.ofArchitecture a).supportsMove with
  | true =>
      rw [result_insertMoves_of_supportsMove hsupport, result_insertMoves_of_supportsMove hsupport,
        insertionSource, insertionSource, h, hagain]
  | false =>
      rw [result_insertMoves_of_not_supportsMove noMoves hsupport]
      cases hmoves : c.containsMoves with
      | true => rw [result_insertMoves_of_containsMoves hmoves hsupport, if_pos (Or.inr rfl), h]
      | false =>
          rw [removeMoves_result_self hmoves] at h
          rw [result_insertMoves_of_not_supportsMove hmoves hsupport, h]

/-- **Once the MOVEs are removed it makes no difference how MOVEs are to be treated.** Removing
again changes nothing, and insertion into what removal left gives what it gives from the circuit
itself when that one's MOVEs are removed, be it said or unsaid. -/
theorem insertMoves_of_removeMoves (a : DynamicArchitecture) (mapping : Option QubitMapping)
    (h : (removeMoves c).result = .ok d) :
    (removeMoves d).result = .ok d ∧
      (∀ existing, (insertMoves d a existing mapping).result =
        (insertMoves c a (some .remove) mapping).result) ∧
      (c.containsMoves = true → (insertMoves c a none mapping).result =
        (insertMoves c a (some .remove) mapping).result) := by
  have noMoves := containsMoves_of_removeMoves h
  refine ⟨removeMoves_result_self noMoves, fun existing => ?_, fun _ => ?_⟩
  · rw [result_insertMoves_remove h]
    exact result_insertMoves_congr noMoves existing (some .remove)
  · exact result_insertMoves_none c a mapping

/-- What removal leaves of the chain with its MOVEs: the first gate names its qubits the other way
round. -/
def freedChainOn (first : String) : Circuit where
  name := "chain"
  instructions := [.cz "QB2" first, .cz "QB2" "QB3", .barrier ["QB2"], .cz first "QB3",
    .measure [first, "QB2", "QB3"] "m"]
  name_ne_empty := (chainOn first).name_ne_empty
  instructions_ne_nil := List.cons_ne_nil _ _

theorem insertMoves_of_removeMoves_chain :
    (removeMoves (freedChainOn "A")).result = .ok (freedChainOn "A") ∧
      (insertMoves (freedChainOn "A") (starArchitecture 3) (some .keep) (some renamedStar)).result =
        (insertMoves (routedChainOn "A") (starArchitecture 3) (some .remove)
          (some renamedStar)).result ∧
      (insertMoves (routedChainOn "A") (starArchitecture 3) none (some renamedStar)).result =
        (insertMoves (routedChainOn "A") (starArchitecture 3) (some .remove)
          (some renamedStar)).result ∧
      (insertMoves (routedChainOn "A") (starArchitecture 3) none (some renamedStar)).result.isOk =
        true := by
  have hremoved : (removeMoves (routedChainOn "A")).result = .ok (freedChainOn "A") := by cbv
  obtain ⟨hagain, hinsert, hunsaid⟩ :=
    insertMoves_of_removeMoves (starArchitecture 3) (some renamedStar) hremoved
  exact ⟨hagain, hinsert (some .keep), hunsaid (by cbv), by cbv⟩

end Handling

end StarQpu
