import Mathlib.SetTheory.Cardinal.Arithmetic
import StarQpu.Proofs.Renaming.Moves
import StarQpu.Proofs.Renaming.Removal
import StarQpu.Proofs.Renaming.Routing

/-!
# StarQpu.Proofs.Renaming.Insertion

**Insertion does not look at the names of the circuit.** Before the router starts, removal and
strict validation work on the names of the circuit. There the mapping acts as a permutation of all
names (`QubitMapping.Fits.exists_perm`), and both respect permutations. The router itself works on
physical names. So insertion commutes with translation into physical names
(`insertMoves_mapQubits`).
-/

namespace StarQpu

variable {a : DynamicArchitecture} {m : QubitMapping} {mapping : Option QubitMapping} {c : Circuit}
  {q : String}

/-! ### A mapping as a permutation -/

/-- An injective mapping is part of a permutation of all names. -/
theorem QubitMapping.Injective.exists_perm (injective : m.Injective) :
    ∃ g : Equiv.Perm String, ∀ q p, m.get? q = some p → g q = p := by
  have hfinite : {q | m.contains q = true}.Finite := by
    refine (List.finite_toSet m.keys).subset fun q hq => ?_
    obtain ⟨p, hp⟩ := Table.contains_iff.1 hq
    exact Table.mem_keys_of_get? hp
  have hinj : Function.Injective fun q : {q | m.contains q = true} => renamed m q := by
    intro q q' heq
    obtain ⟨p, hp⟩ := Table.contains_iff.1 q.2
    obtain ⟨p', hp'⟩ := Table.contains_iff.1 q'.2
    simp only [renamed_of_get? hp, renamed_of_get? hp'] at heq
    subst heq
    exact Subtype.ext (injective hp hp')
  have hsmall : Cardinal.mk {q | m.contains q = true} < Cardinal.mk String :=
    (Cardinal.lt_aleph0_iff_set_finite.2 hfinite).trans_le (Cardinal.aleph0_le_mk String)
  obtain ⟨g, hg⟩ := Cardinal.extend_function_of_lt ⟨_, hinj⟩ hsmall ⟨Equiv.refl String⟩
  refine ⟨g, fun q p hp => ?_⟩
  rw [hg ⟨q, Table.contains_iff.2 ⟨p, hp⟩⟩]
  exact renamed_of_get? hp

/-- On the names with an entry a mapping is a permutation of all names; its inverse leads from
components to the names of the circuit. -/
theorem QubitMapping.Fits.exists_perm (fits : (mapping.getD .empty).Fits a) :
    ∃ g : Equiv.Perm String,
      (∀ i, (RoutingContext.ofMapping a mapping).Mapped i → ∀ q ∈ i.qubits,
        renamed (RoutingContext.ofMapping a mapping).mapping q = g q) ∧
      ∀ c, a.hasComponent c = true → (RoutingContext.ofMapping a mapping).logical c = g.symm c := by
  obtain ⟨g, hg⟩ := QubitMapping.Injective.exists_perm fits.complete_injective
  refine ⟨g, fun i hi q hq => ?_, fun c hc => ?_⟩
  · obtain ⟨p, hp⟩ := Table.contains_iff.1 (hi q hq)
    rw [renamed_of_get? hp, hg q p hp]
  · rw [Equiv.eq_symm_apply]
    exact hg _ c (fits.get?_renamed_inverse hc)

/-! ### Circuits -/

section Circuits

variable (fits : (mapping.getD .empty).Fits a)
  (hmapped : ∀ i ∈ c.instructions, (RoutingContext.ofMapping a mapping).Mapped i)
include fits hmapped

/-- Removal, before or after the translation. -/
theorem toOption_removeMoves :
    (removeMoves
        (c.mapQubits (renamed (RoutingContext.ofMapping a mapping).mapping))).result.toOption =
      (removeMoves c).result.toOption.map
        (Circuit.mapQubits (renamed (RoutingContext.ofMapping a mapping).mapping)) := by
  obtain ⟨g, hg, -⟩ := fits.exists_perm
  rw [Circuit.mapQubits_congr fun i hi => hg i (hmapped i hi), removeMoves_mapQubits g.injective,
    toOption_map]
  cases h : (removeMoves c).result with
  | error e => rfl
  | ok d =>
      have hd := forall_of_removeMoves hmapped h
      exact congrArg some (Circuit.mapQubits_congr fun i hi => hg i (hd i hi)).symm

/-- Strict validation, before or after the translation. -/
theorem validateMoves_mapQubits_iff (mode : MoveValidation) :
    validateMoves a (c.mapQubits (renamed (RoutingContext.ofMapping a mapping).mapping))
        (some (RoutingContext.ofMapping a none).mapping) mode = .ok () ↔
      validateMoves a c (some (RoutingContext.ofMapping a mapping).mapping) mode = .ok () := by
  obtain ⟨g, hg, hlogical⟩ := fits.exists_perm
  have hnames : ∀ p, a.hasComponent p = true →
      renamed (RoutingContext.ofMapping a none).mapping.inverse p =
        g (renamed (RoutingContext.ofMapping a mapping).mapping.inverse p) := by
    intro p hp
    have hplain : renamed (RoutingContext.ofMapping a none).mapping.inverse p = p :=
      RoutingContext.logical_plain p
    have hinverse : renamed (RoutingContext.ofMapping a mapping).mapping.inverse p = g.symm p :=
      hlogical p hp
    rw [hplain, hinverse, g.apply_symm_apply]
  rw [Circuit.mapQubits_congr fun i hi => hg i (hmapped i hi)]
  constructor
  · intro h
    have hself : (c.mapQubits g).instructions.map (·.mapQubits g.symm) = c.instructions :=
      map_mapQubits_symm g c.instructions
    have hback : validateMoveList a ((c.mapQubits g).instructions.map (·.mapQubits g.symm))
        (some (RoutingContext.ofMapping a mapping).mapping) mode = .ok () :=
      validateMoveList_mapQubits (fun p hp => by rw [hnames p hp, g.symm_apply_apply]) h
    rw [hself] at hback
    exact hback
  · exact validateMoveList_mapQubits hnames

theorem toOption_insertionSource (existing : Option ExistingMoves) :
    (insertionSource (RoutingContext.ofMapping a none)
        (c.mapQubits (renamed (RoutingContext.ofMapping a mapping).mapping))
        existing).result.toOption =
      (insertionSource (RoutingContext.ofMapping a mapping) c existing).result.toOption.map
        (Circuit.mapQubits (renamed (RoutingContext.ofMapping a mapping).mapping)) := by
  cases existing with
  | none => exact toOption_removeMoves fits hmapped
  | some e =>
      cases e with
      | remove => exact toOption_removeMoves fits hmapped
      | trust => rfl
      | keep =>
          refine Option.ext fun d => ?_
          have hvalid := validateMoves_mapQubits_iff fits hmapped .strict
          simp only [Option.map_eq_some_iff, toOption_eq_some_iff, insertionSource_keep_eq_ok_iff]
          constructor
          · intro h
            exact ⟨c, ⟨hvalid.1 h.1, rfl⟩, h.2.symm⟩
          · intro h
            obtain ⟨s, ⟨h, rfl⟩, rfl⟩ := h
            exact ⟨hvalid.2 h, rfl⟩

omit fits in
theorem mapped_of_insertionSource {s : Circuit} {existing : Option ExistingMoves}
    (h : (insertionSource (RoutingContext.ofMapping a mapping) c existing).result = .ok s) :
    ∀ i ∈ s.instructions, (RoutingContext.ofMapping a mapping).Mapped i := by
  cases existing with
  | none => exact forall_of_removeMoves hmapped h
  | some e =>
      cases e with
      | remove => exact forall_of_removeMoves hmapped h
      | trust => exact (Except.ok.inj h : c = s) ▸ hmapped
      | keep => exact (insertionSource_keep_eq_ok_iff.1 h).2 ▸ hmapped

end Circuits

/-- One circuit with MOVEs inserted, before or after the translation. -/
theorem toOption_insertInto_withBody {s : Circuit} (fits : (mapping.getD .empty).Fits a)
    (hmapped : ∀ i ∈ s.instructions, (RoutingContext.ofMapping a mapping).Mapped i) :
    (((RoutingContext.ofMapping a none).insertInto
        (s.mapQubits (renamed (RoutingContext.ofMapping a mapping).mapping)).instructions).bind
      (s.mapQubits (renamed (RoutingContext.ofMapping a mapping).mapping)).withBody).toOption =
    (((RoutingContext.ofMapping a mapping).insertInto s.instructions).bind s.withBody).toOption.map
      (Circuit.mapQubits (renamed (RoutingContext.ofMapping a mapping).mapping)) := by
  rw [toOption_bind, toOption_bind, Circuit.mapQubits,
    RoutingContext.toOption_insertInto fits hmapped]
  cases (RoutingContext.ofMapping a mapping).insertInto s.instructions with
  | error e => rfl
  | ok out =>
      show ((s.mapQubits _).withBody (out.map _)).toOption = (s.withBody out).toOption.map _
      rw [Circuit.withBody_mapQubits, toOption_map]

theorem toOption_insertMoves_of_supportsMove (fits : (mapping.getD .empty).Fits a)
    (hmapped : ∀ i ∈ c.instructions, (RoutingContext.ofMapping a mapping).Mapped i)
    (hsupport : (ResonatorBank.ofArchitecture a).supportsMove = true)
    (existing : Option ExistingMoves) :
    (insertMoves (c.mapQubits (renamed (RoutingContext.ofMapping a mapping).mapping)) a existing
        none).result.toOption =
      (insertMoves c a existing mapping).result.toOption.map
        (Circuit.mapQubits (renamed (RoutingContext.ofMapping a mapping).mapping)) := by
  rw [result_insertMoves_of_supportsMove hsupport, result_insertMoves_of_supportsMove hsupport,
    toOption_bind, toOption_bind, toOption_insertionSource fits hmapped]
  cases h : (insertionSource (RoutingContext.ofMapping a mapping) c existing).result with
  | error e => rfl
  | ok s => exact toOption_insertInto_withBody fits (mapped_of_insertionSource hmapped h)

theorem toOption_insertMoves_of_not_supportsMove (fits : (mapping.getD .empty).Fits a)
    (hmapped : ∀ i ∈ c.instructions, (RoutingContext.ofMapping a mapping).Mapped i)
    (hsupport : (ResonatorBank.ofArchitecture a).supportsMove = false)
    (existing : Option ExistingMoves) :
    (insertMoves (c.mapQubits (renamed (RoutingContext.ofMapping a mapping).mapping)) a existing
        none).result.toOption =
      (insertMoves c a existing mapping).result.toOption.map
        (Circuit.mapQubits (renamed (RoutingContext.ofMapping a mapping).mapping)) := by
  cases hmoves : c.containsMoves with
  | false =>
      rw [result_insertMoves_of_not_supportsMove hmoves hsupport,
        result_insertMoves_of_not_supportsMove (by simpa using hmoves) hsupport]
      rfl
  | true =>
      rw [result_insertMoves_of_containsMoves hmoves hsupport,
        result_insertMoves_of_containsMoves (by simpa using hmoves) hsupport]
      by_cases hremove : existing = none ∨ existing = some .remove
      · rw [if_pos hremove, if_pos hremove]
        exact toOption_removeMoves fits hmapped
      · rw [if_neg hremove, if_neg hremove]
        rfl

/-- All names of a result have entries if all names of the circuit do. -/
theorem mapped_of_insertMoves {c' : Circuit} {existing : Option ExistingMoves}
    (fits : (mapping.getD .empty).Fits a)
    (hmapped : ∀ i ∈ c.instructions, (RoutingContext.ofMapping a mapping).Mapped i)
    (h : (insertMoves c a existing mapping).result = .ok c') :
    ∀ i ∈ c'.instructions, (RoutingContext.ofMapping a mapping).Mapped i := by
  cases hsupport : (ResonatorBank.ofArchitecture a).supportsMove with
  | false =>
      cases hmoves : c.containsMoves with
      | false =>
          rw [result_insertMoves_of_not_supportsMove hmoves hsupport, Except.ok.injEq] at h
          exact h ▸ hmapped
      | true =>
          rw [result_insertMoves_of_containsMoves hmoves hsupport] at h
          split at h
          next => exact forall_of_removeMoves hmapped h
          next => simp at h
  | true =>
      rw [result_insertMoves_of_supportsMove hsupport, bind_eq_ok_iff] at h
      obtain ⟨s, -, h⟩ := h
      obtain ⟨out, hinsert, h⟩ := bind_eq_ok_iff.1 h
      obtain ⟨-, rfl⟩ := Circuit.withBody_eq_ok_iff.1 h
      obtain ⟨b', run, -⟩ := RoutingContext.writes_of_insertInto fits hinsert
      exact run.mapped fits (ResonatorBank.within_ofArchitecture a)

/-- **Insertion commutes with translation into physical names.** For a mapping that fits the
architecture and a circuit in its names, inserting MOVEs with the mapping succeeds exactly when
inserting them into the physical circuit does, and the one result is the other one in physical
names. -/
theorem insertMoves_mapQubits (fits : m.Fits a)
    (hmapped : ∀ i ∈ c.instructions, ∀ q ∈ i.qubits, (m.complete a).contains q = true)
    (existing : Option ExistingMoves) :
    (insertMoves (c.mapQubits (renamed (m.complete a))) a existing none).result.toOption =
        (insertMoves c a existing (some m)).result.toOption.map
          (Circuit.mapQubits (renamed (m.complete a))) ∧
      ∀ c', (insertMoves c a existing (some m)).result = .ok c' →
        ∀ i ∈ c'.instructions, ∀ q ∈ i.qubits, (m.complete a).contains q = true := by
  have hfits : ((some m).getD .empty).Fits a := fits
  refine ⟨?_, fun c' h => mapped_of_insertMoves hfits hmapped h⟩
  cases hsupport : (ResonatorBank.ofArchitecture a).supportsMove with
  | false => exact toOption_insertMoves_of_not_supportsMove hfits hmapped hsupport existing
  | true => exact toOption_insertMoves_of_supportsMove hfits hmapped hsupport existing

/-- Two qubits of the star have each other's names. -/
def crossedStar : QubitMapping := (Table.empty.insert "QB1" "QB2").insert "QB2" "QB1"

theorem get?_crossedStar (name : String) : crossedStar.get? name =
    if name = "QB2" then some "QB1" else if name = "QB1" then some "QB2" else none := by
  rw [crossedStar, Table.get?_insert, Table.get?_insert, Table.get?_empty]

theorem get?_crossedStar_eq_some_iff {name p : String} : crossedStar.get? name = some p ↔
    name = "QB2" ∧ p = "QB1" ∨ name = "QB1" ∧ p = "QB2" := by
  rw [get?_crossedStar]
  by_cases h : name = "QB2"
  · simp [h, eq_comm]
  · by_cases h' : name = "QB1"
    · simp [h', eq_comm]
    · simp [h, h']

theorem fits_crossedStar : crossedStar.Fits (starArchitecture 3) where
  injective := by
    intro l l' p h h'
    rw [get?_crossedStar_eq_some_iff] at h h'
    rcases h with ⟨rfl, rfl⟩ | ⟨rfl, rfl⟩ <;> simpa [eq_comm] using h'
  component := by
    intro l p h
    rcases get?_crossedStar_eq_some_iff.1 h with ⟨-, rfl⟩ | ⟨-, rfl⟩ <;> decide +kernel
  unclaimed := by
    intro l p h _
    rw [Table.mem_values_iff]
    rcases get?_crossedStar_eq_some_iff.1 h with ⟨rfl, -⟩ | ⟨rfl, -⟩
    · exact ⟨"QB1", get?_crossedStar_eq_some_iff.2 (Or.inr ⟨rfl, rfl⟩)⟩
    · exact ⟨"QB2", get?_crossedStar_eq_some_iff.2 (Or.inl ⟨rfl, rfl⟩)⟩

/-- Every component is a name of the circuit, its own or the other one's. -/
theorem contains_crossedStar (hq : (starArchitecture 3).hasComponent q = true) :
    (crossedStar.complete (starArchitecture 3)).contains q = true := by
  rw [Table.contains_iff, QubitMapping.get?_complete]
  by_cases htarget : q ∈ crossedStar.values
  · obtain ⟨l, hl⟩ := Table.mem_values_iff.1 htarget
    rcases get?_crossedStar_eq_some_iff.1 hl with ⟨-, rfl⟩ | ⟨-, rfl⟩
    · exact ⟨"QB2", by simp [get?_crossedStar]⟩
    · exact ⟨"QB1", by simp [get?_crossedStar]⟩
  · cases crossedStar.get? q with
    | none => exact ⟨q, by simp [hq, htarget]⟩
    | some p => exact ⟨p, rfl⟩

/-- A sandwich that stays, and a gate that needs another one. -/
def crossedCircuit : Circuit where
  name := "crossed"
  instructions := [.move "QB1" "CR1", .cz "QB3" "CR1", .move "QB1" "CR1", .cz "QB1" "QB2"]
  name_ne_empty := by decide
  instructions_ne_nil := List.cons_ne_nil _ _

/-- What becomes of it under the crossed names. -/
def routedCrossedCircuit : Circuit where
  name := "crossed"
  instructions := [.move "QB1" "CR1", .cz "QB3" "CR1", .move "QB1" "CR1", .move "QB1" "CR1",
    .cz "QB2" "CR1", .move "QB1" "CR1"]
  name_ne_empty := by decide
  instructions_ne_nil := List.cons_ne_nil _ _

theorem insertMoves_mapQubits_crossed :
    (insertMoves crossedCircuit (starArchitecture 3) (some .keep) (some crossedStar)).result =
        .ok routedCrossedCircuit ∧
      (insertMoves (crossedCircuit.mapQubits (renamed (crossedStar.complete (starArchitecture 3))))
        (starArchitecture 3) (some .keep) none).result =
        .ok (routedCrossedCircuit.mapQubits
          (renamed (crossedStar.complete (starArchitecture 3)))) := by
  have hrouted : (insertMoves crossedCircuit (starArchitecture 3) (some .keep)
      (some crossedStar)).result = .ok routedCrossedCircuit := by cbv
  have hcomponents : ∀ i ∈ crossedCircuit.instructions, ∀ q ∈ i.qubits,
      (starArchitecture 3).hasComponent q = true := by decide +kernel
  have hcommutes := (insertMoves_mapQubits fits_crossedStar
    (fun i hi q hq => contains_crossedStar (hcomponents i hi q hq)) (some .keep)).1
  rw [hrouted] at hcommutes
  exact ⟨hrouted, toOption_eq_some_iff.1 hcommutes⟩

end StarQpu
