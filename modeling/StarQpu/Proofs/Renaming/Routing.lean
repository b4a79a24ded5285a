import StarQpu.Proofs.Routing.Writing

/-!
# StarQpu.Proofs.Renaming.Routing

**The router does not look at the names of the circuit.** It chooses and moves by physical names and
only writes in the names of the circuit. So with a mapping it does to a list what it does without
one to the physical list, and `Renders` that in other names: the choice of a pair
(`usablePair?_eq`), one instruction (`route_renders`), all of them (`routeAll_renders`). Physical
names lead back to the names of the circuit, so inserting into a list commutes with translation
(`toOption_insertInto`).
-/

namespace StarQpu

variable {a : DynamicArchitecture} {mapping : Option QubitMapping} {b : ResonatorBank}
  {i j : Instruction} {r moved : String} {qubits : Locus} {source out : List Instruction}

namespace RoutingContext

/-! ### Names of the circuit and physical names -/

/-- Without a mapping the router writes physical names. -/
theorem moveInstructions_eq (x : RoutingContext) (moves : List (String × String)) :
    ResonatorBank.moveInstructions x.names moves =
      (ResonatorBank.moveInstructions (ofMapping a none).names moves).map
        (·.mapQubits x.logical) := by
  have hplain : ∀ c, renamed (ofMapping a none).names c = c := logical_plain
  simp [ResonatorBank.moveInstructions, hplain, Instruction.move, Instruction.mapQubits,
    Action.mapQubits, logical]

theorem locus_mapQubits (x : RoutingContext) (i : Instruction) :
    (ofMapping a none).locus (i.mapQubits (renamed x.mapping)) = x.locus i := by
  rw [locus_plain, Instruction.qubits_mapQubits, locus]

section Fitting

variable (fits : (mapping.getD .empty).Fits a)
include fits

theorem mapped_mapQubits (hmapped : (ofMapping a mapping).Mapped i) :
    (ofMapping a none).Mapped (i.mapQubits (renamed (ofMapping a mapping).mapping)) := by
  rw [mapped_plain_iff, Instruction.qubits_mapQubits]
  intro q hq
  exact hasComponent_of_mem_locus fits hmapped hq

/-- Back from physical names. -/
theorem mapQubits_logical (hmapped : (ofMapping a mapping).Mapped i) :
    (i.mapQubits (renamed (ofMapping a mapping).mapping)).mapQubits
      (ofMapping a mapping).logical = i := by
  rw [Instruction.mapQubits_mapQubits]
  exact Instruction.mapQubits_eq_self fun q hq => (logical_renamed fits (hmapped q hq)).1

theorem mapQubits_physical (hi : (ofMapping a none).Mapped i) :
    (i.mapQubits (ofMapping a mapping).logical).mapQubits (renamed (ofMapping a mapping).mapping) =
      i := by
  rw [mapped_plain_iff] at hi
  rw [Instruction.mapQubits_mapQubits]
  exact Instruction.mapQubits_eq_self fun q hq => (renamed_logical fits (hi q hq)).2

/-- An instruction is checked on its physical locus. -/
theorem validate_mapQubits_iff (hmapped : (ofMapping a mapping).Mapped i) :
    (ofMapping a none).validate (i.mapQubits (renamed (ofMapping a mapping).mapping)) = .ok () ↔
      (ofMapping a mapping).validate i = .ok () := by
  have hcomponents := mapped_plain_iff.1 (mapped_mapQubits fits hmapped)
  rw [validate_plain_iff, DynamicArchitecture.permits_mapQubits, validate,
    validateInstruction_some_eq_ok_iff]
  constructor
  · intro h
    exact ⟨hmapped, Instruction.qubits_mapQubits _ i ▸ h.2⟩
  · intro h
    exact ⟨hcomponents, (Instruction.qubits_mapQubits _ i).symm ▸ h.2⟩

/-! ### Choices -/

/-- A pair can be used under one name exactly when it can be used under the other one. -/
theorem usable_iff (hqubits : ∀ q ∈ qubits, a.hasComponent q = true)
    (hr : a.hasComponent r = true) : (ofMapping a mapping).Usable qubits r moved j ↔
      ∃ k, (ofMapping a none).Usable qubits r moved k ∧
        j = k.mapQubits (ofMapping a mapping).logical := by
  have hvalid : ∀ partner ∈ qubits,
      ((ofMapping a none).validate (.cz partner r) = .ok () ↔ (ofMapping a mapping).validate
        (.cz ((ofMapping a mapping).logical partner) ((ofMapping a mapping).logical r)) =
          .ok ()) := by
    intro partner hpartner
    have hp := renamed_logical fits (hqubits partner hpartner)
    have hr' := renamed_logical fits hr
    have hmapped : (ofMapping a mapping).Mapped
        (.cz ((ofMapping a mapping).logical partner) ((ofMapping a mapping).logical r)) :=
      List.forall_mem_cons.2 ⟨hp.1, List.forall_mem_singleton.2 hr'.1⟩
    rw [← validate_mapQubits_iff fits hmapped]
    simp [Instruction.cz, Instruction.mapQubits, Action.mapQubits, hp.2, hr'.2]
  simp only [Usable, substitute?_eq_some_iff, logical_plain]
  constructor
  · intro h
    obtain ⟨⟨partner, hfind, rfl⟩, hj⟩ := h
    exact ⟨_, ⟨⟨partner, hfind, rfl⟩, (hvalid partner (List.mem_of_find?_eq_some hfind)).2 hj⟩, rfl⟩
  · intro h
    obtain ⟨k, ⟨⟨partner, hfind, rfl⟩, hk⟩, rfl⟩ := h
    exact ⟨⟨partner, hfind, rfl⟩, (hvalid partner (List.mem_of_find?_eq_some hfind)).1 hk⟩

/-- The same pair is chosen, and the gate that replaces the old one is the same under other
names. -/
theorem usablePair?_eq {pairs : List (String × String)}
    (hqubits : ∀ q ∈ qubits, a.hasComponent q = true)
    (hpairs : ∀ p ∈ pairs, a.hasComponent p.1 = true) :
    (ofMapping a mapping).usablePair? qubits pairs =
      ((ofMapping a none).usablePair? qubits pairs).map fun chosen =>
        (chosen.1, chosen.2.1, chosen.2.2.mapQubits (ofMapping a mapping).logical) := by
  induction pairs with
  | nil => rfl
  | cons pair rest ih =>
      obtain ⟨r, moved⟩ := pair
      rw [List.forall_mem_cons] at hpairs
      by_cases husable : ∃ k, (ofMapping a none).Usable qubits r moved k
      · obtain ⟨k, hk⟩ := husable
        rw [usablePair?_cons_of_usable hk,
          usablePair?_cons_of_usable ((usable_iff fits hqubits hpairs.1).2 ⟨k, hk, rfl⟩)]
        rfl
      · rw [usablePair?_cons_of_not_usable (fun k hk => husable ⟨k, hk⟩),
          usablePair?_cons_of_not_usable, ih hpairs.2]
        intro j hj
        obtain ⟨k, hk, -⟩ := (usable_iff fits hqubits hpairs.1).1 hj
        exact husable ⟨k, hk⟩

end Fitting

/-! ### Routing -/

theorem routeAll_cons_plain : (ofMapping a none).routeAll b (i :: source) (i :: source) =
    ((ofMapping a none).route b i ((ofMapping a none).locus i) (i :: source)).bind fun first =>
      ((ofMapping a none).routeAll first.2 source source).bind fun more =>
        .ok (first.1 ++ more.1, more.2) := by
  rw [locus_plain, routeAll]
  rfl

/-- The one computation writes in the names of the circuit what the other one writes in physical
names, and both lead to the same bank. -/
def Renders (x : RoutingContext)
    (written physical : Except RoutingError (List Instruction × ResonatorBank)) : Prop :=
  ∀ out b', written = .ok (out, b') ↔
    ∃ out', physical = .ok (out', b') ∧ out = out'.map (·.mapQubits x.logical)

theorem giveBack_renders (x : RoutingContext) (nodup : b.names.Nodup)
    (scope : Option (List String)) :
    x.Renders (x.giveBack b scope) ((ofMapping a none).giveBack b scope) := by
  intro out b'
  simp only [giveBack_eq_ok_iff nodup]
  constructor
  · intro h
    obtain ⟨hrun, rfl⟩ := h
    exact ⟨_, ⟨hrun, rfl⟩, moveInstructions_eq x _⟩
  · intro h
    obtain ⟨-, ⟨hrun, rfl⟩, rfl⟩ := h
    exact ⟨hrun, (moveInstructions_eq x _).symm⟩

section Fitting

variable (fits : (mapping.getD .empty).Fits a) (hb : b.Within a)
include fits hb

theorem throughResonator_renders (hqubits : ∀ q ∈ qubits, a.hasComponent q = true)
    (lookahead : List Instruction) :
    (ofMapping a mapping).Renders ((ofMapping a mapping).throughResonator b qubits lookahead)
      ((ofMapping a none).throughResonator b qubits lookahead) := by
  intro out b'
  have hpairs : ∀ p ∈ b.rankedPairs (b.sources qubits) lookahead, a.hasComponent p.1 = true := by
    intro p hp
    exact DynamicArchitecture.hasComponent_of_isResonator
      (hb.isResonator_of_mem ((ResonatorBank.mem_rankedPairs_iff hb.nodup).1 hp).2)
  simp only [throughResonator_eq_ok_iff hb.nodup, usablePair?_eq fits hqubits hpairs,
    Option.map_eq_some_iff]
  constructor
  · intro h
    obtain ⟨r, moved, j, ⟨⟨s, p, k⟩, hchosen, heq⟩, hrun, rfl⟩ := h
    obtain ⟨rfl, rfl, rfl⟩ : s = r ∧ p = moved ∧ k.mapQubits (ofMapping a mapping).logical = j := by
      simpa using heq
    refine ⟨_, ⟨s, p, k, hchosen, hrun, rfl⟩, ?_⟩
    rw [List.map_append, ← moveInstructions_eq]
    rfl
  · intro h
    obtain ⟨-, ⟨r, moved, k, hchosen, hrun, rfl⟩, rfl⟩ := h
    refine ⟨r, moved, _, ⟨(r, moved, k), hchosen, rfl⟩, hrun, ?_⟩
    rw [List.map_append, ← moveInstructions_eq]
    rfl

/-- **One instruction.** -/
theorem route_renders (hmapped : (ofMapping a mapping).Mapped i) (lookahead : List Instruction) :
    (ofMapping a mapping).Renders
      ((ofMapping a mapping).route b i ((ofMapping a mapping).locus i) lookahead)
      ((ofMapping a none).route b (i.mapQubits (renamed (ofMapping a mapping).mapping))
        ((ofMapping a none).locus (i.mapQubits (renamed (ofMapping a mapping).mapping)))
        lookahead) := by
  intro out b'
  have hback := giveBack_renders (a := a) (ofMapping a mapping) hb.nodup
    (some (b.holding ((ofMapping a mapping).locus i)))
  have hthrough := throughResonator_renders fits hb
    (fun q => hasComponent_of_mem_locus fits hmapped) lookahead
  have hself := mapQubits_logical fits hmapped
  simp only [route_eq_ok_iff]
  simp only [locus_mapQubits, Instruction.isCz_mapQubits, Instruction.isMove_mapQubits,
    mapQubits_plain, ne_eq, validate_mapQubits_iff fits hmapped]
  constructor
  · intro h
    rcases h with ⟨hsome, hcz, hmove, back, h, rfl⟩ | ⟨hready, hvalid, h, rfl⟩ | ⟨hcz, hinvalid, h⟩
    · obtain ⟨back', h', rfl⟩ := (hback _ _).1 h
      exact ⟨_, Or.inl ⟨hsome, hcz, hmove, back', h', rfl⟩, by simp [hself]⟩
    · exact ⟨_, Or.inr (Or.inl ⟨hready, hvalid, h, rfl⟩), by simp [hself]⟩
    · obtain ⟨out', h', rfl⟩ := (hthrough _ _).1 h
      exact ⟨out', Or.inr (Or.inr ⟨hcz, hinvalid, h'⟩), rfl⟩
  · intro h
    obtain ⟨out', h, rfl⟩ := h
    rcases h with ⟨hsome, hcz, hmove, back, h, rfl⟩ | ⟨hready, hvalid, h, rfl⟩ | ⟨hcz, hinvalid, h⟩
    · refine Or.inl ⟨hsome, hcz, hmove, _, (hback _ _).2 ⟨back, h, rfl⟩, ?_⟩
      simp [hself]
    · exact Or.inr (Or.inl ⟨hready, hvalid, h, by simp [hself]⟩)
    · exact Or.inr (Or.inr ⟨hcz, hinvalid, (hthrough _ _).2 ⟨out', h, rfl⟩⟩)

omit hb in
/-- **All instructions**, each from the bank that the ones before it lead to. -/
theorem routeAll_renders (hb : b.Within a)
    (hmapped : ∀ i ∈ source, (ofMapping a mapping).Mapped i) :
    (ofMapping a mapping).Renders
      ((ofMapping a mapping).routeAll b source
        (source.map (·.mapQubits (renamed (ofMapping a mapping).mapping))))
      ((ofMapping a none).routeAll b
        (source.map (·.mapQubits (renamed (ofMapping a mapping).mapping)))
        (source.map (·.mapQubits (renamed (ofMapping a mapping).mapping)))) := by
  induction source generalizing b with
  | nil =>
      intro out b'
      simp [routeAll_nil, and_comm]
  | cons i rest ih =>
      intro out b'
      rw [List.forall_mem_cons] at hmapped
      have hroute := route_renders fits hb hmapped.1
        ((i :: rest).map (·.mapQubits (renamed (ofMapping a mapping).mapping)))
      rw [routeAll_cons, List.map_cons, routeAll_cons_plain]
      simp only [bind_eq_ok_iff, Prod.exists, Except.ok.injEq, Prod.mk.injEq]
      constructor
      · intro h
        obtain ⟨first, next, hfirst, more, last, hmore, rfl, rfl⟩ := h
        have hnext := (writes_of_route fits hb hmapped.1 hfirst).within fits hb
        obtain ⟨first', hfirst', rfl⟩ := (hroute _ _).1 hfirst
        obtain ⟨more', hmore', rfl⟩ := (ih hnext hmapped.2 _ _).1 hmore
        exact ⟨_, ⟨first', next, hfirst', more', last, hmore', rfl, rfl⟩, by simp⟩
      · intro h
        obtain ⟨-, ⟨first, next, hfirst, more, last, hmore, rfl, rfl⟩, rfl⟩ := h
        have hrouted := (hroute _ _).2 ⟨first, hfirst, rfl⟩
        have hnext := (writes_of_route fits hb hmapped.1 hrouted).within fits hb
        exact ⟨_, next, hrouted, _, last, (ih hnext hmapped.2 _ _).2 ⟨more, hmore, rfl⟩, by simp,
          rfl⟩

end Fitting

section Fitting

variable (fits : (mapping.getD .empty).Fits a)
include fits

theorem insertInto_eq_ok_iff_plain (hmapped : ∀ i ∈ source, (ofMapping a mapping).Mapped i) :
    (ofMapping a mapping).insertInto source = .ok out ↔
      ∃ out', (ofMapping a none).insertInto
          (source.map (·.mapQubits (renamed (ofMapping a mapping).mapping))) = .ok out' ∧
        out = out'.map (·.mapQubits (ofMapping a mapping).logical) := by
  have plain : ((none : Option QubitMapping).getD .empty).Fits a := .empty a
  have hphysical : ∀ i ∈ source.map (·.mapQubits (renamed (ofMapping a mapping).mapping)),
      (ofMapping a none).Mapped i := by
    intro i hi
    obtain ⟨k, hk, rfl⟩ := List.mem_map.1 hi
    exact mapped_mapQubits fits (hmapped k hk)
  have hrouted := routeAll_renders fits (ResonatorBank.within_ofArchitecture a) hmapped
  simp only [insertInto_eq_ok_iff_applyAll fits, insertInto_eq_ok_iff_applyAll plain,
    map_mapQubits_plain, and_iff_right hmapped, and_iff_right hphysical]
  constructor
  · intro h
    obtain ⟨first, b, b', hfirst, hback, rfl⟩ := h
    obtain ⟨first', hfirst', rfl⟩ := (hrouted _ _).1 hfirst
    exact ⟨_, ⟨first', b, b', hfirst', hback, rfl⟩, by simp [← moveInstructions_eq]⟩
  · intro h
    obtain ⟨-, ⟨first, b, b', hfirst, hback, rfl⟩, rfl⟩ := h
    exact ⟨_, b, b', (hrouted _ _).2 ⟨first, hfirst, rfl⟩, hback, by simp [← moveInstructions_eq]⟩

/-- **Inserting commutes with translation** for a list of instructions. -/
theorem toOption_insertInto (hmapped : ∀ i ∈ source, (ofMapping a mapping).Mapped i) :
    ((ofMapping a none).insertInto
        (source.map (·.mapQubits (renamed (ofMapping a mapping).mapping)))).toOption =
      ((ofMapping a mapping).insertInto source).toOption.map
        (List.map (·.mapQubits (renamed (ofMapping a mapping).mapping))) := by
  have plain : ((none : Option QubitMapping).getD .empty).Fits a := .empty a
  -- what is written without a mapping are physical names
  have hback : ∀ out, (ofMapping a none).insertInto
      (source.map (·.mapQubits (renamed (ofMapping a mapping).mapping))) = .ok out →
      (out.map (·.mapQubits (ofMapping a mapping).logical)).map
        (·.mapQubits (renamed (ofMapping a mapping).mapping)) = out := by
    intro out h
    obtain ⟨b', run, -⟩ := writes_of_insertInto plain h
    rw [List.map_map]
    exact (List.map_congr_left fun i hi => mapQubits_physical fits
      (run.mapped plain (ResonatorBank.within_ofArchitecture a) i hi)).trans (List.map_id _)
  refine Option.ext fun out => ?_
  simp only [Option.map_eq_some_iff, toOption_eq_some_iff, insertInto_eq_ok_iff_plain fits hmapped]
  constructor
  · intro h
    exact ⟨_, ⟨out, h, rfl⟩, hback out h⟩
  · intro h
    obtain ⟨-, ⟨out', h, rfl⟩, rfl⟩ := h
    rw [hback out' h]
    exact h

end Fitting

end RoutingContext

end StarQpu
