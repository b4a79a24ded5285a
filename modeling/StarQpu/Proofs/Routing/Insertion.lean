import StarQpu.Proofs.Occupation
import StarQpu.Proofs.Routing.Run

/-!
# StarQpu.Proofs.Routing.Insertion

**Insertion into a circuit without MOVEs.** How existing MOVEs are treated makes no difference then:
the result is the circuit itself on an architecture without MOVEs, and otherwise a run of the router
over its instructions, from empty resonators to empty resonators (`routes_of_insertMoves`). Without
a mapping the names of the circuit are the physical ones.
-/

namespace StarQpu

variable {a : DynamicArchitecture} {c c' : Circuit} {existing : Option ExistingMoves}
  {mapping : Option QubitMapping}

namespace RoutingContext

variable {x : RoutingContext} {i : Instruction} {source out : List Instruction}

theorem insertInto_eq : x.insertInto source = (x.physicalAll source).bind fun physical =>
    (x.routeAll (.ofArchitecture x.architecture) source physical).bind fun routed =>
      (x.giveBack routed.2 none).bind fun back => .ok (routed.1 ++ back.1) := rfl

theorem insertInto_eq_ok_iff (hb : (ResonatorBank.ofArchitecture x.architecture).Separated) :
    x.insertInto source = .ok out ↔ (∀ i ∈ source, x.Mapped i) ∧
      ∃ first b, x.routeAll (.ofArchitecture x.architecture) source
          (source.map (·.mapQubits (renamed x.mapping))) = .ok (first, b) ∧
        out = first ++ ResonatorBank.moveInstructions x.names (b.occupied none) := by
  rw [insertInto_eq, bind_eq_ok_iff]
  constructor
  · intro h
    obtain ⟨physical, hphysical, h⟩ := h
    obtain ⟨hmapped, rfl⟩ := physicalAll_eq_ok_iff.1 hphysical
    obtain ⟨⟨first, b⟩, hrouted, h⟩ := bind_eq_ok_iff.1 h
    have hlast := (routes_of_routeAll hb hmapped hrouted).separated hb
    rw [giveBack_eq hlast] at h
    exact ⟨hmapped, first, b, hrouted, (Except.ok.inj h).symm⟩
  · intro h
    obtain ⟨hmapped, first, b, hrouted, rfl⟩ := h
    have hlast := (routes_of_routeAll hb hmapped hrouted).separated hb
    refine ⟨_, physicalAll_eq_ok_iff.2 ⟨hmapped, rfl⟩, ?_⟩
    rw [hrouted]
    dsimp only [Except.bind]
    rw [giveBack_eq hlast]

/-- A successful insertion is a run that empties all resonators at the end. -/
theorem routes_of_insertInto (hb : (ResonatorBank.ofArchitecture x.architecture).Separated)
    (h : x.insertInto source = .ok out) :
    ∃ b', x.Routes (.ofArchitecture x.architecture) source out b' ∧ b'.AtRest := by
  obtain ⟨hmapped, first, b, hrouted, rfl⟩ := (insertInto_eq_ok_iff hb).1 h
  have run := routes_of_routeAll hb hmapped hrouted
  have back := Routes.givingBack (run.separated hb) none (.done (x := x) (b.emptied none))
  have whole := run.append back
  rw [List.append_nil, List.append_nil] at whole
  refine ⟨b.emptied none, whole, ?_⟩
  intro r h hheld
  rw [ResonatorBank.holder?_emptied_all, Option.map_eq_some_iff] at hheld
  obtain ⟨-, -, rfl⟩ := hheld
  rfl

/-! ### Names -/

section Names

variable {c d q : String} (fits : (mapping.getD .empty).Fits a)
include fits

theorem logical_inj (hc : a.hasComponent c = true) (hd : a.hasComponent d = true)
    (h : (ofMapping a mapping).logical c = (ofMapping a mapping).logical d) : c = d :=
  fits.renamed_inverse_inj hc hd h

/-- A name with an entry is the name of the component it stands for. -/
theorem logical_renamed (hc : (ofMapping a mapping).mapping.contains c = true) :
    (ofMapping a mapping).logical (renamed (ofMapping a mapping).mapping c) = c ∧
      a.hasComponent (renamed (ofMapping a mapping).mapping c) = true := by
  obtain ⟨p, hp⟩ := Table.contains_iff.1 hc
  rw [renamed_of_get? hp]
  exact ⟨fits.renamed_inverse hp, fits.complete_component hp⟩

/-- The name of a component has an entry, which leads back to the component. -/
theorem renamed_logical (hc : a.hasComponent c = true) :
    (ofMapping a mapping).mapping.contains ((ofMapping a mapping).logical c) = true ∧
      renamed (ofMapping a mapping).mapping ((ofMapping a mapping).logical c) = c := by
  have hget := fits.get?_renamed_inverse hc
  exact ⟨Table.contains_iff.2 ⟨c, hget⟩, renamed_of_get? hget⟩

theorem hasComponent_of_mem_locus (hmapped : (ofMapping a mapping).Mapped i)
    (hq : q ∈ (ofMapping a mapping).locus i) : a.hasComponent q = true := by
  obtain ⟨c, hc, rfl⟩ := List.mem_map.1 hq
  exact (logical_renamed fits (hmapped c hc)).2

end Names

/-! ### Without a mapping -/

theorem get?_names_plain (c : String) :
    (ofMapping a none).names.get? c = if a.hasComponent c = true then some c else none := by
  refine Option.ext fun l => ?_
  have hinverse := (QubitMapping.Fits.empty a).get?_inverse_complete_iff (p := c) (l := l)
  have hcomplete := QubitMapping.get?_complete_empty a l
  rw [ofMapping, Option.getD_none, hinverse, hcomplete, Option.ite_none_right_eq_some,
    Option.ite_none_right_eq_some, Option.some.injEq, Option.some.injEq]
  constructor
  · intro h
    obtain ⟨hl, rfl⟩ := h
    exact ⟨hl, rfl⟩
  · intro h
    obtain ⟨hc, rfl⟩ := h
    exact ⟨hc, rfl⟩

@[simp] theorem logical_plain (c : String) : (ofMapping a none).logical c = c := by
  rw [logical]
  by_cases hc : a.hasComponent c = true
  · refine renamed_of_get? ?_
    rw [get?_names_plain, if_pos hc]
  · refine renamed_of_get?_eq_none ?_
    rw [get?_names_plain, if_neg hc]

theorem moveInstructions_plain (a : DynamicArchitecture) (moves : List (String × String)) :
    ResonatorBank.moveInstructions (ofMapping a none).names moves =
      moves.map fun m => .move m.1 m.2 :=
  List.map_congr_left fun m _ => congrArg₂ Instruction.move (logical_plain m.1) (logical_plain m.2)

@[simp] theorem renamed_mapping_plain (c : String) : renamed (ofMapping a none).mapping c = c := by
  by_cases hc : a.hasComponent c = true
  · refine renamed_of_get? ?_
    rw [ofMapping, Option.getD_none, QubitMapping.get?_complete_empty, if_pos hc]
  · refine renamed_of_get?_eq_none ?_
    rw [ofMapping, Option.getD_none, QubitMapping.get?_complete_empty, if_neg hc]

@[simp] theorem locus_plain (i : Instruction) : (ofMapping a none).locus i = i.qubits := by
  have hnames : renamed (ofMapping a none).mapping = id := funext renamed_mapping_plain
  rw [RoutingContext.locus, hnames, List.map_id]

theorem mapQubits_plain (i : Instruction) :
    i.mapQubits (renamed (ofMapping a none).mapping) = i :=
  Instruction.mapQubits_eq_self fun q _ => renamed_mapping_plain q

theorem map_mapQubits_plain (l : List Instruction) :
    l.map (·.mapQubits (renamed (ofMapping a none).mapping)) = l := by
  rw [funext mapQubits_plain]
  exact List.map_id _

theorem mapped_plain_iff :
    (ofMapping a none).Mapped i ↔ ∀ q ∈ i.qubits, a.hasComponent q = true := by
  have hname : ∀ q, (ofMapping a none).mapping.contains q = true ↔ a.hasComponent q = true := by
    intro q
    rw [Table.contains_iff, ofMapping, Option.getD_none, QubitMapping.get?_complete_empty]
    by_cases hq : a.hasComponent q = true
    · simp [hq]
    · simp [hq]
  simp only [Mapped, hname]

theorem validate_plain_iff : (ofMapping a none).validate i = .ok () ↔
    (∀ q ∈ i.qubits, a.hasComponent q = true) ∧ a.permits i i.qubits = true := by
  have hlocus : i.qubits.map (renamed (ofMapping a none).mapping) = i.qubits := locus_plain i
  rw [validate, validateInstruction_some_eq_ok_iff, hlocus]
  exact and_congr_left fun _ => mapped_plain_iff

/-- On a checked architecture the router checks what validation checks. -/
theorem validate_plain_iff_of_check (checked : a.check = .ok ()) :
    (ofMapping a none).validate i = .ok () ↔ validateInstruction a i none = .ok () := by
  rw [validate_plain_iff, validateInstruction_none_eq_ok_iff]
  exact ⟨fun h => h.2, fun h => ⟨hasComponent_of_permits checked h, h⟩⟩

theorem validate_cz_plain {p q : String} (hp : a.hasComponent p = true)
    (hq : a.hasComponent q = true) (h : a.permits (.cz p q) [p, q] = true) :
    (ofMapping a none).validate (.cz p q) = .ok () :=
  validate_plain_iff.2 ⟨List.forall_mem_cons.2 ⟨hp, List.forall_mem_singleton.2 hq⟩, h⟩

theorem usable_plain {p q r partner moved : String} (hmoved : moved ∈ [p, q])
    (hne : partner ≠ moved) (hperm : [p, q].Perm [partner, moved])
    (hvalid : (ofMapping a none).validate (.cz partner r) = .ok ()) :
    (ofMapping a none).Usable [p, q] r moved (.cz partner r) := by
  refine (usable_pair_iff hmoved).2 ⟨partner, hne, hperm, ?_, hvalid⟩
  rw [logical_plain, logical_plain]

end RoutingContext

/-! ### The whole circuit -/

/-- MOVEs that are kept have to be valid. -/
theorem insertionSource_keep_eq_ok_iff {x : RoutingContext} {source : Circuit} :
    (insertionSource x c (some .keep)).result = .ok source ↔
      validateMoves x.architecture c (some x.mapping) .strict = .ok () ∧ source = c := by
  rw [insertionSource]
  cases validateMoves x.architecture c (some x.mapping) .strict with
  | ok => exact ⟨fun h => ⟨rfl, (Except.ok.inj h).symm⟩, fun h => congrArg Except.ok h.2.symm⟩
  | error v => simp [throw, throwThe, MonadExceptOf.throw]

theorem result_insertionSource (noMoves : c.containsMoves = false)
    (existing : Option ExistingMoves) (x : RoutingContext) :
    (insertionSource x c existing).result = .ok c := by
  have hvalid : validateMoves x.architecture c (some x.mapping) .strict = .ok () :=
    validateMoveList_of_not_move _ _ (Circuit.containsMoves_eq_false_iff.1 noMoves)
  cases existing with
  | none => exact removeMoves_result_self noMoves
  | some e =>
      cases e with
      | keep => exact insertionSource_keep_eq_ok_iff.2 ⟨hvalid, rfl⟩
      | trust => rfl
      | remove => exact removeMoves_result_self noMoves

theorem result_insertMoves_of_not_supportsMove (noMoves : c.containsMoves = false)
    (hsupport : (ResonatorBank.ofArchitecture a).supportsMove = false) :
    (insertMoves c a existing mapping).result = .ok c := by
  rw [insertMoves, noMoves, hsupport]
  simp

/-- On an architecture without MOVEs those of the circuit can only be removed. -/
theorem result_insertMoves_of_containsMoves (hmoves : c.containsMoves = true)
    (hsupport : (ResonatorBank.ofArchitecture a).supportsMove = false) :
    (insertMoves c a existing mapping).result =
      if existing = none ∨ existing = some .remove then (removeMoves c).result
      else .error (.configuration .movesWithoutSupport) := by
  cases existing with
  | none =>
      simp only [insertMoves, hsupport, hmoves]
      rfl
  | some e =>
      simp only [insertMoves, hsupport, hmoves]
      cases e <;> rfl

/-- Without a MOVE on the architecture only circuits without MOVEs get through as they are. -/
theorem eq_of_not_supportsMove {e : ExistingMoves} (hkeep : e ≠ .remove)
    (hsupport : (ResonatorBank.ofArchitecture a).supportsMove = false)
    (h : (insertMoves c a (some e) mapping).result = .ok c') :
    c.containsMoves = false ∧ c' = c := by
  cases hmoves : c.containsMoves with
  | false =>
      rw [result_insertMoves_of_not_supportsMove hmoves hsupport, Except.ok.injEq] at h
      exact ⟨rfl, h.symm⟩
  | true =>
      rw [insertMoves, hmoves, hsupport] at h
      simp [hkeep] at h

/-- On an architecture with MOVEs they are inserted into the source. -/
theorem result_insertMoves_of_supportsMove
    (hsupport : (ResonatorBank.ofArchitecture a).supportsMove = true) :
    (insertMoves c a existing mapping).result =
      (insertionSource (RoutingContext.ofMapping a mapping) c existing).result.bind fun source =>
        ((RoutingContext.ofMapping a mapping).insertInto source.instructions).bind
          source.withBody := by
  have hchosen : insertionSource (RoutingContext.ofMapping a mapping) c
      (if (existing.isNone && c.containsMoves) = true then some .remove else existing) =
      insertionSource (RoutingContext.ofMapping a mapping) c existing := by
    -- removing is what happens, said or unsaid
    cases existing with
    | none =>
        cases c.containsMoves <;> rfl
    | some e => rfl
  have hwarned : ∀ (undecided : Bool) (rest : Logged RoutingError Circuit),
      (if undecided = true then do
          Logged.tell (existingMovesWarning c.name)
          rest
        else rest).result = rest.result := by
    intro undecided rest
    cases undecided <;> rfl
  rw [insertMoves]
  simp only [hsupport, Bool.not_true, Bool.false_eq_true, if_false, hchosen]
  rw [hwarned, Logged.result_bind]
  cases (insertionSource (RoutingContext.ofMapping a mapping) c existing).result with
  | error e => rfl
  | ok source =>
      simp only [Except.bind]
      cases (RoutingContext.ofMapping a mapping).insertInto source.instructions <;> rfl

theorem result_insertMoves (noMoves : c.containsMoves = false)
    (hsupport : (ResonatorBank.ofArchitecture a).supportsMove = true) :
    (insertMoves c a existing mapping).result =
      ((RoutingContext.ofMapping a mapping).insertInto c.instructions).bind c.withBody := by
  rw [result_insertMoves_of_supportsMove hsupport, result_insertionSource noMoves]
  rfl

/-- For a circuit without MOVEs it makes no difference what is said about them. -/
theorem result_insertMoves_congr (noMoves : c.containsMoves = false)
    (existing existing' : Option ExistingMoves) :
    (insertMoves c a existing mapping).result = (insertMoves c a existing' mapping).result := by
  cases hsupport : (ResonatorBank.ofArchitecture a).supportsMove with
  | false =>
      rw [result_insertMoves_of_not_supportsMove noMoves hsupport,
        result_insertMoves_of_not_supportsMove noMoves hsupport]
  | true => rw [result_insertMoves noMoves hsupport, result_insertMoves noMoves hsupport]

/-- What a successful insertion did on an architecture with MOVEs. -/
theorem routes_of_supportsMove (checked : a.check = .ok ()) (moves : a.MovesIntoResonators)
    (hsupport : (ResonatorBank.ofArchitecture a).supportsMove = true)
    (h : (insertMoves c a existing mapping).result = .ok c') :
    ∃ source, (insertionSource (RoutingContext.ofMapping a mapping) c existing).result =
        .ok source ∧
      c'.name = source.name ∧ c'.metadata = source.metadata ∧
      ∃ b', (RoutingContext.ofMapping a mapping).Routes (.ofArchitecture a) source.instructions
          c'.instructions b' ∧ b'.AtRest := by
  rw [result_insertMoves_of_supportsMove hsupport, bind_eq_ok_iff] at h
  obtain ⟨source, hsource, h⟩ := h
  obtain ⟨out, hinsert, h⟩ := bind_eq_ok_iff.1 h
  obtain ⟨hsome, rfl⟩ := Circuit.withBody_eq_ok_iff.1 h
  exact ⟨source, hsource, rfl, rfl, RoutingContext.routes_of_insertInto
    (ResonatorBank.serves_ofArchitecture checked moves).toSeparated hinsert⟩

/-- What a successful insertion into a circuit without MOVEs did. -/
theorem routes_of_insertMoves (checked : a.check = .ok ()) (moves : a.MovesIntoResonators)
    (noMoves : c.containsMoves = false)
    (h : (insertMoves c a existing mapping).result = .ok c') :
    (ResonatorBank.ofArchitecture a).supportsMove = false ∧ c' = c ∨
      c'.name = c.name ∧ c'.metadata = c.metadata ∧ ∃ b',
        (RoutingContext.ofMapping a mapping).Routes (.ofArchitecture a) c.instructions
          c'.instructions b' ∧ b'.AtRest := by
  cases hsupport : (ResonatorBank.ofArchitecture a).supportsMove with
  | false =>
      rw [result_insertMoves_of_not_supportsMove noMoves hsupport, Except.ok.injEq] at h
      exact Or.inl ⟨rfl, h.symm⟩
  | true =>
      obtain ⟨source, hsource, hrun⟩ := routes_of_supportsMove checked moves hsupport h
      rw [result_insertionSource noMoves, Except.ok.injEq] at hsource
      subst hsource
      exact Or.inr hrun

/-- A circuit without MOVEs that the router gets through has a result: what the router wrote, and
the MOVEs that give back the states it left in resonators. -/
theorem exists_insertMoves_of_routeAll {first : List Instruction} {b : ResonatorBank}
    (checked : a.check = .ok ()) (moves : a.MovesIntoResonators)
    (noMoves : c.containsMoves = false)
    (hsupport : (ResonatorBank.ofArchitecture a).supportsMove = true)
    (hmapped : ∀ i ∈ c.instructions, (RoutingContext.ofMapping a mapping).Mapped i)
    (hrouted : (RoutingContext.ofMapping a mapping).routeAll (.ofArchitecture a) c.instructions
      (c.instructions.map (·.mapQubits (renamed (RoutingContext.ofMapping a mapping).mapping))) =
      .ok (first, b)) (existing : Option ExistingMoves) :
    ∃ c', (insertMoves c a existing mapping).result = .ok c' ∧ c'.instructions = first ++
      ResonatorBank.moveInstructions (RoutingContext.ofMapping a mapping).names
        (b.occupied none) := by
  have hb := (ResonatorBank.serves_ofArchitecture checked moves).toSeparated
  have hinsert := (RoutingContext.insertInto_eq_ok_iff (x := .ofMapping a mapping) hb).2
    ⟨hmapped, first, b, hrouted, rfl⟩
  obtain ⟨b', run, -⟩ := RoutingContext.routes_of_insertInto hb hinsert
  have hsome := run.ne_nil c.instructions_ne_nil
  refine ⟨{ c with instructions := _, instructions_ne_nil := hsome }, ?_, rfl⟩
  rw [result_insertMoves noMoves hsupport, hinsert]
  exact Circuit.withBody_eq_ok_iff.2 ⟨hsome, rfl⟩

/-- Insertion into a circuit without MOVEs succeeds exactly when the router gets past every
instruction that it reaches. -/
theorem exists_insertMoves_iff (checked : a.check = .ok ()) (moves : a.MovesIntoResonators)
    (noMoves : c.containsMoves = false)
    (hsupport : (ResonatorBank.ofArchitecture a).supportsMove = true)
    (hmapped : ∀ i ∈ c.instructions, (RoutingContext.ofMapping a mapping).Mapped i) :
    (∃ c', (insertMoves c a existing mapping).result = .ok c') ↔ ∀ i rest b,
      (RoutingContext.ofMapping a mapping).Reaches (.ofArchitecture a) c.instructions
        (i :: rest) b →
      ∃ out b', (RoutingContext.ofMapping a mapping).route b i
        ((RoutingContext.ofMapping a mapping).locus i) ((i :: rest).map
          (·.mapQubits (renamed (RoutingContext.ofMapping a mapping).mapping))) =
        .ok (out, b') := by
  have hb := (ResonatorBank.serves_ofArchitecture checked moves).toSeparated
  rw [← RoutingContext.exists_routeAll_iff, result_insertMoves noMoves hsupport]
  constructor
  · intro h
    obtain ⟨c', h⟩ := h
    obtain ⟨out, hinsert, -⟩ := bind_eq_ok_iff.1 h
    obtain ⟨-, first, b, hrouted, -⟩ := (RoutingContext.insertInto_eq_ok_iff hb).1 hinsert
    exact ⟨first, b, hrouted⟩
  · intro h
    obtain ⟨first, b, hrouted⟩ := h
    obtain ⟨c', h, -⟩ := exists_insertMoves_of_routeAll checked moves noMoves hsupport hmapped
      hrouted existing
    rw [result_insertMoves noMoves hsupport] at h
    exact ⟨c', h⟩

end StarQpu
