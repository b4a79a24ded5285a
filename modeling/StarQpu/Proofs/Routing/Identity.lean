import StarQpu.Proofs.Routing.Following
import StarQpu.Proofs.Samples
import StarQpu.Proofs.Validation.Batch

/-!
# StarQpu.Proofs.Routing.Identity

**When the router changes nothing.** As long as every instruction finds its qubits' own states and
is accepted as it stands, the router has no reason to move a state: it copies the instructions and
its bank follows their MOVEs (`routeAll_eq_ok_iff`). A valid circuit is therefore returned
unchanged, unless it has a barrier on a qubit whose state is in a resonator. Validation lets such a
barrier pass; the router gives the state back first, as before every instruction other than a
controlled-Z or a MOVE.
-/

namespace StarQpu

variable {a : DynamicArchitecture} {b b' u : ResonatorBank} {c c' : Circuit} {i : Instruction}
  {source out lookahead : List Instruction} {mode : MoveValidation}

/-! ### Held states and views -/

section Held

variable (checked : a.check = .ok ()) (moves : a.MovesIntoResonators) (hb : b.Serves a)
include checked moves hb

/-- An instruction finds its qubits' own states exactly when no resonator holds one of them. -/
theorem DynamicArchitecture.findsOwn_iff :
    a.FindsOwn (i, b.placement) ↔ b.holding i.qubits = [] := by
  constructor
  · intro hown
    refine List.eq_nil_iff_forall_not_mem.2 fun s hs => ?_
    obtain ⟨q, hheld, hq, hfree⟩ := (ResonatorBank.mem_holding_iff hb.nodup).1 hs
    have hne := ResonatorBank.ne_of_not_tracks hfree hheld
    have hmove := (hb.mem_qubitsOf_iff.1 ((hb.holder_mem hheld).resolve_left hne)).2
    have hplace : b.placement q = q := hown q hq (moves.isQubit hmove)
    rw [ResonatorBank.placement_of_held hb.toSeparated hheld hfree] at hplace
    exact hne hplace.symm
  · intro hnone q hq hqubit
    have hfree := hb.not_tracks (not_isResonator_of_isQubit checked hqubit)
    refine ResonatorBank.placement_of_free hb.toSeparated hfree fun s hs => ?_
    have hmem := (ResonatorBank.mem_holding_iff hb.nodup).2 ⟨q, hs, hq, hfree⟩
    rw [hnone] at hmem
    exact absurd hmem List.not_mem_nil

end Held

namespace RoutingContext

/-! ### Copying -/

/-- An instruction that needs no state back, and no resonator if it is a controlled-Z, gets through
exactly when it is accepted, and then stays as it is. -/
theorem route_eq_ok_iff_of_ready {next : ResonatorBank}
    (ready : b.holding i.qubits = [] ∨ i.isCz = true ∨ i.isMove = true)
    (cz : i.isCz = true → (ofMapping a none).validate i = .ok ())
    (hfollow : b.follow i = .ok next) :
    (ofMapping a none).route b i ((ofMapping a none).locus i) lookahead = .ok (out, b') ↔
      (ofMapping a none).validate i = .ok () ∧ out = [i] ∧ b' = next := by
  rw [route_of_not_held (by rw [locus_plain]; exact ready), mapQubits_plain, hfollow]
  cases hvalid : (ofMapping a none).validate i with
  | ok =>
      simp only [Except.bind, Except.ok.injEq, Prod.mk.injEq, true_and, eq_comm]
  | error v =>
      have hnot : ¬ i.isCz = true := by
        intro hcz
        rw [cz hcz] at hvalid
        exact absurd hvalid (by simp)
      simp [hnot]

/-- Such an instruction in front of a list. -/
theorem routeAll_cons_iff_of_ready {next : ResonatorBank}
    (ready : b.holding i.qubits = [] ∨ i.isCz = true ∨ i.isMove = true)
    (cz : i.isCz = true → (ofMapping a none).validate i = .ok ())
    (hfollow : b.follow i = .ok next) :
    (ofMapping a none).routeAll b (i :: source)
        ((i :: source).map (·.mapQubits (renamed (ofMapping a none).mapping))) = .ok (out, b') ↔
      (ofMapping a none).validate i = .ok () ∧ ∃ more, (ofMapping a none).routeAll next source
        (source.map (·.mapQubits (renamed (ofMapping a none).mapping))) = .ok (more, b') ∧
        out = i :: more := by
  simp only [routeAll_cons_eq_ok_iff, route_eq_ok_iff_of_ready ready cz hfollow]
  constructor
  · intro h
    obtain ⟨first, last, more, ⟨hvalid, rfl, rfl⟩, hmore, rfl⟩ := h
    exact ⟨hvalid, more, hmore, rfl⟩
  · intro h
    obtain ⟨hvalid, more, hmore, rfl⟩ := h
    exact ⟨[i], next, more, ⟨hvalid, rfl, rfl⟩, hmore, rfl⟩

/-- **Copying.** A list that a bank follows, in which every instruction finds its qubits' own states
and every controlled-Z is accepted, gets through exactly when all of it is accepted, and then as it
is. -/
theorem routeAll_eq_ok_iff (checked : a.check = .ok ()) (moves : a.MovesIntoResonators)
    (hb : b.Serves a) (follows : b.Follows source u)
    (own : ∀ e ∈ b.placement.views source, a.FindsOwn e)
    (cz : ∀ i ∈ source, i.isCz = true → (ofMapping a none).validate i = .ok ()) :
    (ofMapping a none).routeAll b source
        (source.map (·.mapQubits (renamed (ofMapping a none).mapping))) = .ok (out, b') ↔
      (∀ i ∈ source, (ofMapping a none).validate i = .ok ()) ∧ out = source ∧ b' = u := by
  -- along the bank that follows the list: it is the bank of the router
  induction follows generalizing out b' with
  | done b =>
      rw [List.map_nil, routeAll_nil]
      simp [eq_comm]
  | @move b b₁ u i q r l action applied _ ih =>
      have hmove := Instruction.isMove_iff.2 ⟨q, r, action⟩
      have hfollow : b.follow i = .ok b₁ :=
        follow_eq_ok_iff.2 (Or.inl ⟨q, r, action, applied⟩)
      rw [Placement.views_cons_of_move hmove, Placement.step_of_action action,
        ← ResonatorBank.placement_applied hb.toSeparated applied] at own
      rw [List.forall_mem_cons] at cz
      rw [routeAll_cons_iff_of_ready (Or.inr (Or.inr hmove)) cz.1 hfollow, List.forall_mem_cons]
      constructor
      · intro h
        obtain ⟨hvalid, more, hmore, rfl⟩ := h
        obtain ⟨hall, rfl, rfl⟩ := (ih (hb.applied applied) own cz.2).1 hmore
        exact ⟨⟨hvalid, hall⟩, rfl, rfl⟩
      · intro h
        obtain ⟨⟨hvalid, hall⟩, rfl, rfl⟩ := h
        exact ⟨hvalid, l, (ih (hb.applied applied) own cz.2).2 ⟨hall, rfl, rfl⟩, rfl⟩
  | @other b u i l other _ ih =>
      rw [Placement.views_cons_of_not_move other, List.forall_mem_cons] at own
      rw [List.forall_mem_cons] at cz
      have hnone := (DynamicArchitecture.findsOwn_iff checked moves hb).1 own.1
      rw [routeAll_cons_iff_of_ready (Or.inl hnone) cz.1 (follow_of_not_move other),
        List.forall_mem_cons]
      constructor
      · intro h
        obtain ⟨hvalid, more, hmore, rfl⟩ := h
        obtain ⟨hall, rfl, rfl⟩ := (ih hb own.2 cz.2).1 hmore
        exact ⟨⟨hvalid, hall⟩, rfl, rfl⟩
      · intro h
        obtain ⟨⟨hvalid, hall⟩, rfl, rfl⟩ := h
        exact ⟨hvalid, l, (ih hb own.2 cz.2).2 ⟨hall, rfl, rfl⟩, rfl⟩

/-! ### Adding nothing -/

theorem Routes.length_le {x : RoutingContext} (run : x.Routes b source out b') :
    source.length ≤ out.length := by
  induction run with
  | done => exact Nat.le_refl _
  | move _ _ _ ih => exact Nat.le_succ_of_le ih
  | follow _ _ _ _ _ ih => exact Nat.succ_le_succ ih
  | keep _ _ ih => exact Nat.succ_le_succ ih
  | reroute _ _ ih => exact Nat.succ_le_succ ih

/-- A run that adds nothing moves no state of its own, so whatever it keeps finds its qubits' own
states, the controlled-Z gates apart. -/
theorem Routes.findsOwn (run : (ofMapping a none).Routes b source out b')
    (checked : a.check = .ok ()) (moves : a.MovesIntoResonators) (hb : b.Serves a)
    (hlength : out.length ≤ source.length) :
    ∀ e ∈ b.placement.views source, e.1.isCz = false → a.FindsOwn e := by
  induction run with
  | done => exact fun e he => absurd he List.not_mem_nil
  | move _ _ rest _ =>
      have hle := rest.length_le
      rw [List.length_cons] at hlength
      omega
  | follow _ action _ applied _ ih =>
      rw [renamed_mapping_plain, renamed_mapping_plain] at applied
      rw [Placement.views_cons_of_move (Instruction.isMove_iff.2 ⟨_, _, action⟩),
        Placement.step_of_action action, ← ResonatorBank.placement_applied hb.toSeparated applied]
      exact ih (hb.applied applied) (Nat.le_of_succ_le_succ hlength)
  | keep kept _ ih =>
      rw [Placement.views_cons_of_not_move kept.other, List.forall_mem_cons]
      refine ⟨fun hcz => ?_, ih hb (Nat.le_of_succ_le_succ hlength)⟩
      rcases kept.ready with ⟨hisCz, -⟩ | ⟨-, hnone⟩
      · rw [hisCz] at hcz
        exact absurd hcz (by decide)
      · rw [locus_plain] at hnone
        exact (DynamicArchitecture.findsOwn_iff checked moves hb).2 hnone
  | reroute rerouted _ ih =>
      rw [Placement.views_cons_of_not_move (Instruction.not_isMove_of_isCz rerouted.cz),
        List.forall_mem_cons]
      refine ⟨fun hcz => ?_, ih hb (Nat.le_of_succ_le_succ hlength)⟩
      rw [rerouted.cz] at hcz
      exact absurd hcz (by decide)

end RoutingContext

/-! ### Valid circuits -/

/-- A valid circuit consists of valid instructions and has valid sandwiches. -/
theorem valid_of_validateCircuits (h : validateCircuits a [c] none mode = .ok ()) :
    (∀ i ∈ c.instructions, validateInstruction a i none = .ok ()) ∧
      validateMoves a c none mode = .ok () := by
  obtain ⟨hinstructions, -, hmoves⟩ :=
    validateCircuit_eq_ok_iff.1 (validateCircuits_eq_ok_iff.1 h c (List.mem_singleton_self c))
  exact ⟨hinstructions, hmoves⟩

/-- The circuit is kept or trusted as the source of the insertion. -/
theorem result_insertionSource_of_validateMoves {e : ExistingMoves} (hkeep : e ≠ .remove)
    (valid : validateMoves a c none .strict = .ok ()) :
    (insertionSource (RoutingContext.ofMapping a none) c (some e)).result = .ok c := by
  cases e with
  | keep => exact insertionSource_keep_eq_ok_iff.2 ⟨validateMoves_plain.trans valid, rfl⟩
  | trust => rfl
  | remove => exact absurd rfl hkeep

section Valid

variable (checked : a.check = .ok ()) (moves : a.MovesIntoResonators)
  (hsupport : (ResonatorBank.ofArchitecture a).supportsMove = true)
  (follows : (ResonatorBank.ofArchitecture a).Follows c.instructions u) (hrest : u.AtRest)
  (untouched : a.Untouched c.instructions)
  (cz : ∀ i ∈ c.instructions, i.isCz = true →
    (RoutingContext.ofMapping a none).validate i = .ok ())
include checked moves hsupport follows hrest untouched cz

/-- A circuit that is followed from rest to rest, and has nothing to be given back or rerouted, is
returned unchanged or not at all. -/
theorem result_insertMoves_of_untouched {e : ExistingMoves} (hkeep : e ≠ .remove)
    (valid : validateMoves a c none .strict = .ok ()) :
    (insertMoves c a (some e) none).result = .ok c' ↔
      (∀ i ∈ c.instructions, validateInstruction a i none = .ok ()) ∧ c' = c := by
  have hb := ResonatorBank.serves_ofArchitecture checked moves
  have hnone := hrest.occupied_eq_nil (follows.separated hb.toSeparated).nodup none
  have hviews : ∀ e ∈ (ResonatorBank.ofArchitecture a).placement.views c.instructions,
      a.FindsOwn e := by
    rw [ResonatorBank.placement_own hb.toSeparated (ResonatorBank.atRest_ofArchitecture a)]
    exact untouched
  rw [result_insertMoves_of_supportsMove hsupport,
    result_insertionSource_of_validateMoves hkeep valid]
  show ((RoutingContext.ofMapping a none).insertInto c.instructions).bind c.withBody = _ ↔ _
  simp only [← RoutingContext.validate_plain_iff_of_check checked]
  rw [bind_eq_ok_iff]
  constructor
  · intro h
    obtain ⟨out, hinsert, hbody⟩ := h
    obtain ⟨-, first, b, hfirst, rfl⟩ :=
      (RoutingContext.insertInto_eq_ok_iff hb.toSeparated).1 hinsert
    obtain ⟨hall, rfl, rfl⟩ :=
      (RoutingContext.routeAll_eq_ok_iff checked moves hb follows hviews cz).1 hfirst
    rw [hnone, ResonatorBank.moveInstructions, List.map_nil, List.append_nil, c.withBody_self,
      Except.ok.injEq] at hbody
    exact ⟨hall, hbody.symm⟩
  · intro h
    obtain ⟨hall, rfl⟩ := h
    have hrouted :=
      (RoutingContext.routeAll_eq_ok_iff checked moves hb follows hviews cz).2 ⟨hall, rfl, rfl⟩
    refine ⟨c'.instructions, (RoutingContext.insertInto_eq_ok_iff hb.toSeparated).2
      ⟨fun i hi => ?_, c'.instructions, u, hrouted, ?_⟩, c'.withBody_self⟩
    · exact RoutingContext.mapped_plain_iff.2 (RoutingContext.validate_plain_iff.1 (hall i hi)).1
    · rw [hnone, ResonatorBank.moveInstructions, List.map_nil, List.append_nil]

end Valid

/-- **A valid circuit stays as it is.** It is returned unchanged when its MOVEs are kept, unless an
instruction acts on a qubit whose state is in a resonator (only a barrier may), and when they are
trusted exactly in this case. -/
theorem insertMoves_of_validateCircuits (checked : a.check = .ok ())
    (moves : a.MovesIntoResonators) (hsome : a.moveLoci ≠ [])
    (valid : validateCircuits a [c] none .strict = .ok ()) :
    (a.Untouched c.instructions → (insertMoves c a (some .keep) none).result = .ok c) ∧
      ((insertMoves c a (some .trust) none).result = .ok c ↔ a.Untouched c.instructions) := by
  obtain ⟨hinstructions, hmoves⟩ := valid_of_validateCircuits valid
  have hb := ResonatorBank.serves_ofArchitecture checked moves
  have hown := ResonatorBank.placement_own hb.toSeparated (ResonatorBank.atRest_ofArchitecture a)
  have hsupport := DynamicArchitecture.supportsMove_of_moveLoci hsome
  have hbank := moves.supportsMove_iff.2 hsome
  have hlisted : ∀ i ∈ c.instructions, ∀ q r, i.action = .move q r →
      q ∈ (ResonatorBank.ofArchitecture a).qubitsOf r := by
    intro i hi q r hmove
    have hlocus := calibrated_of_permits_move hmove
      (validateInstruction_none_eq_ok_iff.1 (hinstructions i hi))
    exact ResonatorBank.mem_qubitsOf_ofArchitecture_iff.2 ⟨moves.isResonator hlocus, hlocus⟩
  have hcz : ∀ i ∈ c.instructions, i.isCz = true →
      (RoutingContext.ofMapping a none).validate i = .ok () := fun i hi _ =>
    (RoutingContext.validate_plain_iff_of_check checked).2 (hinstructions i hi)
  obtain ⟨u, follows, hrest, hviews⟩ :=
    exists_follows_of_validateMoves checked moves hsupport (by decide) hlisted hmoves
  have hself : ∀ e : ExistingMoves, e ≠ .remove → a.Untouched c.instructions →
      (insertMoves c a (some e) none).result = .ok c := fun e hkeep huntouched =>
    (result_insertMoves_of_untouched checked moves hbank follows hrest huntouched hcz hkeep
      hmoves).2 ⟨hinstructions, rfl⟩
  refine ⟨hself .keep (by decide), fun h => ?_, hself .trust (by decide)⟩
  -- nothing was added, so nothing was given back
  obtain ⟨source, hsource, -, -, b', run, -⟩ := routes_of_supportsMove checked moves hbank h
  obtain rfl : c = source := Except.ok.inj hsource
  intro e he
  cases hisCz : e.1.isCz with
  | true =>
      refine (hviews e he).resolve_left ?_
      rw [Occupation.strict_tolerates_of_isCz hisCz]
      decide
  | false =>
      rw [← hown] at he
      exact run.findsOwn checked moves hb (Nat.le_refl _) e he hisCz

/-! ### Barriers in a sandwich -/

/-- A sandwich of which only the resonator is named by a barrier. -/
def sandwichWithBarrier (named : Locus) : Circuit where
  name := "sandwich"
  instructions := [.move "QB1" "CR1", .barrier named, .cz "QB2" "CR1", .move "QB1" "CR1"]
  name_ne_empty := by decide
  instructions_ne_nil := List.cons_ne_nil _ _

theorem insertMoves_of_validateCircuits_sandwich :
    (insertMoves (sandwichWithBarrier ["CR1", "QB2"]) (starArchitecture 2) (some .keep)
        none).result = .ok (sandwichWithBarrier ["CR1", "QB2"]) ∧
      (insertMoves (sandwichWithBarrier ["CR1", "QB2"]) (starArchitecture 2) (some .trust)
        none).result = .ok (sandwichWithBarrier ["CR1", "QB2"]) := by
  have hvalid : validateCircuits (starArchitecture 2) [sandwichWithBarrier ["CR1", "QB2"]] none
      .strict = .ok () := by cbv
  have huntouched : (starArchitecture 2).Untouched
      (sandwichWithBarrier ["CR1", "QB2"]).instructions := by decide +kernel
  obtain ⟨hkeep, htrust⟩ := insertMoves_of_validateCircuits (check_star 2)
    (movesIntoResonators_star 2) (moveLoci_star_ne_nil (by decide)) hvalid
  exact ⟨hkeep huntouched, htrust.2 huntouched⟩

/-- The state of `QB1` is given back for the barrier, and the MOVE that was to bring it back takes
it into the resonator again, whether the MOVEs are trusted or kept. -/
theorem valid_sandwich_changes :
    (starArchitecture 2).check = .ok () ∧ (starArchitecture 2).MovesIntoResonators ∧
      (starArchitecture 2).moveLoci ≠ [] ∧
      validateCircuits (starArchitecture 2) [sandwichWithBarrier ["QB1", "QB2"]] none .strict =
        .ok () ∧
      ((insertMoves (sandwichWithBarrier ["QB1", "QB2"]) (starArchitecture 2) (some .trust)
        none).result.map (·.instructions)) = .ok [.move "QB1" "CR1", .move "QB1" "CR1",
          .barrier ["QB1", "QB2"], .cz "QB2" "CR1", .move "QB1" "CR1", .move "QB1" "CR1"] ∧
      (insertMoves (sandwichWithBarrier ["QB1", "QB2"]) (starArchitecture 2) (some .trust)
        none).result ≠ .ok (sandwichWithBarrier ["QB1", "QB2"]) ∧
      ((insertMoves (sandwichWithBarrier ["QB1", "QB2"]) (starArchitecture 2) (some .keep)
        none).result.map (·.instructions)) = .ok [.move "QB1" "CR1", .move "QB1" "CR1",
          .barrier ["QB1", "QB2"], .cz "QB2" "CR1", .move "QB1" "CR1", .move "QB1" "CR1"] ∧
      (insertMoves (sandwichWithBarrier ["QB1", "QB2"]) (starArchitecture 2) (some .keep)
        none).result ≠ .ok (sandwichWithBarrier ["QB1", "QB2"]) := by
  have htrusted : ((insertMoves (sandwichWithBarrier ["QB1", "QB2"]) (starArchitecture 2)
      (some .trust) none).result.map (·.instructions)) = .ok [.move "QB1" "CR1", .move "QB1" "CR1",
        .barrier ["QB1", "QB2"], .cz "QB2" "CR1", .move "QB1" "CR1", .move "QB1" "CR1"] := by cbv
  have hkept : ((insertMoves (sandwichWithBarrier ["QB1", "QB2"]) (starArchitecture 2)
      (some .keep) none).result.map (·.instructions)) = .ok [.move "QB1" "CR1", .move "QB1" "CR1",
        .barrier ["QB1", "QB2"], .cz "QB2" "CR1", .move "QB1" "CR1", .move "QB1" "CR1"] := by cbv
  refine ⟨check_star 2, movesIntoResonators_star 2, moveLoci_star_ne_nil (by decide), by cbv,
    htrusted, fun h => ?_, hkept, fun h => ?_⟩
  · rw [h] at htrusted
    exact absurd (Except.ok.inj htrusted) (by decide)
  · rw [h] at hkept
    exact absurd (Except.ok.inj hkept) (by decide)

end StarQpu
