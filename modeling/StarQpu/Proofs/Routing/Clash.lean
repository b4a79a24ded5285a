import Mathlib.Data.Fintype.EquivFin
import StarQpu.Proofs.Routing.Sandwich

/-!
# StarQpu.Proofs.Routing.Clash

**Which architectures break sandwiches.** The router keeps a controlled-Z that is calibrated as it
stands and does not look whether a state of it is held. So it needs two things to go wrong: a qubit
whose state is moved for a gate with another one, and a direct gate of that qubit. An architecture
that couples its components this way has a `Clash`. Without one every held qubit is without direct
gates and every result has valid sandwiches; with one there is a circuit of two gates whose result
has not.
-/

namespace StarQpu

variable {a : DynamicArchitecture} {b b' : ResonatorBank} {i j : Instruction}
  {name p q q' r s t moved : String} {source out lookahead : List Instruction}

namespace DynamicArchitecture

/-- A controlled-Z is calibrated between the components, in one direction or the other. -/
def Couples (a : DynamicArchitecture) (p q : String) : Prop :=
  ∃ locus ∈ a.calibrated "cz", locus.Perm [p, q]

/-- A state in the resonator can be needed there for a gate with another qubit. -/
def Held (a : DynamicArchitecture) (q r : String) : Prop :=
  [q, r] ∈ a.moveLoci ∧ ∃ p, p ≠ q ∧ a.isQubit p = true ∧ a.Couples p r

/-- A qubit whose state can be needed in a resonator has a direct gate with a qubit. -/
def Clash (a : DynamicArchitecture) : Prop :=
  ∃ q r q', a.Held q r ∧ a.isQubit q' = true ∧ a.Couples q q'

theorem Couples.symm (h : a.Couples p q) : a.Couples q p := by
  obtain ⟨locus, hlocus, hperm⟩ := h
  exact ⟨locus, hlocus, hperm.trans (List.Perm.swap _ _ [])⟩

end DynamicArchitecture

namespace RoutingContext

/-! ### Without a clash -/

theorem couples_of_valid_cz (haction : i.action = .cz p q)
    (hvalid : (ofMapping a none).validate i = .ok ()) : a.Couples p q := by
  have hpermits := (validate_plain_iff.1 hvalid).2
  obtain ⟨locus, hlocus, hperm⟩ :=
    calibrated_of_permits_cz (Instruction.isCz_iff.2 ⟨p, q, haction⟩) hpermits
  rw [Instruction.qubits_of_cz haction] at hperm
  exact ⟨locus, hlocus, hperm⟩

theorem Reroutes.couples {partner : String}
    (h : (ofMapping a none).Reroutes b i j partner moved r) : a.Couples partner r := by
  have hj : j.action = .cz partner r := by
    rw [h.replacement, logical_plain, logical_plain]
    rfl
  exact couples_of_valid_cz hj h.valid

/-- Every state that is held was needed where it is. -/
def Needed (a : DynamicArchitecture) (b : ResonatorBank) : Prop :=
  ∀ s q, b.holder? s = some q → q ≠ s → a.Held q s

/-- A MOVE of the router keeps all held states needed. -/
theorem Needed.applied {b₁ : ResonatorBank} (hneeded : Needed a b) (hb : b.Serves a)
    (applied : b.applied? q r = some b₁)
    (wanted : b.holder? r = some r → (ofMapping a none).Wanted b₁ source q r)
    (qubits : ∀ i ∈ source, ∀ q ∈ i.qubits, a.isQubit q = true) : Needed a b₁ := by
  refine ResonatorBank.HeldFor.applied hneeded applied fun hempty => ?_
  have hmem := ResonatorBank.mem_qubitsOf_of_allows
    (ResonatorBank.applied?_eq_some_iff.1 applied).1
  -- the state that enters is needed by the next gate
  obtain ⟨i, rest, j, partner, rfl, hreroutes⟩ := wanted hempty
  exact ⟨(hb.mem_qubitsOf_iff.1 hmem).2, partner, hreroutes.ne,
    qubits i List.mem_cons_self partner hreroutes.partner_mem_qubits, hreroutes.couples⟩

section Free

variable (checked : a.check = .ok ()) (noClash : ¬ a.Clash) (hb : b.Serves a)
  (hneeded : Needed a b)
include checked noClash hb hneeded

/-- Without a clash the qubits of direct gates have their own states. -/
theorem Needed.placement_of_couples (hp : a.isQubit p = true) (hq : a.isQubit q = true)
    (h : a.Couples p q) : b.placement p = p := by
  have hfree := hb.not_tracks (DynamicArchitecture.not_isResonator_of_isQubit checked hp)
  refine ResonatorBank.placement_of_free hb.toSeparated hfree fun s hs => ?_
  exact noClash ⟨p, s, q, hneeded s p hs (ResonatorBank.ne_of_not_tracks hfree hs), hq, h⟩

theorem Keeps.states_of_isCz (kept : (ofMapping a none).Keeps b i) (hcz : i.isCz = true)
    (qubits : ∀ q ∈ i.qubits, a.isQubit q = true) : i.qubits.map b.placement = i.qubits := by
  have hvalid : (ofMapping a none).validate i = .ok () := by
    rcases kept.ready with ⟨-, hvalid⟩ | ⟨hnot, -⟩
    · exact hvalid
    · rw [hnot] at hcz
      exact absurd hcz (by decide)
  obtain ⟨p, q, haction⟩ := Instruction.isCz_iff.1 hcz
  have hcouples := couples_of_valid_cz haction hvalid
  rw [Instruction.qubits_of_cz haction] at qubits ⊢
  have hp := qubits p List.mem_cons_self
  have hq := qubits q (List.mem_cons_of_mem _ List.mem_cons_self)
  rw [Placement.map_eq_self_iff]
  refine List.forall_mem_cons.2 ⟨?_, List.forall_mem_singleton.2 ?_⟩
  · exact hneeded.placement_of_couples checked noClash hb hp hq hcouples
  · exact hneeded.placement_of_couples checked noClash hb hq hp hcouples.symm

end Free

/-- Without a clash no direct gate meets a held state. -/
theorem Routes.directOnOwn (run : (ofMapping a none).Routes b source out b')
    (checked : a.check = .ok ()) (noClash : ¬ a.Clash) (hb : b.Serves a) (hneeded : Needed a b)
    (noMoves : ∀ i ∈ source, i.isMove = false)
    (qubits : ∀ i ∈ source, ∀ q ∈ i.qubits, a.isQubit q = true) :
    DirectOnOwn a (b.placement.trace out) := by
  -- along the run every held state stays needed
  induction run with
  | done => exact fun e he => absurd he List.not_mem_nil
  | move applied wanted _ ih =>
      rw [Placement.trace_cons_of_move rfl, Placement.step_move, logical_plain, logical_plain,
        ← ResonatorBank.placement_applied hb.toSeparated applied]
      exact ih (hb.applied applied) (hneeded.applied hb applied wanted qubits) noMoves qubits
  | @follow b b₁ b' i q r source out _ hmove _ _ _ _ =>
      exact absurd hmove
        (Instruction.isMove_eq_false_iff.1 (noMoves i List.mem_cons_self) q r)
  | keep kept _ ih =>
      rw [List.forall_mem_cons] at noMoves qubits
      rw [Placement.trace_cons_of_not_move kept.other, DirectOnOwn, List.forall_mem_cons]
      refine ⟨fun hcz hall => ?_, ih hb hneeded noMoves.2 qubits.2⟩
      exact kept.states_of_isCz checked noClash hb hneeded hcz hall
  | reroute rerouted _ ih =>
      rw [List.forall_mem_cons] at noMoves qubits
      rw [Placement.trace_cons_of_not_move rerouted.not_isMove, DirectOnOwn, List.forall_mem_cons]
      refine ⟨fun _ hall => ?_, ih hb hneeded noMoves.2 qubits.2⟩
      exact absurd hall (rerouted.not_between_qubits hb checked)

/-! ### With a clash -/

/-- There is always a name that no implementation of a gate has. -/
theorem exists_unknown_implementation (a : DynamicArchitecture) (gate : String) :
    ∃ name, name ≠ "" ∧ ∀ loci, calibratedLoci a gate (some name) ≠ .ok loci := by
  -- a name besides the empty one and the ones of the gate
  obtain ⟨name, hname⟩ := Infinite.exists_notMem_finset
    ("" :: ((a.gates.get? gate).map (·.implementations.keys)).getD []).toFinset
  rw [List.mem_toFinset, List.mem_cons, not_or] at hname
  refine ⟨name, hname.1, fun loci h => ?_⟩
  obtain ⟨g, hg, hloci⟩ := calibratedLoci_eq_ok_iff.1 h
  rw [hg] at hname
  exact hname.2 (Table.mem_keys_of_get? hloci)

theorem czScore_cons_of_isCz (hcz : i.isCz = true) : ResonatorBank.czScore q (i :: lookahead) =
    if q ∈ i.qubits then ResonatorBank.czScore q lookahead + 1
    else ResonatorBank.czScore q lookahead := by
  rw [ResonatorBank.czScore, hcz]
  by_cases hq : q ∈ i.qubits
  · rw [if_pos (List.contains_iff_mem.2 hq), if_pos hq, if_pos rfl]
  · rw [if_neg (by simpa using hq), if_neg hq]

/-- Of the components of a gate one is moved that the next gate needs, too. -/
theorem mem_qubits_of_czScore_le (hi : i.isCz = true) (hj : j.isCz = true) (hq : q ∈ i.qubits)
    (hqj : q ∈ j.qubits) (hmoved : moved ∈ i.qubits)
    (hscore : ResonatorBank.czScore q [i, j] ≤ ResonatorBank.czScore moved [i, j]) :
    moved ∈ j.qubits := by
  -- the first gate is on both of them, so the second one decides
  by_contra hnot
  rw [czScore_cons_of_isCz hi, czScore_cons_of_isCz hi, if_pos hq, if_pos hmoved,
    czScore_cons_of_isCz hj, czScore_cons_of_isCz hj, if_pos hqj, if_neg hnot] at hscore
  exact absurd hscore (by simp [ResonatorBank.czScore])

/-- A gate of `p` and `q` that cannot run as it stands, and then one of `q` and `q'`. -/
def clashing (p q q' implementation : String) : List Instruction :=
  [⟨.cz p q, some implementation⟩, .cz q q']

theorem validate_unknown (unknown : ∀ loci, calibratedLoci a "cz" (some name) ≠ .ok loci) :
    (ofMapping a none).validate ⟨.cz p q, some name⟩ ≠ .ok () := by
  intro hvalid
  have hpermits := (validate_plain_iff.1 hvalid).2
  rw [permits_cz] at hpermits
  cases hloci : calibratedLoci a "cz" (some name) with
  | ok loci => exact unknown loci hloci
  | error v =>
      rw [hloci] at hpermits
      exact absurd hpermits Bool.false_ne_true

theorem validate_of_couples (hp : a.hasComponent p = true) (hq : a.hasComponent q = true)
    (h : a.Couples p q) : (ofMapping a none).validate (.cz p q) = .ok () := by
  obtain ⟨locus, hlocus, hperm⟩ := h
  exact validate_cz_plain hp hq (permits_cz_of_calibrated p q hlocus hperm)

/-- From empty resonators a gate that cannot run as it stands is routed through one of them, with
the state of the qubit that more of the gates to come need. -/
theorem exists_route_of_held {implementation : Option String} (hb : b.Serves a)
    (rest : b.AtRest) (hmove : [q, r] ∈ a.moveLoci) (hr : a.isResonator r = true) (hne : p ≠ q)
    (hp : a.hasComponent p = true) (hpr : a.Couples p r)
    (hinvalid : (ofMapping a none).validate ⟨.cz p q, implementation⟩ ≠ .ok ())
    (lookahead : List Instruction) :
    ∃ out b' s moved, (ofMapping a none).route b ⟨.cz p q, implementation⟩ [p, q] lookahead =
        .ok (out, b') ∧ b'.holder? s = some moved ∧ moved ∈ b.qubitsOf s ∧ moved ∈ [p, q] ∧
      ResonatorBank.czScore q lookahead ≤ ResonatorBank.czScore moved lookahead := by
  have hlocus : (ofMapping a none).locus ⟨.cz p q, implementation⟩ = [p, q] := locus_plain _
  have hsources : b.sources [p, q] = [p, q] := by
    rw [ResonatorBank.sources, rest.holding_eq_nil hb.nodup]
    rfl
  have hq : q ∈ [p, q] := List.mem_cons_of_mem _ List.mem_cons_self
  have hpair : (r, q) ∈ b.rankedPairs [p, q] lookahead :=
    (ResonatorBank.mem_rankedPairs_iff hb.nodup).2 ⟨hq, hb.mem_qubitsOf_iff.2 ⟨hr, hmove⟩⟩
  have hvalid := validate_of_couples hp (DynamicArchitecture.hasComponent_of_isResonator hr) hpr
  have husable := usable_plain hq hne (.refl _) hvalid
  obtain ⟨s, moved, j, hchosen⟩ := exists_usablePair? hpair husable
  obtain ⟨hmem, -, hbest⟩ := usablePair?_eq_some _
    (ResonatorBank.rankedPairs_pairwise b [p, q] lookahead) hchosen
  obtain ⟨hmoved, hreach⟩ := (ResonatorBank.mem_rankedPairs_iff hb.nodup).1 hmem
  rw [← hlocus, route_of_invalid_cz rfl hinvalid, hlocus]
  refine ⟨_, _, s, moved,
    (throughResonator_eq_ok_iff_rerouted hb.toSeparated).2 ⟨s, moved, j, ?_, rfl, rfl⟩,
    ResonatorBank.holder?_rerouted_self hreach, hreach, hmoved, hbest r q _ hpair husable⟩
  rw [hsources]
  exact hchosen

/-- A direct gate stays, whatever is held. -/
theorem route_of_couples (hq : a.isQubit q = true) (hq' : a.isQubit q' = true)
    (h : a.Couples q q') (lookahead : List Instruction) :
    (ofMapping a none).route b (.cz q q') [q, q'] lookahead = .ok ([.cz q q'], b) := by
  have hlocus : (ofMapping a none).locus (.cz q q') = [q, q'] := locus_plain _
  have hvalid := validate_of_couples (DynamicArchitecture.hasComponent_of_isQubit hq)
    (DynamicArchitecture.hasComponent_of_isQubit hq') h
  rw [← hlocus, route_of_not_held (Or.inr (Or.inl rfl)), hvalid]
  dsimp only
  rw [follow_of_not_move rfl]
  rfl

/-- The clashing gates are routed so that the second one finds a state of it in a resonator. -/
theorem exists_routeAll_of_clash (hb : b.Serves a) (rest : b.AtRest)
    (hmove : [q, r] ∈ a.moveLoci) (hr : a.isResonator r = true) (hne : p ≠ q)
    (hp : a.isQubit p = true) (hpr : a.Couples p r) (hq : a.isQubit q = true)
    (hq' : a.isQubit q' = true) (hqq' : a.Couples q q')
    (unknown : ∀ loci, calibratedLoci a "cz" (some name) ≠ .ok loci) :
    ∃ out b' s moved, (ofMapping a none).routeAll b (clashing p q q' name)
        ((clashing p q q' name).map (·.mapQubits (renamed (ofMapping a none).mapping))) =
        .ok (out ++ [.cz q q'], b') ∧
      (ofMapping a none).Routes b [⟨.cz p q, some name⟩] out b' ∧
      b'.holder? s = some moved ∧ moved ∈ [q, q'] := by
  have hfirst : (ofMapping a none).locus ⟨.cz p q, some name⟩ = [p, q] := locus_plain _
  have hsecond : (ofMapping a none).locus (.cz q q') = [q, q'] := locus_plain _
  have hmapped : (ofMapping a none).Mapped ⟨.cz p q, some name⟩ :=
    mapped_plain_iff.2 (List.forall_mem_cons.2 ⟨DynamicArchitecture.hasComponent_of_isQubit hp,
      List.forall_mem_singleton.2 (DynamicArchitecture.hasComponent_of_isQubit hq)⟩)
  obtain ⟨out, b', s, moved, hroute, hheld, -, hmoved, hscore⟩ :=
    exists_route_of_held hb rest hmove hr hne (DynamicArchitecture.hasComponent_of_isQubit hp) hpr
      (validate_unknown unknown) (clashing p q q' name)
  rw [← hfirst, ← map_mapQubits_plain (a := a) (clashing p q q' name)] at hroute
  refine ⟨out, b', s, moved, ?_, ?_, hheld, mem_qubits_of_czScore_le rfl rfl
    (List.mem_cons_of_mem _ List.mem_cons_self) List.mem_cons_self hmoved hscore⟩
  · refine routeAll_pair hroute ?_
    rw [hsecond]
    exact route_of_couples hq hq' hqq' _
  · exact routes_of_route hb.toSeparated hmapped hroute

/-- A gate between qubits of which one is held does not find its own states. -/
theorem not_directOnOwn_of_held (checked : a.check = .ok ())
    (hb' : b'.Serves a) (hafter : b.placement.after out = b'.placement)
    (hq : a.isQubit q = true) (hq' : a.isQubit q' = true) (hheld : b'.holder? s = some moved)
    (hmoved : moved ∈ [q, q']) (more : List Instruction) :
    ¬ DirectOnOwn a (b.placement.trace (out ++ [.cz q q'] ++ more)) := by
  intro hdirect
  have hqubits : ∀ t ∈ [q, q'], a.isQubit t = true :=
    List.forall_mem_cons.2 ⟨hq, List.forall_mem_singleton.2 hq'⟩
  have hmem : (Instruction.cz q q', [q, q'].map b'.placement) ∈
      b.placement.trace (out ++ [.cz q q'] ++ more) := by
    rw [Placement.trace_append, Placement.trace_append, hafter]
    exact List.mem_append_left _ (List.mem_append_right _ List.mem_cons_self)
  have hplace := Placement.map_eq_self_iff.1 (hdirect _ hmem rfl hqubits) moved hmoved
  have hfree := hb'.not_tracks
    (DynamicArchitecture.not_isResonator_of_isQubit checked (hqubits moved hmoved))
  rw [ResonatorBank.placement_of_held hb'.toSeparated hheld hfree] at hplace
  exact ResonatorBank.ne_of_not_tracks hfree hheld hplace.symm

/-- **A clash breaks sandwiches**: the second of the clashing gates does not find its own states. -/
theorem exists_not_directOnOwn_of_clash (checked : a.check = .ok ())
    (moves : a.MovesIntoResonators) (clash : a.Clash) (existing : Option ExistingMoves) :
    ∃ c c' : Circuit, c.containsMoves = false ∧
      (∀ i ∈ c.instructions, ∀ q ∈ i.qubits, a.isQubit q = true) ∧
      (insertMoves c a existing none).result = .ok c' ∧
      ¬ DirectOnOwn a (Placement.own.trace c'.instructions) := by
  -- an implementation that does not exist makes the router look for a resonator even if the first
  -- gate is calibrated as it stands
  obtain ⟨q, r, q', ⟨hmove, p, hne, hp, hpr⟩, hq', hqq'⟩ := clash
  obtain ⟨name, -, unknown⟩ := exists_unknown_implementation a "cz"
  have hq := moves.isQubit hmove
  have hr := moves.isResonator hmove
  have hb := ResonatorBank.serves_ofArchitecture checked moves
  have hown := ResonatorBank.placement_own hb.toSeparated (ResonatorBank.atRest_ofArchitecture a)
  have hqubits : ∀ i ∈ clashing p q q' name, ∀ t ∈ i.qubits, a.isQubit t = true := by
    refine List.forall_mem_cons.2 ⟨?_, List.forall_mem_singleton.2 ?_⟩
    · exact List.forall_mem_cons.2 ⟨hp, List.forall_mem_singleton.2 hq⟩
    · exact List.forall_mem_cons.2 ⟨hq, List.forall_mem_singleton.2 hq'⟩
  obtain ⟨out, b', s, moved, hrouted, run, hheld, hmoved⟩ := exists_routeAll_of_clash hb
    (ResonatorBank.atRest_ofArchitecture a) hmove hr hne hp hpr hq hq' hqq' unknown
  have hsupport := ResonatorBank.supportsMove_of_mem_qubitsOf
    (ResonatorBank.mem_qubitsOf_ofArchitecture_iff.2 ⟨hr, hmove⟩)
  let c : Circuit := ⟨"clash", clashing p q q' name, none, by decide, List.cons_ne_nil _ _⟩
  have hmapped : ∀ i ∈ c.instructions, (ofMapping a none).Mapped i := fun i hi =>
    mapped_plain_iff.2 fun t ht => DynamicArchitecture.hasComponent_of_isQubit (hqubits i hi t ht)
  obtain ⟨c', hinserted, hout⟩ :=
    exists_insertMoves_of_routeAll checked moves (c := c) rfl hsupport hmapped hrouted existing
  refine ⟨c, c', rfl, hqubits, hinserted, ?_⟩
  rw [hout, ← hown]
  exact not_directOnOwn_of_held checked (run.serves hb) (run.after_eq hb.toSeparated) hq hq' hheld
    hmoved _

end RoutingContext

namespace DynamicArchitecture

/-- Whatever circuit on qubits is routed, the result has valid sandwiches. -/
def KeepsSandwiches (a : DynamicArchitecture) (existing : Option ExistingMoves) : Prop :=
  ∀ c c' : Circuit, c.containsMoves = false →
    (∀ i ∈ c.instructions, ∀ q ∈ i.qubits, a.isQubit q = true) →
    (insertMoves c a existing none).result = .ok c' → validateMoves a c' none .strict = .ok ()

variable {existing : Option ExistingMoves}

theorem keepsSandwiches_of_not_clash (checked : a.check = .ok ()) (moves : a.MovesIntoResonators)
    (noClash : ¬ a.Clash) : a.KeepsSandwiches existing := by
  intro c c' noMoves qubits h
  have hother := Circuit.containsMoves_eq_false_iff.1 noMoves
  have hb := ResonatorBank.serves_ofArchitecture checked moves
  have hown := ResonatorBank.placement_own hb.toSeparated (ResonatorBank.atRest_ofArchitecture a)
  rw [validateMoves_insertMoves_iff checked moves noMoves qubits h]
  rcases routes_of_insertMoves checked moves noMoves h with ⟨-, rfl⟩ | ⟨-, -, b', run, -⟩
  · exact RoutingContext.directOnOwn_of_not_move hother
  · have hneeded : RoutingContext.Needed a (.ofArchitecture a) := by
      intro s q hs hne
      exact absurd (ResonatorBank.atRest_ofArchitecture a s q hs) hne
    rw [← hown]
    exact run.directOnOwn checked noClash hb hneeded hother qubits

theorem not_keepsSandwiches_of_clash (checked : a.check = .ok ()) (moves : a.MovesIntoResonators)
    (clash : a.Clash) : ¬ a.KeepsSandwiches existing := by
  intro hkeeps
  obtain ⟨c, c', noMoves, qubits, h, hnot⟩ :=
    RoutingContext.exists_not_directOnOwn_of_clash checked moves clash existing
  have hvalid := hkeeps c c' noMoves qubits h
  exact hnot ((validateMoves_insertMoves_iff checked moves noMoves qubits h).1 hvalid)

/-- **When insertion has valid sandwiches.** The result for one circuit has exactly when each
controlled-Z between qubits in it finds the states of these qubits, and all results have exactly on
the architectures without a clash. -/
theorem sandwiches_valid_iff (checked : a.check = .ok ()) (moves : a.MovesIntoResonators)
    (existing : Option ExistingMoves) :
    (∀ c c' : Circuit, c.containsMoves = false →
        (∀ i ∈ c.instructions, ∀ q ∈ i.qubits, a.isQubit q = true) →
        (insertMoves c a existing none).result = .ok c' →
        (validateMoves a c' none .strict = .ok () ↔
          RoutingContext.DirectOnOwn a (Placement.own.trace c'.instructions))) ∧
      (a.KeepsSandwiches existing ↔ ¬ a.Clash) := by
  refine ⟨fun c c' noMoves qubits h => ?_, ?_, ?_⟩
  · exact validateMoves_insertMoves_iff checked moves noMoves qubits h
  · intro hkeeps clash
    exact not_keepsSandwiches_of_clash checked moves clash hkeeps
  · exact keepsSandwiches_of_not_clash checked moves

/-- Two couplings in a row: `Q1` is coupled to `Q2` through the resonator, `Q2` to `Q3` directly. -/
def coupledInARow : DynamicArchitecture :=
  ((DynamicArchitecture.mk .nil ["Q1", "Q2", "Q3"] ["R"] .empty).withGate "cz"
    (singleGate "tgss" [["Q1", "R"], ["Q2", "Q3"]])).withGate "move"
    (singleGate "tgss_crf" [["Q2", "R"]])

theorem check_coupledInARow : coupledInARow.check = .ok () := by cbv

theorem moveLoci_coupledInARow : coupledInARow.moveLoci = [["Q2", "R"]] := by cbv

theorem movesIntoResonators_coupledInARow : coupledInARow.MovesIntoResonators := by
  rw [MovesIntoResonators, moveLoci_coupledInARow, List.forall_mem_singleton]
  exact ⟨"Q2", "R", rfl, by decide, by decide⟩

theorem clash_coupledInARow : coupledInARow.Clash := by
  have hcalibrated : coupledInARow.calibrated "cz" = [["Q1", "R"], ["Q2", "Q3"]] := by cbv
  have hheld : coupledInARow.Held "Q2" "R" := by
    refine ⟨?_, "Q1", by decide, by decide, ["Q1", "R"], ?_, .refl _⟩
    · rw [moveLoci_coupledInARow]
      exact List.mem_cons_self
    · rw [hcalibrated]
      exact List.mem_cons_self
  refine ⟨"Q2", "R", "Q3", hheld, by decide, ["Q2", "Q3"], ?_, .refl _⟩
  rw [hcalibrated]
  exact List.mem_cons_of_mem _ List.mem_cons_self

/-- The sample circuits of this module, and of those that build on it, are all called `c`. -/
theorem sampleName_ne_empty : "c" ≠ "" := by decide

/-- Two gates in a row. -/
def gatesInARow : Circuit where
  name := "c"
  instructions := [.cz "Q1" "Q2", .cz "Q2" "Q3"]
  name_ne_empty := sampleName_ne_empty
  instructions_ne_nil := List.cons_ne_nil _ _

/-- What insertion makes of them: the second gate meets a qubit whose state is in the resonator. -/
def routedGatesInARow : Circuit where
  name := "c"
  instructions := [.move "Q2" "R", .cz "Q1" "R", .cz "Q2" "Q3", .move "Q2" "R"]
  name_ne_empty := sampleName_ne_empty
  instructions_ne_nil := List.cons_ne_nil _ _

theorem qubits_gatesInARow :
    ∀ i ∈ gatesInARow.instructions, ∀ q ∈ i.qubits, coupledInARow.isQubit q = true := by decide

theorem insertMoves_gatesInARow :
    (insertMoves gatesInARow coupledInARow none none).result = .ok routedGatesInARow := by cbv

theorem sandwiches_valid_iff_coupledInARow :
    (validateMoves coupledInARow routedGatesInARow none .strict = .ok () ↔
        RoutingContext.DirectOnOwn coupledInARow
          (Placement.own.trace routedGatesInARow.instructions)) ∧
      ¬ coupledInARow.KeepsSandwiches none := by
  obtain ⟨hcircuit, hall⟩ :=
    sandwiches_valid_iff check_coupledInARow movesIntoResonators_coupledInARow none
  refine ⟨hcircuit gatesInARow routedGatesInARow rfl qubits_gatesInARow insertMoves_gatesInARow, ?_⟩
  intro hkeeps
  exact hall.1 hkeeps clash_coupledInARow

theorem invalid_sandwich_coupledInARow :
    coupledInARow.check = .ok () ∧ coupledInARow.MovesIntoResonators ∧
      ["Q2", "R"] ∈ coupledInARow.moveLoci ∧ gatesInARow.containsMoves = false ∧
      (∀ i ∈ gatesInARow.instructions, ∀ q ∈ i.qubits, coupledInARow.isQubit q = true) ∧
      (insertMoves gatesInARow coupledInARow none none).result = .ok routedGatesInARow ∧
      validateMoves coupledInARow routedGatesInARow none .strict ≠ .ok () := by
  refine ⟨check_coupledInARow, movesIntoResonators_coupledInARow, ?_, rfl, qubits_gatesInARow,
    insertMoves_gatesInARow, ?_⟩
  · rw [moveLoci_coupledInARow]
    exact List.mem_cons_self
  · decide +kernel

end DynamicArchitecture

end StarQpu
