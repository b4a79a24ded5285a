import StarQpu.Proofs.Routing.Clash
import StarQpu.Proofs.Simplified

/-!
# StarQpu.Proofs.Routing.Realizable

**Which circuits of the simplified view can be routed.** A star couples its qubits through
resonators only, so a gate of the simplified view is there because the state of one of its qubits
can be fetched for it, that is, moved to a resonator on which the other one has a gate. Each gate
alone can be routed. In a row they need not: while states of a gate are held, the router moves no
other ones, and none of these may be one that can be fetched for the gate. Then the router is
`Stuck`, and this is the only way to fail. It cannot happen where a state that can be fetched for
one of its gates can be fetched for each of them, and on any other star there is a circuit of two
gates to which it happens.
-/

namespace StarQpu

variable {a : DynamicArchitecture} {b b' : ResonatorBank} {c : Circuit} {i : Instruction}
  {existing : Option ExistingMoves} {p q r t moved partner : String}
  {source rest lookahead : List Instruction}

namespace DynamicArchitecture

/-- Every controlled-Z couples a qubit to a resonator, every MOVE takes a qubit to a resonator, and
no other gate uses a resonator. -/
structure Star (a : DynamicArchitecture) : Prop where
  checked : a.check = .ok ()
  moves : a.MovesIntoResonators
  cz : ∀ locus ∈ a.calibrated "cz", ∃ q r, (locus = [q, r] ∨ locus = [r, q]) ∧
    a.isQubit q = true ∧ a.isResonator r = true
  others : ∀ gate, gate ≠ "cz" → gate ≠ "move" →
    ∀ locus ∈ a.calibrated gate, ∀ c ∈ locus, a.isResonator c = false

/-- The state of `q` can be fetched for a gate with `p`: it can be moved to a resonator on which `p`
has one. -/
def Fetches (a : DynamicArchitecture) (q p : String) : Prop :=
  ∃ r, [q, r] ∈ a.moveLoci ∧ a.Couples p r

/-- A circuit of the simplified view. -/
structure ValidSimplified (a : DynamicArchitecture) (c : Circuit) : Prop where
  noMoves : c.containsMoves = false
  valid : ∀ i ∈ c.instructions, validateInstruction (simplifiedArchitecture a) i none = .ok ()

theorem ValidSimplified.not_isMove (h : a.ValidSimplified c) :
    ∀ i ∈ c.instructions, i.isMove = false :=
  Circuit.containsMoves_eq_false_iff.1 h.noMoves

namespace Star

variable (star : a.Star)
include star

theorem exists_resonator : ∀ locus ∈ a.calibrated "cz", ∃ c ∈ locus, a.isResonator c = true := by
  intro locus hlocus
  obtain ⟨q, r, hpair, -, hr⟩ := star.cz locus hlocus
  rcases hpair with rfl | rfl
  · exact ⟨r, List.mem_cons_of_mem _ List.mem_cons_self, hr⟩
  · exact ⟨r, List.mem_cons_self, hr⟩

/-- What is coupled to a resonator is a qubit, and calibrated together with it as it is on a
star. -/
theorem calibrated_of_couples (hr : a.isResonator r = true) (h : a.Couples p r) :
    a.isQubit p = true ∧ ∃ locus ∈ a.calibrated "cz", locus = [p, r] ∨ locus = [r, p] := by
  obtain ⟨locus, hlocus, hperm⟩ := h
  obtain ⟨q, s, hpair, hq, -⟩ := star.cz locus hlocus
  have hsame : [q, s].Perm [p, r] := by
    rcases hpair with rfl | rfl
    · exact hperm
    · exact (List.Perm.swap _ _ []).trans hperm
  rcases List.perm_pair.1 hsame with heq | heq
  · obtain ⟨rfl, rfl⟩ : q = p ∧ s = r := by simpa using heq
    exact ⟨hq, locus, hlocus, hpair⟩
  · -- the qubit is not the resonator
    obtain ⟨rfl, -⟩ : q = r ∧ s = p := by simpa using heq
    rw [not_isResonator_of_isQubit star.checked hq] at hr
    exact absurd hr (by decide)

theorem isQubit_of_fetches (h : a.Fetches q p) : a.isQubit q = true ∧ a.isQubit p = true := by
  obtain ⟨r, hmove, hpr⟩ := h
  exact ⟨star.moves.isQubit hmove,
    (star.calibrated_of_couples (star.moves.isResonator hmove) hpr).1⟩

/-! ### What is valid on the simplified architecture -/

/-- An instruction other than a controlled-Z or a MOVE is checked against the same loci. -/
theorem permits_of_simplified (hcz : i.isCz = false) (hmove : i.isMove = false)
    (h : (simplifiedArchitecture a).permits i i.qubits = true) :
    a.permits i i.qubits = true ∧ ∀ q ∈ i.qubits, a.isQubit q = true := by
  by_cases hskip : i.action.operation.locusCheck = .skip
  · rw [permits, if_pos hskip, List.all_eq_true] at h
    have hqubit : ∀ q ∈ i.qubits, a.isQubit q = true := fun q hq => hasComponent_simplified (h q hq)
    refine ⟨?_, hqubit⟩
    rw [permits, if_pos hskip, List.all_eq_true]
    exact fun q hq => hasComponent_of_isQubit (hqubit q hq)
  · obtain ⟨loci', hloci', hpermitted⟩ := (permits_iff_of_not_skip hskip).1 h
    obtain ⟨loci, hloci, hall⟩ := exists_of_simplified hloci'
    have hnotcz : i.name ≠ "cz" := by
      rw [ne_eq, Instruction.name_eq_cz_iff, hcz]
      decide
    have hnotmove : i.name ≠ "move" := by
      rw [ne_eq, Instruction.name_eq_move_iff, hmove]
      decide
    have hfree : ∀ locus ∈ loci, ∀ c ∈ locus, a.isResonator c = false := fun locus hlocus =>
      star.others i.name hnotcz hnotmove locus (mem_calibrated_of_calibratedLoci hloci hlocus)
    have hsub : ∀ locus' ∈ loci', locus' ∈ loci := by
      intro locus' hlocus'
      obtain ⟨locus, hlocus, hsource⟩ := hall locus' hlocus'
      rw [simplifyLocus_of_free (hfree locus hlocus), List.mem_singleton] at hsource
      rw [hsource]
      exact hlocus
    have hpermits := locusPermitted_mono hsub hpermitted
    refine ⟨(permits_iff_of_not_skip hskip).2 ⟨loci, hloci, hpermits⟩, ?_⟩
    intro q hq
    obtain ⟨other, hother, hmem⟩ := exists_of_locusPermitted hpermitted hq
    have hcomponent := hasComponent_of_calibrated star.checked
      (mem_calibrated_of_calibratedLoci hloci (hsub other hother)) hmem
    rw [hasComponent, hfree other (hsub other hother) q hmem, Bool.or_false] at hcomponent
    exact hcomponent

/-- Of two qubits that may act on each other in the simplified view one can be fetched. -/
theorem fetches_of_simplified (hcz : i.action = .cz p q)
    (h : (simplifiedArchitecture a).permits i i.qubits = true) :
    p ≠ q ∧ (a.Fetches p q ∨ a.Fetches q p) := by
  have hexact : i.action.operation.locusCheck ≠ .skip := by
    rw [hcz]
    show LocusCheck.exact ≠ LocusCheck.skip
    decide
  obtain ⟨loci', hloci', hpermitted⟩ := (permits_iff_of_not_skip hexact).1 h
  obtain ⟨loci, hloci, hall⟩ := exists_of_simplified hloci'
  rw [Instruction.name_eq_cz_iff.2 (Instruction.isCz_iff.2 ⟨p, q, hcz⟩)] at hloci
  rw [hcz, Instruction.qubits_of_cz hcz] at hpermitted
  obtain ⟨locus', hlocus', hperm⟩ := locusPermitted_cz_iff.1 hpermitted
  obtain ⟨locus, hlocus, hsource⟩ := hall locus' hlocus'
  have hcalibrated := mem_calibrated_of_calibratedLoci hloci hlocus
  obtain ⟨s, r, hpair, hs, hr⟩ := star.cz locus hcalibrated
  obtain ⟨t, ht, hts, hperm'⟩ := mem_simplifyLocus_pair
    (not_isResonator_of_isQubit star.checked hs) hr hpair hsource
  have hfetches : a.Fetches t s := by
    refine ⟨r, (ResonatorBank.mem_qubitsOf_ofArchitecture_iff.1 ht).2, locus, hcalibrated, ?_⟩
    rcases hpair with rfl | rfl
    · exact .refl _
    · exact .swap _ _ []
  rcases List.perm_pair.1 (hperm.symm.trans hperm') with heq | heq
  · obtain ⟨rfl, rfl⟩ : p = s ∧ q = t := by simpa using heq
    exact ⟨hts.symm, Or.inr hfetches⟩
  · obtain ⟨rfl, rfl⟩ : p = t ∧ q = s := by simpa using heq
    exact ⟨hts, Or.inl hfetches⟩

/-- A gate for which a state can be fetched is there in the simplified view. -/
theorem simplified_of_fetches (hne : q ≠ p) (h : a.Fetches q p) {i : Instruction}
    (hi : i = .cz p q ∨ i = .cz q p) :
    validateInstruction (simplifiedArchitecture a) i none = .ok () := by
  obtain ⟨r, hmove, hpr⟩ := h
  have hr := star.moves.isResonator hmove
  obtain ⟨hp, locus, hlocus, hpair⟩ := star.calibrated_of_couples hr hpr
  obtain ⟨locus', hlocus', hperm⟩ := exists_mem_simplifyLocus_pair
    (not_isResonator_of_isQubit star.checked hp) hr hpair
    (ResonatorBank.mem_qubitsOf_ofArchitecture_iff.2 ⟨hr, hmove⟩) hne
  have hcalibrated := mem_calibrated_simplified (by decide) hlocus hlocus'
  rw [validateInstruction_none_eq_ok_iff]
  rcases hi with rfl | rfl
  · exact permits_cz_of_calibrated p q hcalibrated hperm
  · exact permits_cz_of_calibrated q p hcalibrated (hperm.trans (.swap _ _ []))

theorem isQubit_of_simplified (hmove : i.isMove = false)
    (h : validateInstruction (simplifiedArchitecture a) i none = .ok ()) :
    ∀ q ∈ i.qubits, a.isQubit q = true := by
  rw [validateInstruction_none_eq_ok_iff] at h
  cases hcz : i.isCz with
  | false => exact (star.permits_of_simplified hcz hmove h).2
  | true =>
      obtain ⟨p, q, haction⟩ := Instruction.isCz_iff.1 hcz
      have hqubits : a.isQubit p = true ∧ a.isQubit q = true := by
        rcases (star.fetches_of_simplified haction h).2 with hfetch | hfetch
        · exact star.isQubit_of_fetches hfetch
        · exact (star.isQubit_of_fetches hfetch).symm
      rw [Instruction.qubits_of_cz haction]
      exact List.forall_mem_cons.2 ⟨hqubits.1, List.forall_mem_singleton.2 hqubits.2⟩

end Star

end DynamicArchitecture

namespace RoutingContext

/-! ### One instruction -/

/-- A state of the gate is held, and none that is held can be fetched for it. -/
def Stuck (a : DynamicArchitecture) (b : ResonatorBank) (i : Instruction) : Prop :=
  i.isCz = true ∧ b.holding i.qubits ≠ [] ∧ ∀ s partner moved,
    i.qubits.Perm [partner, moved] → b.holder? s = some moved → ¬ a.Fetches moved partner

/-- The gate of two qubits is in the list. -/
def Gated (l : List Instruction) (q p : String) : Prop :=
  ∃ i ∈ l, i.isCz = true ∧ i.qubits.Perm [q, p]

/-- A state that can be fetched for one of its gates can be fetched for each of them. -/
def FetchesAlike (a : DynamicArchitecture) (l : List Instruction) : Prop :=
  ∀ q p t, Gated l q p → Gated l q t → a.Fetches q t → a.Fetches q p

section OneInstruction

variable (star : a.Star) (hb : b.Serves a)
include star hb

/-- A gate gets through a resonator when a state that may be moved can be fetched for it. -/
theorem exists_throughResonator_iff_fetches (hpq : p ≠ q) :
    (∃ out b', (ofMapping a none).throughResonator b [p, q] lookahead = .ok (out, b')) ↔
      ∃ partner moved, [p, q].Perm [partner, moved] ∧ moved ∈ b.sources [p, q] ∧
        a.Fetches moved partner := by
  rw [exists_throughResonator_iff hb.toSeparated]
  constructor
  · intro h
    obtain ⟨r, moved, j, hsource, hmoved, husable⟩ := h
    have hmem := ResonatorBank.mem_of_mem_sources hb.nodup hsource
    obtain ⟨partner, -, hperm, rfl, hvalid⟩ := (usable_pair_iff hmem).1 husable
    rw [logical_plain, logical_plain] at hvalid
    exact ⟨partner, moved, hperm, hsource, r, (hb.mem_qubitsOf_iff.1 hmoved).2,
      couples_of_valid_cz rfl hvalid⟩
  · intro h
    obtain ⟨partner, moved, hperm, hsource, hfetches⟩ := h
    have hpartner :=
      DynamicArchitecture.hasComponent_of_isQubit (star.isQubit_of_fetches hfetches).2
    obtain ⟨r, hmove, hcouples⟩ := hfetches
    have hr := star.moves.isResonator hmove
    have hcomponent := DynamicArchitecture.hasComponent_of_isResonator hr
    have hne : partner ≠ moved := by
      have hnodup : [partner, moved].Nodup := hperm.nodup_iff.1 (by simpa using hpq)
      simpa using hnodup
    exact ⟨r, moved, _, hsource, hb.mem_qubitsOf_iff.2 ⟨hr, hmove⟩,
      usable_plain (ResonatorBank.mem_of_mem_sources hb.nodup hsource) hne hperm
        (validate_of_couples hpartner hcomponent hcouples)⟩

/-- **The router gets past an instruction of the simplified view** exactly when it is not stuck. -/
theorem exists_route_iff_not_stuck (hmove : i.isMove = false)
    (h : validateInstruction (simplifiedArchitecture a) i none = .ok ()) :
    (∃ out b', (ofMapping a none).route b i ((ofMapping a none).locus i) lookahead =
        .ok (out, b')) ↔ ¬ Stuck a b i := by
  have hqubits := star.isQubit_of_simplified hmove h
  have hfree : ∀ q ∈ i.qubits, b.tracks q = false := fun q hq =>
    hb.not_tracks (DynamicArchitecture.not_isResonator_of_isQubit star.checked (hqubits q hq))
  rw [validateInstruction_none_eq_ok_iff] at h
  cases hcz : i.isCz with
  | false =>
      refine iff_of_true (exists_route_of_valid hb.toSeparated hmove ?_ lookahead) ?_
      · exact validate_plain_iff.2
          ⟨fun q hq => DynamicArchitecture.hasComponent_of_isQubit (hqubits q hq),
            (star.permits_of_simplified hcz hmove h).1⟩
      · intro stuck
        rw [stuck.1] at hcz
        exact absurd hcz (by decide)
  | true =>
      obtain ⟨p, q, haction⟩ := Instruction.isCz_iff.1 hcz
      obtain ⟨hpq, hfetch⟩ := star.fetches_of_simplified haction h
      have hinvalid := not_valid_of_cz star.exists_resonator hcz fun q hq =>
        DynamicArchitecture.not_isResonator_of_isQubit star.checked (hqubits q hq)
      have hpair := Instruction.qubits_of_cz haction
      rw [route_of_invalid_cz hcz hinvalid, locus_plain, hpair,
        exists_throughResonator_iff_fetches star hb hpq, ← hpair]
      constructor
      · intro hsome stuck
        obtain ⟨partner, moved, hperm, hsource, hfetches⟩ := hsome
        have hmem := ResonatorBank.mem_of_mem_sources hb.nodup hsource
        rcases (ResonatorBank.mem_sources_iff hb.nodup hmem (hfree moved hmem)).1 hsource with
          hnone | ⟨s, hs⟩
        · exact stuck.2.1 hnone
        · exact stuck.2.2 s partner moved hperm hs hfetches
      · intro hnot
        by_cases hnone : b.holding i.qubits = []
        · -- nothing is held: one of the two qubits will do
          have hsource : ∀ t ∈ i.qubits, t ∈ b.sources i.qubits := fun t ht =>
            (ResonatorBank.mem_sources_iff hb.nodup ht (hfree t ht)).2 (Or.inl hnone)
          rw [hpair] at hsource ⊢
          rcases hfetch with hfetch | hfetch
          · exact ⟨q, p, .swap _ _ [], hsource p List.mem_cons_self, hfetch⟩
          · exact ⟨p, q, .refl _, hsource q (List.mem_cons_of_mem _ List.mem_cons_self), hfetch⟩
        · by_contra hmissing
          refine hnot ⟨hcz, hnone, fun s partner moved hperm hs hfetches => hmissing ?_⟩
          have hmem : moved ∈ i.qubits :=
            hperm.mem_iff.2 (List.mem_cons_of_mem _ List.mem_cons_self)
          exact ⟨partner, moved, hperm,
            (ResonatorBank.mem_sources_iff hb.nodup hmem (hfree moved hmem)).2 (Or.inr ⟨s, hs⟩),
            hfetches⟩

end OneInstruction

/-! ### What is reached -/

theorem Reaches.mem {x : RoutingContext} (h : x.Reaches b source (i :: rest) b')
    (hb : b.Separated) (hmapped : ∀ i ∈ source, x.Mapped i) : i ∈ source := by
  obtain ⟨passed, out, rfl, -⟩ := h.exists_routes hb hmapped
  exact List.mem_append_right _ List.mem_cons_self

/-- Where states can be fetched alike, the states that gates have left in resonators are of use for
the gates that follow. -/
theorem Reaches.not_stuck (hb : b.Serves a) (rested : b.AtRest)
    (h : (ofMapping a none).Reaches b source (i :: rest) b')
    (noMoves : ∀ i ∈ source, i.isMove = false)
    (qubits : ∀ i ∈ source, ∀ q ∈ i.qubits, a.isQubit q = true) (alike : FetchesAlike a source) :
    ¬ Stuck a b' i := by
  intro stuck
  have hmapped : ∀ i ∈ source, (ofMapping a none).Mapped i := fun i hi =>
    mapped_plain_iff.2 fun q hq => DynamicArchitecture.hasComponent_of_isQubit (qubits i hi q hq)
  have hi := h.mem hb.toSeparated hmapped
  obtain ⟨passed, out, rfl, run⟩ := h.exists_routes hb.toSeparated hmapped
  have hb' := run.serves hb
  -- every state that is held was fetched for one of its gates
  have hheld : b'.HeldFor fun q s => ∃ t, Gated (passed ++ i :: rest) q t ∧ a.Couples t s := by
    refine run.heldFor (fun j hj => noMoves j (List.mem_append_left _ hj)) ?_ rested.heldFor
    intro j hj b₁ k partner q s hreroutes
    have hperm := hreroutes.locus
    rw [locus_plain] at hperm
    exact ⟨partner, ⟨j, List.mem_append_left _ hj, hreroutes.cz, hperm.trans (.swap _ _ [])⟩,
      hreroutes.couples⟩
  obtain ⟨s, hs⟩ := List.exists_mem_of_ne_nil _ stuck.2.1
  obtain ⟨moved, hholder, hmoved, hfree⟩ := (ResonatorBank.mem_holding_iff hb'.nodup).1 hs
  have hne := ResonatorBank.ne_of_not_tracks hfree hholder
  obtain ⟨t, hgated, hcouples⟩ := hheld s moved hholder hne
  have hmove : [moved, s] ∈ a.moveLoci :=
    (hb'.mem_qubitsOf_iff.1 ((hb'.holder_mem hholder).resolve_left hne)).2
  obtain ⟨p, q, haction⟩ := Instruction.isCz_iff.1 stuck.1
  obtain ⟨partner, hperm⟩ : ∃ partner, i.qubits.Perm [partner, moved] := by
    rw [Instruction.qubits_of_cz haction] at hmoved ⊢
    rcases List.mem_cons.1 hmoved with rfl | hmoved
    · exact ⟨q, .swap _ _ []⟩
    · rw [List.mem_singleton.1 hmoved]
      exact ⟨p, .refl _⟩
  exact stuck.2.2 s partner moved hperm hholder
    (alike moved partner t ⟨i, hi, stuck.1, hperm.trans (.swap _ _ [])⟩ hgated ⟨s, hmove, hcouples⟩)

/-- A state that was fetched for a first gate and cannot be fetched for a second one is in the way
of the second one. -/
theorem exists_stuck (star : a.Star) (hb : b.Serves a) (rested : b.AtRest) (hne : p ≠ q)
    (hne' : t ≠ q) (hfetches : a.Fetches q t) (hp : a.isQubit p = true)
    (hnot : ¬ a.Fetches q p) :
    ∃ b', (ofMapping a none).Reaches b [.cz t q, .cz p q] [.cz p q] b' ∧
      Stuck a b' (.cz p q) := by
  obtain ⟨hq, ht⟩ := star.isQubit_of_fetches hfetches
  have hpt : p ≠ t := fun heq => hnot (heq ▸ hfetches)
  obtain ⟨r, hmove, hcouples⟩ := hfetches
  have hqubits : ∀ c ∈ [t, q], a.isQubit c = true :=
    List.forall_mem_cons.2 ⟨ht, List.forall_mem_singleton.2 hq⟩
  have hlocus : (ofMapping a none).locus (.cz t q) = [t, q] := locus_plain _
  have hinvalid : (ofMapping a none).validate (.cz t q) ≠ .ok () :=
    not_valid_of_cz star.exists_resonator rfl fun c hc =>
      DynamicArchitecture.not_isResonator_of_isQubit star.checked (hqubits c hc)
  have hmapped : (ofMapping a none).Mapped (.cz t q) := mapped_plain_iff.2 fun c hc =>
    DynamicArchitecture.hasComponent_of_isQubit (hqubits c hc)
  -- of the two qubits of the first gate the router moves the one that the second gate needs
  obtain ⟨out, b', s, moved, hroute, hheld, -, hmoved, hscore⟩ := exists_route_of_held hb rested
    hmove (star.moves.isResonator hmove) hne' (DynamicArchitecture.hasComponent_of_isQubit ht)
    hcouples hinvalid [.cz t q, .cz p q]
  have hsecond := mem_qubits_of_czScore_le rfl rfl (List.mem_cons_of_mem t List.mem_cons_self)
    (List.mem_cons_of_mem p List.mem_cons_self) hmoved hscore
  obtain rfl : moved = q := by
    rcases List.mem_cons.1 hmoved with rfl | hmoved
    · rcases List.mem_cons.1 hsecond with heq | hsecond
      · exact absurd heq.symm hpt
      · exact List.mem_singleton.1 hsecond
    · exact List.mem_singleton.1 hmoved
  rw [← hlocus] at hroute
  have run := routes_of_route hb.toSeparated hmapped hroute
  have hb' := run.serves hb
  have hfree : ∀ c, a.isQubit c = true → b'.tracks c = false := fun c hc =>
    hb'.not_tracks (DynamicArchitecture.not_isResonator_of_isQubit star.checked hc)
  have hfirst : b'.HeldFor fun c _ => c ∈ [t, moved] := by
    refine run.heldFor (List.forall_mem_singleton.2 rfl) (List.forall_mem_singleton.2 ?_)
      rested.heldFor
    intro b₁ j partner c s' hreroutes
    rw [← hlocus]
    exact hreroutes.locus.mem_iff.2 (List.mem_cons_of_mem _ List.mem_cons_self)
  rw [← map_mapQubits_plain (a := a) [.cz t moved, .cz p moved]] at hroute
  refine ⟨b', .step hroute (.here _ _), rfl, ?_, ?_⟩
  · exact List.ne_nil_of_mem ((ResonatorBank.mem_holding_iff hb'.nodup).2
      ⟨moved, hheld, List.mem_cons_of_mem _ List.mem_cons_self, hfree moved hq⟩)
  · intro s' partner c hperm hs' hfetches
    -- the state of the other qubit of the second gate was not moved
    rcases List.perm_pair.1 hperm.symm with heq | heq
    · obtain ⟨rfl, rfl⟩ : partner = p ∧ c = moved := by simpa using heq
      exact hnot hfetches
    · obtain ⟨-, rfl⟩ : partner = moved ∧ c = p := by simpa using heq
      have hmem := hfirst s' c hs' (ResonatorBank.ne_of_not_tracks (hfree c hp) hs')
      rcases List.mem_cons.1 hmem with heq | hmem
      · exact hpt heq
      · exact hne (List.mem_singleton.1 hmem)

end RoutingContext

namespace DynamicArchitecture

/-- On the whole architecture, a state that can be fetched for one of its gates can be fetched for
each of them. -/
def FetchesForAll (a : DynamicArchitecture) : Prop :=
  ∀ q p t, p ≠ q → t ≠ q → a.Fetches q t → a.Fetches p q → a.Fetches q p

/-- Every circuit of the simplified view can be routed. -/
def RoutesSimplified (a : DynamicArchitecture) (existing : Option ExistingMoves) : Prop :=
  ∀ c, a.ValidSimplified c → ∃ c', (insertMoves c a existing none).result = .ok c'

namespace Star

variable (star : a.Star)
include star

/-! ### Whole circuits -/

/-- A controlled-Z is in the simplified view because of a MOVE. -/
theorem supportsMove_of_isCz (h : a.ValidSimplified c) (hi : i ∈ c.instructions)
    (hcz : i.isCz = true) : (ResonatorBank.ofArchitecture a).supportsMove = true := by
  obtain ⟨p, q, haction⟩ := Instruction.isCz_iff.1 hcz
  have hvalid := validateInstruction_none_eq_ok_iff.1 (h.valid i hi)
  rcases (star.fetches_of_simplified haction hvalid).2 with ⟨r, hmove, -⟩ | ⟨r, hmove, -⟩
  · exact star.moves.supportsMove_iff.2 (List.ne_nil_of_mem hmove)
  · exact star.moves.supportsMove_iff.2 (List.ne_nil_of_mem hmove)

/-- **Insertion succeeds** exactly when the router is never stuck. -/
theorem exists_insertMoves_iff_not_stuck (h : a.ValidSimplified c) :
    (∃ c', (insertMoves c a existing none).result = .ok c') ↔ ∀ i rest b,
      (RoutingContext.ofMapping a none).Reaches (.ofArchitecture a) c.instructions (i :: rest) b →
      ¬ RoutingContext.Stuck a b i := by
  have hb := ResonatorBank.serves_ofArchitecture star.checked star.moves
  have hmapped : ∀ i ∈ c.instructions, (RoutingContext.ofMapping a none).Mapped i := fun i hi =>
    RoutingContext.mapped_plain_iff.2 fun q hq => hasComponent_of_isQubit
      (star.isQubit_of_simplified (h.not_isMove i hi) (h.valid i hi) q hq)
  cases hsupport : (ResonatorBank.ofArchitecture a).supportsMove with
  | false =>
      refine iff_of_true ⟨c, result_insertMoves_of_not_supportsMove h.noMoves hsupport⟩ ?_
      intro i rest b hreaches stuck
      rw [star.supportsMove_of_isCz h (hreaches.mem hb.toSeparated hmapped) stuck.1] at hsupport
      exact absurd hsupport (by decide)
  | true =>
      rw [exists_insertMoves_iff star.checked star.moves h.noMoves hsupport hmapped]
      refine forall_congr' fun i => forall_congr' fun rest => forall_congr' fun b =>
        forall_congr' fun hreaches => ?_
      have hi := hreaches.mem hb.toSeparated hmapped
      obtain ⟨passed, out, -, run⟩ := hreaches.exists_routes hb.toSeparated hmapped
      exact RoutingContext.exists_route_iff_not_stuck star (run.serves hb) (h.not_isMove i hi)
        (h.valid i hi)

theorem exists_insertMoves_of_alike (h : a.ValidSimplified c)
    (alike : RoutingContext.FetchesAlike a c.instructions) (existing : Option ExistingMoves) :
    ∃ c', (insertMoves c a existing none).result = .ok c' := by
  rw [star.exists_insertMoves_iff_not_stuck h]
  intro i rest b hreaches
  exact hreaches.not_stuck (ResonatorBank.serves_ofArchitecture star.checked star.moves)
    (ResonatorBank.atRest_ofArchitecture a) h.not_isMove
    (fun i hi => star.isQubit_of_simplified (h.not_isMove i hi) (h.valid i hi)) alike

theorem fetches_of_gated (h : a.ValidSimplified c)
    (hgated : RoutingContext.Gated c.instructions q p) :
    p ≠ q ∧ (a.Fetches p q ∨ a.Fetches q p) := by
  obtain ⟨i, hi, hcz, hperm⟩ := hgated
  obtain ⟨s, t, haction⟩ := Instruction.isCz_iff.1 hcz
  obtain ⟨hne, hfetches⟩ := star.fetches_of_simplified haction
    (validateInstruction_none_eq_ok_iff.1 (h.valid i hi))
  rw [Instruction.qubits_of_cz haction] at hperm
  rcases List.perm_pair.1 hperm with heq | heq
  · obtain ⟨rfl, rfl⟩ : s = q ∧ t = p := by simpa using heq
    exact ⟨hne.symm, hfetches.symm⟩
  · obtain ⟨rfl, rfl⟩ : s = p ∧ t = q := by simpa using heq
    exact ⟨hne, hfetches⟩

theorem alike_of_fetchesForAll (h : a.ValidSimplified c) (all : a.FetchesForAll) :
    RoutingContext.FetchesAlike a c.instructions := by
  intro q p t hp ht hfetches
  obtain ⟨hne, hfetch⟩ := star.fetches_of_gated h hp
  rcases hfetch with hfetch | hfetch
  · exact all q p t hne (star.fetches_of_gated h ht).1 hfetches hfetch
  · exact hfetch

theorem fetchesForAll_of_routesSimplified (all : a.RoutesSimplified existing) :
    a.FetchesForAll := by
  intro q p t hne hne' hfetches hfetch
  by_contra hnot
  have hb := ResonatorBank.serves_ofArchitecture star.checked star.moves
  obtain ⟨b, hreaches, stuck⟩ := RoutingContext.exists_stuck star hb
    (ResonatorBank.atRest_ofArchitecture a) hne hne' hfetches (star.isQubit_of_fetches hfetch).1
    hnot
  have hvalid : a.ValidSimplified
      ⟨"gates", [.cz t q, .cz p q], none, by decide, List.cons_ne_nil _ _⟩ := by
    refine ⟨rfl, List.forall_mem_cons.2 ⟨?_, List.forall_mem_singleton.2 ?_⟩⟩
    · exact star.simplified_of_fetches hne'.symm hfetches (Or.inl rfl)
    · exact star.simplified_of_fetches hne hfetch (Or.inr rfl)
  exact (star.exists_insertMoves_iff_not_stuck hvalid).1 (all _ hvalid) _ _ b hreaches stuck

/-- **When the simplified view can be routed.** Insertion into one of its circuits succeeds exactly
when the router is never stuck, and so it does if the states that can be fetched for one of their
gates in the circuit can be fetched for each of them. Into all of them it succeeds exactly if this
holds of the gates of the architecture. -/
theorem simplified_routable_iff (existing : Option ExistingMoves) :
    (∀ c, a.ValidSimplified c →
      ((∃ c', (insertMoves c a existing none).result = .ok c') ↔ ∀ i rest b,
        (RoutingContext.ofMapping a none).Reaches (.ofArchitecture a) c.instructions (i :: rest) b →
        ¬ RoutingContext.Stuck a b i)) ∧
      (∀ c, a.ValidSimplified c → RoutingContext.FetchesAlike a c.instructions →
        ∃ c', (insertMoves c a existing none).result = .ok c') ∧
      (a.RoutesSimplified existing ↔ a.FetchesForAll) := by
  refine ⟨fun c h => star.exists_insertMoves_iff_not_stuck h, fun c h alike =>
    star.exists_insertMoves_of_alike h alike existing, ?_, ?_⟩
  · exact star.fetchesForAll_of_routesSimplified
  · intro all c h
    exact star.exists_insertMoves_of_alike h (star.alike_of_fetchesForAll h all) existing

end Star

/-- Three qubits in a row: a state can be fetched for the gate with the next qubit, but not for the
one with the previous qubit. -/
def oneWayRow : DynamicArchitecture :=
  ((DynamicArchitecture.mk .nil ["Q1", "Q2", "Q3"] ["R1", "R2"] .empty).withGate "cz"
    (singleGate "tgss" [["Q2", "R1"], ["Q3", "R2"]])).withGate "move"
    (singleGate "tgss_crf" [["Q1", "R1"], ["Q2", "R2"]])

theorem calibrated_cz_oneWayRow :
    oneWayRow.calibrated "cz" = [["Q2", "R1"], ["Q3", "R2"]] := by cbv

theorem moveLoci_oneWayRow : oneWayRow.moveLoci = [["Q1", "R1"], ["Q2", "R2"]] := by cbv

theorem star_oneWayRow : oneWayRow.Star where
  checked := by cbv
  moves := by
    rw [MovesIntoResonators, moveLoci_oneWayRow]
    refine List.forall_mem_cons.2 ⟨?_, List.forall_mem_singleton.2 ?_⟩
    · exact ⟨"Q1", "R1", rfl, by decide, by decide⟩
    · exact ⟨"Q2", "R2", rfl, by decide, by decide⟩
  cz := by
    rw [calibrated_cz_oneWayRow]
    refine List.forall_mem_cons.2 ⟨?_, List.forall_mem_singleton.2 ?_⟩
    · exact ⟨"Q2", "R1", Or.inl rfl, by decide, by decide⟩
    · exact ⟨"Q3", "R2", Or.inl rfl, by decide, by decide⟩
  others := by
    intro gate hcz hmove locus hlocus
    obtain ⟨g, hg, -⟩ := mem_calibrated_iff.1 hlocus
    simp [oneWayRow, withGate, Table.get?_insert, Table.get?_empty, hcz, hmove] at hg

theorem fetches_oneWayRow_iff :
    oneWayRow.Fetches q p ↔ q = "Q1" ∧ p = "Q2" ∨ q = "Q2" ∧ p = "Q3" := by
  simp only [Fetches, Couples, moveLoci_oneWayRow, calibrated_cz_oneWayRow]
  constructor
  · rintro ⟨r, hmove, locus, hlocus, hperm⟩
    simp only [List.mem_cons, List.cons.injEq, and_true, List.not_mem_nil, or_false] at hmove hlocus
    rcases hmove with ⟨rfl, rfl⟩ | ⟨rfl, rfl⟩
    · rcases hlocus with rfl | rfl
      · exact Or.inl ⟨rfl, by simpa [List.perm_pair, eq_comm] using hperm⟩
      · simp [List.perm_pair] at hperm
    · rcases hlocus with rfl | rfl
      · simp [List.perm_pair] at hperm
      · exact Or.inr ⟨rfl, by simpa [List.perm_pair, eq_comm] using hperm⟩
  · rintro (⟨rfl, rfl⟩ | ⟨rfl, rfl⟩)
    · exact ⟨"R1", List.mem_cons_self, ["Q2", "R1"], List.mem_cons_self, .refl _⟩
    · exact ⟨"R2", List.mem_cons_of_mem _ List.mem_cons_self, ["Q3", "R2"],
        List.mem_cons_of_mem _ List.mem_cons_self, .refl _⟩

/-- Two gates between the same qubits. -/
def gatesOfPair : Circuit where
  name := "c"
  instructions := [.cz "Q1" "Q2", .cz "Q2" "Q1"]
  name_ne_empty := sampleName_ne_empty
  instructions_ne_nil := List.cons_ne_nil _ _

/-- The state of `Q1` is fetched first, and that of `Q2` when it is needed. -/
def gatesUpRow : Circuit where
  name := "c"
  instructions := [.cz "Q1" "Q2", .cz "Q3" "Q2"]
  name_ne_empty := sampleName_ne_empty
  instructions_ne_nil := List.cons_ne_nil _ _

/-- The state of `Q2` is fetched first. It is held for the second gate and cannot be fetched for
it. -/
def gatesDownRow : Circuit where
  name := "c"
  instructions := [.cz "Q3" "Q2", .cz "Q1" "Q2"]
  name_ne_empty := sampleName_ne_empty
  instructions_ne_nil := List.cons_ne_nil _ _

theorem validSimplified_gatesOfPair : oneWayRow.ValidSimplified gatesOfPair := by
  refine ⟨rfl, List.forall_mem_cons.2 ⟨?_, List.forall_mem_singleton.2 ?_⟩⟩ <;> cbv

theorem validSimplified_gatesUpRow : oneWayRow.ValidSimplified gatesUpRow := by
  refine ⟨rfl, List.forall_mem_cons.2 ⟨?_, List.forall_mem_singleton.2 ?_⟩⟩ <;> cbv

theorem validSimplified_gatesDownRow : oneWayRow.ValidSimplified gatesDownRow := by
  refine ⟨rfl, List.forall_mem_cons.2 ⟨?_, List.forall_mem_singleton.2 ?_⟩⟩ <;> cbv

theorem fetchesAlike_gatesOfPair :
    RoutingContext.FetchesAlike oneWayRow gatesOfPair.instructions := by
  have hsame : ∀ q p, RoutingContext.Gated gatesOfPair.instructions q p →
      ["Q1", "Q2"].Perm [q, p] := by
    rintro q p ⟨i, hi, -, hperm⟩
    rcases List.mem_cons.1 hi with rfl | hi
    · exact hperm
    · obtain rfl := List.mem_singleton.1 hi
      exact (List.Perm.swap _ _ []).trans hperm
  intro q p t hp ht hfetches
  have heq := (List.perm_cons q).1 ((hsame q p hp).symm.trans (hsame q t ht))
  obtain rfl : p = t := by simpa using heq
  exact hfetches

theorem simplified_routable_iff_oneWayRow :
    (∀ i rest b, (RoutingContext.ofMapping oneWayRow none).Reaches (.ofArchitecture oneWayRow)
        gatesUpRow.instructions (i :: rest) b → ¬ RoutingContext.Stuck oneWayRow b i) ∧
      (∃ c', (insertMoves gatesOfPair oneWayRow none none).result = .ok c') ∧
      ¬ oneWayRow.RoutesSimplified none := by
  have hrouted : (insertMoves gatesUpRow oneWayRow none none).result = .ok
      ⟨"c", [.move "Q1" "R1", .cz "Q2" "R1", .move "Q2" "R2", .cz "Q3" "R2", .move "Q1" "R1",
        .move "Q2" "R2"], none, by decide, List.cons_ne_nil _ _⟩ := by cbv
  obtain ⟨hcircuit, halike, hall⟩ := star_oneWayRow.simplified_routable_iff none
  refine ⟨(hcircuit gatesUpRow validSimplified_gatesUpRow).1 ⟨_, hrouted⟩,
    halike gatesOfPair validSimplified_gatesOfPair fetchesAlike_gatesOfPair, fun hroutes => ?_⟩
  have hback := hall.1 hroutes "Q2" "Q1" "Q3" (by decide) (by decide)
    (fetches_oneWayRow_iff.2 (Or.inr ⟨rfl, rfl⟩)) (fetches_oneWayRow_iff.2 (Or.inl ⟨rfl, rfl⟩))
  exact absurd (fetches_oneWayRow_iff.1 hback) (by decide)

theorem stuck_oneWayRow :
    oneWayRow.Star ∧ oneWayRow.moveLoci ≠ [] ∧ oneWayRow.ValidSimplified gatesDownRow ∧
      (insertMoves gatesDownRow oneWayRow none none).result =
        .error (.transpilation .noValidPair) := by
  refine ⟨star_oneWayRow, ?_, validSimplified_gatesDownRow, by cbv⟩
  rw [moveLoci_oneWayRow]
  exact List.cons_ne_nil _ _

end DynamicArchitecture

end StarQpu
