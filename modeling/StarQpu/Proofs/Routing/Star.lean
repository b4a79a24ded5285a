import StarQpu.Proofs.Routing.Realizable

/-!
# StarQpu.Proofs.Routing.Star

**On a symmetric star the simplified view can be trusted.** A star is symmetric if a resonator has
the same partners for controlled-Z gates and for MOVEs. Of two qubits that share a resonator the
state of either can then be fetched for their gate, so the router is never stuck. On any star the
result of an insertion is valid: what stands in it was checked or comes from a MOVE of the
architecture, and no controlled-Z between qubits is left. So what is valid on the simplified
architecture of a symmetric star runs on the real one.
-/

namespace StarQpu

variable {a : DynamicArchitecture} {b b' : ResonatorBank} {c c' : Circuit}
  {existing : Option ExistingMoves} {p q : String} {source out : List Instruction}

namespace DynamicArchitecture

/-- Every controlled-Z couples a qubit to a resonator, every resonator has the same partners for
controlled-Z gates and for MOVEs, and no other gate uses a resonator. -/
structure SymmetricStar (a : DynamicArchitecture) : Prop where
  checked : a.check = .ok ()
  moves : a.MovesIntoResonators
  cz : ∀ locus ∈ a.calibrated "cz", ∃ q r, (locus = [q, r] ∨ locus = [r, q]) ∧
    a.isQubit q = true ∧ a.isResonator r = true
  partners : ∀ q r, a.isResonator r = true →
    ([q, r] ∈ a.moveLoci ↔ [q, r] ∈ a.calibrated "cz" ∨ [r, q] ∈ a.calibrated "cz")
  others : ∀ gate, gate ≠ "cz" → gate ≠ "move" →
    ∀ locus ∈ a.calibrated gate, ∀ c ∈ locus, a.isResonator c = false

/-- Every circuit without MOVEs that is valid on the simplified architecture can be routed, to one
whose instructions and sandwiches are valid on the real one. -/
def RealizesSimplified (a : DynamicArchitecture) : Prop :=
  ∀ (c : Circuit) (existing : Option ExistingMoves), c.containsMoves = false →
    (∀ i ∈ c.instructions, validateInstruction (simplifiedArchitecture a) i none = .ok ()) →
    ∃ c', (insertMoves c a existing none).result = .ok c' ∧
      (∀ i ∈ c'.instructions, validateInstruction a i none = .ok ()) ∧
      validateMoves a c' none .strict = .ok ()

namespace Star

variable (star : a.Star)
include star

/-- What may stand in the result is valid on the star. -/
theorem valid_of_routes (run : (RoutingContext.ofMapping a none).Routes b source out b')
    (hb : b.Serves a) (noMoves : ∀ i ∈ source, i.isMove = false)
    (valid : ∀ i ∈ source, validateInstruction (simplifiedArchitecture a) i none = .ok ()) :
    ∀ i ∈ out, validateInstruction a i none = .ok () := by
  intro i hi
  rw [validateInstruction_none_eq_ok_iff]
  rcases run.origin noMoves hi with ⟨q, r, rfl, hq⟩ | ⟨-, hvalid⟩ | ⟨hcz, hmove, hmem⟩
  · rw [RoutingContext.logical_plain, RoutingContext.logical_plain]
    exact permits_move_of_calibrated q r (hb.mem_qubitsOf_iff.1 hq).2
  · exact (RoutingContext.validate_plain_iff.1 hvalid).2
  · exact (star.permits_of_simplified hcz hmove
      (validateInstruction_none_eq_ok_iff.1 (valid i hmem))).1

/-- There is no controlled-Z between two qubits in the result. -/
theorem directOnOwn_of_valid {trace : List (Instruction × List String)}
    (valid : ∀ e ∈ trace, validateInstruction a e.1 none = .ok ()) :
    RoutingContext.DirectOnOwn a trace := by
  intro e he hcz hall
  have hpermits := validateInstruction_none_eq_ok_iff.1 (valid e he)
  obtain ⟨locus, hlocus, hperm⟩ := calibrated_of_permits_cz hcz hpermits
  obtain ⟨r, hr, hresonator⟩ := star.exists_resonator locus hlocus
  rw [not_isResonator_of_isQubit star.checked (hall r (hperm.mem_iff.1 hr))] at hresonator
  exact absurd hresonator (by decide)

theorem valid_of_insertMoves (h : a.ValidSimplified c)
    (hresult : (insertMoves c a existing none).result = .ok c') :
    ∀ i ∈ c'.instructions, validateInstruction a i none = .ok () := by
  have hb := ResonatorBank.serves_ofArchitecture star.checked star.moves
  rcases routes_of_insertMoves star.checked star.moves h.noMoves hresult with
    ⟨hsupport, rfl⟩ | ⟨-, -, b', run, -⟩
  · intro i hi
    have hcz : i.isCz = false := by
      by_contra hcz
      rw [star.supportsMove_of_isCz h hi (by simpa using hcz)] at hsupport
      exact absurd hsupport (by decide)
    rw [validateInstruction_none_eq_ok_iff]
    exact (star.permits_of_simplified hcz (h.not_isMove i hi)
      (validateInstruction_none_eq_ok_iff.1 (h.valid i hi))).1
  · exact star.valid_of_routes run hb h.not_isMove h.valid

/-- Where all circuits can be routed, the results are valid. -/
theorem realizes_of_fetchesForAll (all : a.FetchesForAll) : a.RealizesSimplified := by
  intro c existing noMoves valid
  have h : a.ValidSimplified c := ⟨noMoves, valid⟩
  obtain ⟨c', hresult⟩ :=
    star.exists_insertMoves_of_alike h (star.alike_of_fetchesForAll h all) existing
  have hvalid := star.valid_of_insertMoves h hresult
  refine ⟨c', hresult, hvalid, ?_⟩
  rw [validateMoves_insertMoves_iff star.checked star.moves noMoves
    (fun i hi => star.isQubit_of_simplified (h.not_isMove i hi) (valid i hi)) hresult]
  exact star.directOnOwn_of_valid fun e he => hvalid e.1 (Placement.mem_of_mem_trace he)

end Star

namespace SymmetricStar

variable (star : a.SymmetricStar)
include star

theorem toStar : a.Star where
  checked := star.checked
  moves := star.moves
  cz := star.cz
  others := star.others

/-- Of two qubits that share a resonator the state of either can be fetched. -/
theorem fetches_symm (h : a.Fetches p q) : a.Fetches q p := by
  obtain ⟨r, hmove, hcouples⟩ := h
  have hr := star.moves.isResonator hmove
  obtain ⟨-, locus, hlocus, hpair⟩ := star.toStar.calibrated_of_couples hr hcouples
  refine ⟨r, (star.partners q r hr).2 ?_, ?_⟩
  · rcases hpair with rfl | rfl
    · exact Or.inl hlocus
    · exact Or.inr hlocus
  · rcases (star.partners p r hr).1 hmove with hcz | hcz
    · exact ⟨[p, r], hcz, .refl _⟩
    · exact ⟨[r, p], hcz, .swap _ _ []⟩

theorem realizes : a.RealizesSimplified :=
  star.toStar.realizes_of_fetchesForAll fun _ _ _ _ _ _ h => star.fetches_symm h

end SymmetricStar

theorem symmetricStar_star (n : Nat) : (starArchitecture n).SymmetricStar where
  checked := check_star n
  moves := movesIntoResonators_star n
  cz := by
    intro locus hlocus
    rcases mem_calibrated_star_iff.1 hlocus with ⟨-, q, hq, rfl⟩ | ⟨hgate, -⟩
    · exact ⟨q, starResonator, Or.inl rfl, isQubit_star_iff.2 hq, isResonator_star_iff.2 rfl⟩
    · exact absurd hgate (by decide)
  partners := by
    intro q r hr
    rw [isResonator_star_iff] at hr
    subst hr
    rw [moveLoci_eq, mem_calibrated_star_iff, mem_calibrated_star_iff, mem_calibrated_star_iff]
    constructor
    · intro h
      rcases h with ⟨-, h⟩ | ⟨hgate, -⟩
      · exact Or.inl (Or.inl ⟨Or.inl rfl, h⟩)
      · exact absurd hgate (by decide)
    · intro h
      rcases h with (⟨-, h⟩ | ⟨hgate, -⟩) | (⟨-, p, hp, heq⟩ | ⟨hgate, -⟩)
      · exact Or.inl ⟨Or.inr rfl, h⟩
      · exact absurd hgate (by decide)
      · -- the resonator is not among the qubits
        obtain ⟨rfl, -⟩ : starResonator = p ∧ q = starResonator := by simpa using heq
        exact absurd hp starResonator_not_mem
      · exact absurd hgate (by decide)
  others := by
    intro gate hcz hmove locus hlocus c hc
    rcases mem_calibrated_star_iff.1 hlocus with ⟨hgate, -⟩ | ⟨-, q, hq, rfl⟩
    · exact absurd hgate (not_or.2 ⟨hcz, hmove⟩)
    · rw [List.mem_singleton.1 hc]
      exact not_isResonator_of_isQubit (check_star n) (isQubit_star_iff.2 hq)

/-- **Symmetric stars realize their simplified view**, the sample stars of any size among them. -/
theorem stars_realize_simplified :
    (∀ a : DynamicArchitecture, a.SymmetricStar → a.RealizesSimplified) ∧
      ∀ n, (starArchitecture n).RealizesSimplified :=
  ⟨fun _ star => star.realizes, fun n => (symmetricStar_star n).realizes⟩

theorem stars_realize_simplified_chain :
    ∃ c', (insertMoves (chainOn "QB1") (starArchitecture 3) none none).result = .ok c' ∧
      (∀ i ∈ c'.instructions, validateInstruction (starArchitecture 3) i none = .ok ()) ∧
      validateMoves (starArchitecture 3) c' none .strict = .ok () := by
  refine stars_realize_simplified.1 _ (symmetricStar_star 3) (chainOn "QB1") none rfl ?_
  intro i hi
  simp only [chainOn, List.mem_cons, List.not_mem_nil, or_false] at hi
  rcases hi with rfl | rfl | rfl | rfl | rfl <;> cbv

end DynamicArchitecture

end StarQpu
