import StarQpu.Proofs.Routing.Run

/-!
# StarQpu.Proofs.Routing.Planned

**The MOVEs in front of an instruction.** For an instruction other than a MOVE the router makes two
decisions: what stands in its place (`written`), and which MOVEs of its own come first (`planned`).
In a separated bank the planned MOVEs are always allowed (`applyAll_planned`), so the first decision
is all that can fail, and one equation describes the step (`route_eq`). A list without MOVEs is
routed in such steps from beginning to end.
-/

namespace StarQpu

namespace ResonatorBank

@[simp] theorem occupied_none_in_scope (b : ResonatorBank) : b.occupied (some []) = [] := by
  simp [occupied]

end ResonatorBank

namespace RoutingContext

variable {x : RoutingContext} {b b' : ResonatorBank} {i j : Instruction} {r moved : String}
  {source rest lookahead out : List Instruction}

/-! ### What the router decides -/

/-- What stands in the place of an instruction: a controlled-Z that cannot run as it stands is
replaced, any other instruction stays. An instruction that touches no state that is held has to be
valid. -/
def written (x : RoutingContext) (b : ResonatorBank) (i : Instruction)
    (lookahead : List Instruction) : Except RoutingError Instruction :=
  if i.isCz then
    if (x.validate i).isOk then .ok i
    else
      (b.choose (b.sources (x.locus i)) lookahead).bind fun candidates =>
        match x.usablePair? (x.locus i) candidates with
        | some (_, _, j) => .ok j
        | none => .error (.transpilation .noValidPair)
  else if b.holding (x.locus i) = [] then
    match x.validate i with
    | .ok () => .ok i
    | .error v => .error (.transpilation (.invalid v))
  else .ok i

/-- The MOVEs that the router makes in front of an instruction: those that let a controlled-Z act
through a resonator, or those that give back the states that another instruction touches. -/
def planned (x : RoutingContext) (b : ResonatorBank) (i : Instruction)
    (lookahead : List Instruction) : List (String × String) :=
  if i.isCz then
    if (x.validate i).isOk then []
    else
      match x.usablePair? (x.locus i) (b.rankedPairs (b.sources (x.locus i)) lookahead) with
      | some (r, moved, _) => b.rerouting (x.locus i) r moved
      | none => []
  else b.occupied (some (b.holding (x.locus i)))

theorem planned_of_not_isCz (hcz : i.isCz = false) (lookahead : List Instruction) :
    x.planned b i lookahead = b.occupied (some (b.holding (x.locus i))) := by
  simp [planned, hcz]

theorem planned_of_valid (hcz : i.isCz = true) (hvalid : x.validate i = .ok ())
    (lookahead : List Instruction) : x.planned b i lookahead = [] := by
  simp [planned, hcz, isOk_validate_iff.2 hvalid]

theorem planned_of_usablePair? (hcz : i.isCz = true) (hinvalid : x.validate i ≠ .ok ())
    (hpair : x.usablePair? (x.locus i) (b.rankedPairs (b.sources (x.locus i)) lookahead) =
      some (r, moved, j)) : x.planned b i lookahead = b.rerouting (x.locus i) r moved := by
  have hnot : ¬ (x.validate i).isOk = true := fun h => hinvalid (isOk_validate_iff.1 h)
  simp only [planned, hcz, if_true, if_neg hnot, hpair]

theorem planned_of_no_pair (hcz : i.isCz = true)
    (hpair : x.usablePair? (x.locus i) (b.rankedPairs (b.sources (x.locus i)) lookahead) = none) :
    x.planned b i lookahead = [] := by
  simp [planned, hcz, hpair]

/-- The three kinds of plans. -/
theorem planned_cases (x : RoutingContext) (b : ResonatorBank) (i : Instruction)
    (lookahead : List Instruction) :
    i.isCz = false ∧ x.planned b i lookahead = b.occupied (some (b.holding (x.locus i))) ∨
    i.isCz = true ∧ x.planned b i lookahead = [] ∨
    i.isCz = true ∧ ∃ r moved j,
      x.usablePair? (x.locus i) (b.rankedPairs (b.sources (x.locus i)) lookahead) =
        some (r, moved, j) ∧ x.planned b i lookahead = b.rerouting (x.locus i) r moved := by
  cases hcz : i.isCz with
  | false => exact Or.inl ⟨rfl, planned_of_not_isCz hcz lookahead⟩
  | true =>
      by_cases hvalid : x.validate i = .ok ()
      · exact Or.inr (Or.inl ⟨rfl, planned_of_valid hcz hvalid lookahead⟩)
      · cases hpair : x.usablePair? (x.locus i)
            (b.rankedPairs (b.sources (x.locus i)) lookahead) with
        | none => exact Or.inr (Or.inl ⟨rfl, planned_of_no_pair hcz hpair⟩)
        | some pair =>
            obtain ⟨r, moved, j⟩ := pair
            exact Or.inr (Or.inr ⟨rfl, r, moved, j, rfl, planned_of_usablePair? hcz hvalid hpair⟩)

/-! ### The MOVEs are allowed -/

section Separated

variable (hb : b.Separated)
include hb

/-- **The router makes no MOVE that is refused**, whatever instruction comes next. -/
theorem applyAll_planned (i : Instruction) (lookahead : List Instruction) :
    b.applyAll (x.planned b i lookahead) = (true, (b.applyAll (x.planned b i lookahead)).2) := by
  rcases x.planned_cases b i lookahead with
    ⟨-, hplanned⟩ | ⟨-, hplanned⟩ | ⟨-, r, moved, j, hpair, hplanned⟩
  · rw [hplanned, ResonatorBank.applyAll_occupied hb]
  · rw [hplanned, ResonatorBank.applyAll_nil]
  · obtain ⟨hsource, hmoved, -⟩ := mem_of_usablePair? hb.nodup hpair
    rw [hplanned, ResonatorBank.applyAll_rerouting hb
      (ResonatorBank.mem_of_mem_sources hb.nodup hsource) hmoved]

theorem separated_planned (i : Instruction) (lookahead : List Instruction) :
    (b.applyAll (x.planned b i lookahead)).2.Separated :=
  hb.applyAll (applyAll_planned hb i lookahead)

/-- A controlled-Z that cannot run as it stands is replaced, behind the MOVEs for the
replacement. -/
theorem throughResonator_eq_written (hcz : i.isCz = true) (hinvalid : x.validate i ≠ .ok ()) :
    x.throughResonator b (x.locus i) lookahead = (x.written b i lookahead).map fun j =>
      (ResonatorBank.moveInstructions x.names (x.planned b i lookahead) ++ [j],
        (b.applyAll (x.planned b i lookahead)).2) := by
  have hnot : ¬ (x.validate i).isOk = true := fun h => hinvalid (isOk_validate_iff.1 h)
  rw [throughResonator_eq, written, if_pos hcz, if_neg hnot]
  cases hchoose : b.choose (b.sources (x.locus i)) lookahead with
  | error e => rfl
  | ok candidates =>
      obtain ⟨rfl, -⟩ := ResonatorBank.choose_eq_ok_iff.1 hchoose
      dsimp only [Except.bind]
      cases hpair : x.usablePair? (x.locus i)
          (b.rankedPairs (b.sources (x.locus i)) lookahead) with
      | none => rfl
      | some pair =>
          obtain ⟨r, moved, j⟩ := pair
          obtain ⟨hsource, hmoved, -⟩ := mem_of_usablePair? hb.nodup hpair
          have hrun := ResonatorBank.applyAll_rerouting hb
            (ResonatorBank.mem_of_mem_sources hb.nodup hsource) hmoved
          rw [planned_of_usablePair? hcz hinvalid hpair, hrun]
          exact (giveBack_fetch_eq_ok_iff hb.nodup).2 ⟨hrun, rfl⟩

/-- **What the router does with an instruction other than a MOVE**: the planned MOVEs and one
instruction take its place, unless there is none that can. -/
theorem route_eq (hmove : i.isMove = false) :
    x.route b i (x.locus i) lookahead = (x.written b i lookahead).map fun j =>
      (ResonatorBank.moveInstructions x.names (x.planned b i lookahead) ++ [j],
        (b.applyAll (x.planned b i lookahead)).2) := by
  have hother : (i.mapQubits (renamed x.mapping)).isMove = false := by
    rw [Instruction.isMove_mapQubits, hmove]
  cases hcz : i.isCz with
  | true =>
      by_cases hvalid : x.validate i = .ok ()
      · rw [route_of_not_held (Or.inr (Or.inl hcz)), hvalid, follow_of_not_move hother,
          planned_of_valid hcz hvalid, written, if_pos hcz, if_pos (isOk_validate_iff.2 hvalid),
          ResonatorBank.applyAll_nil]
        rfl
      · rw [route_of_invalid_cz hcz hvalid, throughResonator_eq_written hb hcz hvalid]
  | false =>
      have hnot : ¬ i.isCz = true := by simp [hcz]
      rw [planned_of_not_isCz hcz, written, if_neg hnot]
      by_cases hnone : b.holding (x.locus i) = []
      · rw [route_of_not_held (Or.inl hnone), if_pos hnone, hnone,
          ResonatorBank.occupied_none_in_scope, ResonatorBank.applyAll_nil]
        cases x.validate i with
        | ok =>
            dsimp only
            rw [follow_of_not_move hother]
            rfl
        | error v =>
            dsimp only
            rw [if_neg hnot]
            rfl
      · rw [route_of_held hnone hcz hmove, giveBack_eq hb, if_neg hnone,
          ResonatorBank.applyAll_occupied hb]
        rfl

/-- An instruction stays, or one controlled-Z takes the place of another. -/
theorem written_eq_ok (h : x.written b i lookahead = .ok j) :
    j = i ∨ i.isCz = true ∧ j.isCz = true := by
  rw [written] at h
  by_cases hcz : i.isCz = true
  · rw [if_pos hcz] at h
    split at h
    next => exact Or.inl (Except.ok.inj h).symm
    next =>
        obtain ⟨candidates, hchoose, h⟩ := bind_eq_ok_iff.1 h
        obtain ⟨rfl, -⟩ := ResonatorBank.choose_eq_ok_iff.1 hchoose
        split at h
        next hpair =>
            obtain rfl := Except.ok.inj h
            exact Or.inr ⟨hcz, (mem_of_usablePair? hb.nodup hpair).2.2.isCz⟩
        next => exact absurd h (by simp)
  · rw [if_neg hcz] at h
    split at h
    next =>
        cases hvalid : x.validate i with
        | ok =>
            rw [hvalid] at h
            exact Or.inl (Except.ok.inj h).symm
        | error v =>
            rw [hvalid] at h
            exact absurd h (by simp)
    next => exact Or.inl (Except.ok.inj h).symm

/-- No MOVE stands in the place of another instruction. -/
theorem not_isMove_of_written (hmove : i.isMove = false) (h : x.written b i lookahead = .ok j) :
    j.isMove = false := by
  rcases written_eq_ok hb h with rfl | ⟨-, hj⟩
  · exact hmove
  · exact Instruction.not_isMove_of_isCz hj

/-- What a successful step did. -/
theorem route_eq_ok_of_not_move (hmove : i.isMove = false)
    (h : x.route b i (x.locus i) lookahead = .ok (out, b')) :
    ∃ j, x.written b i lookahead = .ok j ∧
      out = ResonatorBank.moveInstructions x.names (x.planned b i lookahead) ++ [j] ∧
      b' = (b.applyAll (x.planned b i lookahead)).2 := by
  rw [route_eq hb hmove, map_eq_ok_iff] at h
  obtain ⟨j, hj, h⟩ := h
  obtain ⟨rfl, rfl⟩ := Prod.mk.inj h
  exact ⟨j, hj, rfl, rfl⟩

/-- A list without MOVEs leaves the bank separated wherever the router gets. -/
theorem Reaches.separated (h : x.Reaches b source rest b')
    (noMoves : ∀ i ∈ source, i.isMove = false) : b'.Separated := by
  induction h with
  | here => exact hb
  | step routed _ ih =>
      rw [List.forall_mem_cons] at noMoves
      obtain ⟨-, -, -, rfl⟩ := route_eq_ok_of_not_move hb noMoves.1 routed
      exact ih (separated_planned hb _ _) noMoves.2

end Separated

end RoutingContext

end StarQpu
