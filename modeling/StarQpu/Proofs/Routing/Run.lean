import StarQpu.Proofs.Removal
import StarQpu.Proofs.Result
import StarQpu.Proofs.Routing.Rerouting

/-!
# StarQpu.Proofs.Routing.Run

**What the router does, step by step.** `Routes` describes a run of the router as single steps: it
moves one state, it follows a MOVE of the circuit, it keeps an instruction, or it makes a
controlled-Z act on a resonator. Each step states what was checked when it was made, so later
arguments are inductions over a run and never look at the router again. Every successful insertion
is such a run, from empty resonators to empty resonators (`routes_of_insertInto`).
-/

namespace StarQpu

namespace RoutingContext

variable {x : RoutingContext} {b b₁ b₂ b' : ResonatorBank} {i j : Instruction}
  {q r partner moved : String}
  {source source' out out' instructions physical lookahead : List Instruction}

/-! ### The steps -/

/-- The physical locus of an instruction. -/
def locus (x : RoutingContext) (i : Instruction) : Locus := i.qubits.map (renamed x.mapping)

/-- Every name the instruction uses has an entry in the mapping. -/
def Mapped (x : RoutingContext) (i : Instruction) : Prop :=
  ∀ q ∈ i.qubits, x.mapping.contains q = true

/-- What is known of an instruction that is kept: a controlled-Z can run as it stands, and any other
instruction touches no state that is held. -/
structure Keeps (x : RoutingContext) (b : ResonatorBank) (i : Instruction) : Prop where
  mapped : x.Mapped i
  other : i.isMove = false
  ready : i.isCz = true ∧ x.validate i = .ok () ∨
    i.isCz = false ∧ b.holding (x.locus i) = []

/-- What is known of a controlled-Z `i` that becomes `j`, on `partner` and the resonator `r` with
the state of `moved`. -/
structure Reroutes (x : RoutingContext) (b : ResonatorBank) (i j : Instruction)
    (partner moved r : String) : Prop where
  mapped : x.Mapped i
  cz : i.isCz = true
  invalid : x.validate i ≠ .ok ()
  locus : (x.locus i).Perm [partner, moved]
  ne : partner ≠ moved
  reachable : moved ∈ b.qubitsOf r
  held : b.holder? r = some moved
  alone : ∀ s ∈ b.holding (x.locus i), s = r
  replacement : j = .cz (x.logical partner) (x.logical r)
  valid : x.validate j = .ok ()

namespace Reroutes

variable (h : x.Reroutes b i j partner moved r)
include h

theorem partner_mem : partner ∈ x.locus i := h.locus.mem_iff.2 List.mem_cons_self

theorem not_isMove : j.isMove = false := by
  rw [h.replacement]
  rfl

theorem isCz_replacement : j.isCz = true := by
  rw [h.replacement]
  rfl

/-- The state of the partner is in its place. -/
theorem partner_free (hb : b.Separated) (hfree : b.tracks partner = false) :
    ∀ s, b.holder? s ≠ some partner := by
  intro s hs
  have hmem : s ∈ b.holding (x.locus i) :=
    (ResonatorBank.mem_holding_iff hb.nodup).2 ⟨partner, hs, h.partner_mem, hfree⟩
  rw [h.alone s hmem, h.held, Option.some.injEq] at hs
  exact h.ne hs.symm

end Reroutes

/-- The next instruction needs the state of `q` in `r`. -/
def Wanted (x : RoutingContext) (b : ResonatorBank) (source : List Instruction)
    (q r : String) : Prop :=
  ∃ i rest j partner, source = i :: rest ∧ x.Reroutes b i j partner q r

/-- A run of the router over the instructions `source`, from one bank to another. -/
inductive Routes (x : RoutingContext) : ResonatorBank → List Instruction → List Instruction →
    ResonatorBank → Prop where
  | done (b : ResonatorBank) : Routes x b [] [] b
  /-- The router moves a state: out of a resonator, or into one for the next instruction. -/
  | move {b b₁ b' : ResonatorBank} {q r : String} {source out : List Instruction}
      (applied : b.applied? q r = some b₁)
      (wanted : b.holder? r = some r → x.Wanted b₁ source q r)
      (rest : Routes x b₁ source out b') :
      Routes x b source (.move (x.logical q) (x.logical r) :: out) b'
  /-- A MOVE of the circuit stays. -/
  | follow {b b₁ b' : ResonatorBank} {i : Instruction} {q r : String}
      {source out : List Instruction}
      (mapped : x.Mapped i) (moves : i.action = .move q r) (valid : x.validate i = .ok ())
      (applied : b.applied? (renamed x.mapping q) (renamed x.mapping r) = some b₁)
      (rest : Routes x b₁ source out b') : Routes x b (i :: source) (i :: out) b'
  | keep {b b' : ResonatorBank} {i : Instruction} {source out : List Instruction}
      (kept : x.Keeps b i) (rest : Routes x b source out b') :
      Routes x b (i :: source) (i :: out) b'
  | reroute {b b' : ResonatorBank} {i j : Instruction} {partner moved r : String}
      {source out : List Instruction}
      (rerouted : x.Reroutes b i j partner moved r) (rest : Routes x b source out b') :
      Routes x b (i :: source) (j :: out) b'

/-! ### What a run preserves -/

/-- What every allowed MOVE preserves of a bank, a run preserves. -/
theorem Routes.preserves {motive : ResonatorBank → Prop} (run : x.Routes b source out b')
    (step : ∀ {b b₁ q r}, motive b → b.applied? q r = some b₁ → motive b₁) (hb : motive b) :
    motive b' := by
  -- only MOVEs change the bank
  induction run with
  | done => exact hb
  | move applied _ _ ih => exact ih (step hb applied)
  | follow _ _ _ applied _ ih => exact ih (step hb applied)
  | keep _ _ ih => exact ih hb
  | reroute _ _ ih => exact ih hb

theorem Routes.separated (run : x.Routes b source out b') (hb : b.Separated) : b'.Separated :=
  run.preserves (fun hb applied => hb.applied applied) hb

theorem Routes.serves {a : DynamicArchitecture} (run : x.Routes b source out b')
    (hb : b.Serves a) : b'.Serves a :=
  run.preserves (motive := fun b => b.Serves a) (fun hb applied => hb.applied applied) hb

/-- If every state that a gate of the circuit is rerouted with is wanted where it goes, all states
that are held are. -/
theorem Routes.heldFor {wanted : String → String → Prop} (run : x.Routes b source out b')
    (noMoves : ∀ i ∈ source, i.isMove = false)
    (rerouted : ∀ i ∈ source, ∀ b j partner q r, x.Reroutes b i j partner q r → wanted q r)
    (hb : b.HeldFor wanted) : b'.HeldFor wanted := by
  induction run with
  | done => exact hb
  | move applied next _ ih =>
      refine ih noMoves rerouted (hb.applied applied fun hempty => ?_)
      obtain ⟨i, rest, j, partner, rfl, hreroutes⟩ := next hempty
      exact rerouted i List.mem_cons_self _ j partner _ _ hreroutes
  | follow _ moves _ _ _ _ =>
      exact absurd moves (Instruction.isMove_eq_false_iff.1 (noMoves _ List.mem_cons_self) _ _)
  | keep _ _ ih =>
      exact ih (fun i hi => noMoves i (List.mem_cons_of_mem _ hi))
        (fun i hi => rerouted i (List.mem_cons_of_mem _ hi)) hb
  | reroute _ _ ih =>
      exact ih (fun i hi => noMoves i (List.mem_cons_of_mem _ hi))
        (fun i hi => rerouted i (List.mem_cons_of_mem _ hi)) hb

/-- The router has a component for every name it meets. -/
theorem Routes.mapped (run : x.Routes b source out b') : ∀ i ∈ source, x.Mapped i := by
  induction run with
  | done => exact fun i hi => absurd hi List.not_mem_nil
  | move _ _ _ ih => exact ih
  | follow mapped _ _ _ _ ih => exact List.forall_mem_cons.2 ⟨mapped, ih⟩
  | keep kept _ ih => exact List.forall_mem_cons.2 ⟨kept.mapped, ih⟩
  | reroute rerouted _ ih => exact List.forall_mem_cons.2 ⟨rerouted.mapped, ih⟩

theorem Routes.append (run : x.Routes b source out b₁) (run' : x.Routes b₁ source' out' b₂) :
    x.Routes b (source ++ source') (out ++ out') b₂ := by
  induction run with
  | done => exact run'
  | move applied wanted _ ih =>
      -- the instruction that wants the state comes next in the longer list, too
      refine .move applied (fun hempty => ?_) (ih run')
      obtain ⟨i, rest, j, partner, rfl, hreroutes⟩ := wanted hempty
      exact ⟨i, rest ++ source', j, partner, rfl, hreroutes⟩
  | follow mapped moves valid applied _ ih => exact .follow mapped moves valid applied (ih run')
  | keep kept _ ih => exact .keep kept (ih run')
  | reroute rerouted _ ih => exact .reroute rerouted (ih run')

/-- What may stand in the result: a MOVE of the router, a controlled-Z that can run, or another
instruction of the source. -/
theorem Routes.origin (run : x.Routes b source out b')
    (noMoves : ∀ i ∈ source, i.isMove = false) (hi : i ∈ out) :
    (∃ q r, i = .move (x.logical q) (x.logical r) ∧ q ∈ b.qubitsOf r) ∨
      i.isCz = true ∧ x.validate i = .ok () ∨
      i.isCz = false ∧ i.isMove = false ∧ i ∈ source := by
  induction run with
  | done => exact absurd hi List.not_mem_nil
  | @move b b₁ b' q r source out applied _ _ ih =>
      rcases List.mem_cons.1 hi with rfl | hi
      · obtain ⟨hallow, -⟩ := ResonatorBank.applied?_eq_some_iff.1 applied
        exact Or.inl ⟨q, r, rfl, ResonatorBank.mem_qubitsOf_of_allows hallow⟩
      · rw [← ResonatorBank.qubitsOf_applied applied]
        exact ih noMoves hi
  | @follow b b₁ b' i q r source out _ moves _ _ _ _ =>
      exact absurd moves
        (Instruction.isMove_eq_false_iff.1 (noMoves i List.mem_cons_self) q r)
  | keep kept _ ih =>
      rw [List.forall_mem_cons] at noMoves
      rcases List.mem_cons.1 hi with rfl | hi
      · rcases kept.ready with ⟨hcz, hvalid⟩ | ⟨hcz, -⟩
        · exact Or.inr (Or.inl ⟨hcz, hvalid⟩)
        · exact Or.inr (Or.inr ⟨hcz, kept.other, List.mem_cons_self⟩)
      · refine (ih noMoves.2 hi).imp_right (Or.imp_right fun h => ?_)
        exact ⟨h.1, h.2.1, List.mem_cons_of_mem _ h.2.2⟩
  | reroute rerouted _ ih =>
      rw [List.forall_mem_cons] at noMoves
      rcases List.mem_cons.1 hi with rfl | hi
      · exact Or.inr (Or.inl ⟨rerouted.isCz_replacement, rerouted.valid⟩)
      · refine (ih noMoves.2 hi).imp_right (Or.imp_right fun h => ?_)
        exact ⟨h.1, h.2.1, List.mem_cons_of_mem _ h.2.2⟩

/-- The MOVEs of the result are among the ones of the bank. -/
theorem Routes.move_of_mem {l l' : String} (run : x.Routes b source out b')
    (noMoves : ∀ i ∈ source, i.isMove = false) (hi : i ∈ out) (hmove : i.action = .move l l') :
    ∃ q r, l = x.logical q ∧ l' = x.logical r ∧ q ∈ b.qubitsOf r := by
  rcases run.origin noMoves hi with ⟨q, r, rfl, hq⟩ | ⟨hcz, -⟩ | ⟨-, hother, -⟩
  · obtain ⟨rfl, rfl⟩ := Action.move.inj hmove
    exact ⟨q, r, rfl, rfl, hq⟩
  · exact absurd hmove (Instruction.isMove_eq_false_iff.1 (Instruction.not_isMove_of_isCz hcz) l l')
  · exact absurd hmove (Instruction.isMove_eq_false_iff.1 hother l l')

theorem Routes.ne_nil (run : x.Routes b source out b') (hsource : source ≠ []) : out ≠ [] := by
  cases run with
  | done => exact absurd rfl hsource
  | _ => exact List.cons_ne_nil _ _

/-! ### Moving states -/

/-- States leave their resonators one after the other. -/
theorem Routes.leaving (hb : b.Separated) {moves : List (String × String)}
    (distinct : (moves.map (·.2)).Nodup)
    (held : ∀ m ∈ moves, b.holder? m.2 = some m.1 ∧ m.1 ≠ m.2)
    (rest : x.Routes (b.emptied (some (moves.map (·.2)))) source out b') :
    x.Routes b source (ResonatorBank.moveInstructions x.names moves ++ out) b' := by
  induction moves generalizing b with
  | nil =>
      rw [List.map_nil, ResonatorBank.emptied_nil] at rest
      exact rest
  | cons move more ih =>
      obtain ⟨q, r⟩ := move
      obtain ⟨hr, hne⟩ := held (q, r) List.mem_cons_self
      have happly := hb.applied?_out hr hne
      rw [List.map_cons, List.nodup_cons] at distinct
      rw [List.map_cons, ← ResonatorBank.emptied_cons] at rest
      refine .move happly (fun hempty => ?_) (ih (hb.applied happly) distinct.2 ?_ rest)
      · rw [hr, Option.some.injEq] at hempty
        exact absurd hempty hne
      · exact ResonatorBank.held_setHolder distinct.1 held

theorem Routes.givingBack (hb : b.Separated) (scope : Option (List String))
    (rest : x.Routes (b.emptied scope) source out b') :
    x.Routes b source
      (ResonatorBank.moveInstructions x.names (b.occupied scope) ++ out) b' := by
  refine .leaving hb (ResonatorBank.occupied_distinct hb.nodup scope)
    (ResonatorBank.occupied_held hb.nodup scope) ?_
  rw [ResonatorBank.emptied_occupied hb.nodup]
  exact rest

/-- A state that is needed next is fetched, past the state that is there. -/
theorem Routes.fetching (hb : b.Separated) (hmoved : moved ∈ b.qubitsOf r)
    (only : ∀ s, b.holder? s = some moved → s = r)
    (wanted : x.Wanted (b.setHolder r moved) source moved r)
    (rest : x.Routes (b.setHolder r moved) source out b') :
    x.Routes b source
      (ResonatorBank.moveInstructions x.names (b.fetching moved r) ++ out) b' := by
  rw [ResonatorBank.fetching]
  by_cases hheld : b.holder? r = some moved
  · rw [if_pos hheld]
    rw [ResonatorBank.setHolder_eq_self hb.nodup hheld] at rest
    exact rest
  · have hfree : ∀ s, b.holder? s ≠ some moved := by
      intro s hs
      rw [only s hs] at hs
      exact hheld hs
    rw [if_neg hheld]
    -- the resonator is empty, or its state has to leave first
    rcases ResonatorBank.plan_cases hb hmoved hfree with
      ⟨hplan, happly⟩ | ⟨h, hr, hne, hplan, happly⟩
    · rw [hplan]
      exact .move happly (fun _ => wanted) rest
    · rw [hplan]
      refine .move (hb.applied?_out hr hne) (fun hempty => ?_) (.move happly (fun _ => wanted) rest)
      rw [hr, Option.some.injEq] at hempty
      exact absurd hempty hne

/-! ### Physical names -/

theorem physical_eq_ok_iff {p : Instruction} :
    x.physical i = .ok p ↔ x.Mapped i ∧ p = i.mapQubits (renamed x.mapping) := by
  rw [RoutingContext.physical, unmapped?]
  cases hmissing : i.qubits.find? fun q => !x.mapping.contains q with
  | none =>
      have hmapped : x.Mapped i := by
        intro q hq
        simpa using List.find?_eq_none.1 hmissing q hq
      simp only [Except.ok.injEq, hmapped, true_and]
      exact eq_comm
  | some q =>
      have hunmapped : ¬ x.Mapped i := by
        intro hmapped
        have hq := hmapped q (List.mem_of_find?_eq_some hmissing)
        have hnone : x.mapping.contains q = false := by simpa using List.find?_some hmissing
        rw [hq] at hnone
        exact absurd hnone (by decide)
      simp [hunmapped]

theorem physicalAll_eq_ok_iff : x.physicalAll instructions = .ok physical ↔
    (∀ i ∈ instructions, x.Mapped i) ∧
      physical = instructions.map (·.mapQubits (renamed x.mapping)) := by
  rw [physicalAll]
  induction instructions generalizing physical with
  | nil => simp [pure, Except.pure, eq_comm]
  | cons i rest ih =>
      rw [List.mapM_cons, List.forall_mem_cons, List.map_cons]
      simp only [do_eq_ok_iff, physical_eq_ok_iff, ih]
      constructor
      · intro h
        obtain ⟨p, ⟨hmapped, rfl⟩, ps, ⟨hall, rfl⟩, hlast⟩ := h
        exact ⟨⟨hmapped, hall⟩, (Except.ok.inj hlast).symm⟩
      · intro h
        obtain ⟨⟨hmapped, hall⟩, rfl⟩ := h
        exact ⟨_, ⟨hmapped, rfl⟩, _, ⟨hall, rfl⟩, rfl⟩

/-! ### From the router to its run -/

theorem route_of_held (hsome : b.holding (x.locus i) ≠ []) (hcz : i.isCz = false)
    (hmove : i.isMove = false) :
    x.route b i (x.locus i) lookahead =
      (x.giveBack b (some (b.holding (x.locus i)))).bind fun back =>
        .ok (back.1 ++ [i], back.2) := by
  have hnot : (b.holding (x.locus i)).isEmpty = false := List.isEmpty_eq_false_iff.2 hsome
  simp only [route, hnot, hcz, hmove, Bool.not_false, Bool.and_self, if_true]
  rfl

theorem route_of_not_held
    (hready : b.holding (x.locus i) = [] ∨ i.isCz = true ∨ i.isMove = true) :
    x.route b i (x.locus i) lookahead =
      match x.validate i with
      | .ok () => (b.follow (i.mapQubits (renamed x.mapping))).bind fun next => .ok ([i], next)
      | .error v =>
        if i.isCz then x.throughResonator b (x.locus i) lookahead
        else .error (.transpilation (.invalid v)) := by
  have hcondition : (!(b.holding (x.locus i)).isEmpty && !i.isCz && !i.isMove) = false := by
    rcases hready with h | h | h
    · rw [h]
      rfl
    · rw [h]
      simp
    · rw [h]
      simp
  simp only [route, hcondition, Bool.false_eq_true, if_false]
  rfl

/-- The three ways through the router: past states that are given back, as it stands, or through a
resonator. -/
theorem route_eq_ok_iff : x.route b i (x.locus i) lookahead = .ok (out, b') ↔
    (b.holding (x.locus i) ≠ [] ∧ i.isCz = false ∧ i.isMove = false ∧
      ∃ back, x.giveBack b (some (b.holding (x.locus i))) = .ok (back, b') ∧ out = back ++ [i]) ∨
    ((b.holding (x.locus i) = [] ∨ i.isCz = true ∨ i.isMove = true) ∧ x.validate i = .ok () ∧
      b.follow (i.mapQubits (renamed x.mapping)) = .ok b' ∧ out = [i]) ∨
    (i.isCz = true ∧ x.validate i ≠ .ok () ∧
      x.throughResonator b (x.locus i) lookahead = .ok (out, b')) := by
  by_cases hready : b.holding (x.locus i) = [] ∨ i.isCz = true ∨ i.isMove = true
  · have hnot : ¬ (b.holding (x.locus i) ≠ [] ∧ i.isCz = false ∧ i.isMove = false ∧
        ∃ back, x.giveBack b (some (b.holding (x.locus i))) = .ok (back, b') ∧
          out = back ++ [i]) := by
      intro h
      simp [h.1, h.2.1, h.2.2.1] at hready
    rw [or_iff_right hnot, route_of_not_held hready]
    cases hvalid : x.validate i with
    | ok =>
        simp only [hready, bind_eq_ok_iff, true_and, ne_eq, not_true_eq_false, false_and, and_false,
          or_false, Except.ok.injEq, Prod.mk.injEq]
        constructor
        · intro h
          obtain ⟨next, hfollow, rfl, rfl⟩ := h
          exact ⟨hfollow, rfl⟩
        · intro h
          exact ⟨b', h.1, h.2.symm, rfl⟩
    | error v =>
        by_cases hcz : i.isCz = true
        · simp [hcz]
        · simp [hcz]
  · simp only [not_or, Bool.not_eq_true] at hready
    obtain ⟨hsome, hcz, hmove⟩ := hready
    rw [route_of_held hsome hcz hmove, bind_eq_ok_iff]
    simp only [hsome, hcz, hmove, Prod.exists, Except.ok.injEq, Prod.mk.injEq, ne_eq,
      not_false_eq_true, true_and, Bool.false_eq_true, false_and, or_false]
    constructor
    · intro h
      obtain ⟨back, next, hback, rfl, rfl⟩ := h
      exact ⟨back, hback, rfl⟩
    · intro h
      obtain ⟨back, hback, rfl⟩ := h
      exact ⟨back, b', hback, rfl, rfl⟩

theorem follow_of_not_move (hmove : i.isMove = false) : b.follow i = .ok b := by
  rw [ResonatorBank.follow]
  cases haction : i.action with
  | move q r => exact absurd haction (Instruction.isMove_eq_false_iff.1 hmove q r)
  | _ => rfl

/-- An instruction is followed if it is an allowed MOVE or no MOVE. -/
theorem follow_eq_ok_iff : b.follow i = .ok b' ↔
    (∃ q r, i.action = .move q r ∧ b.applied? q r = some b') ∨ i.isMove = false ∧ b' = b := by
  cases hmove : i.isMove with
  | true =>
      obtain ⟨q, r, haction⟩ := Instruction.isMove_iff.1 hmove
      rw [ResonatorBank.follow, haction]
      simp [ResonatorBank.apply_eq_ok_iff]
  | false =>
      rw [follow_of_not_move hmove]
      simp [Instruction.isMove_eq_false_iff.1 hmove, eq_comm]

/-- A controlled-Z goes through a resonator as one or more single steps. -/
theorem routes_of_throughResonator (hb : b.Separated) (hmapped : x.Mapped i) (hcz : i.isCz = true)
    (hinvalid : x.validate i ≠ .ok ())
    (h : x.throughResonator b (x.locus i) lookahead = .ok (out, b')) :
    x.Routes b [i] out b' := by
  obtain ⟨r, moved, j, hpair, rfl, rfl⟩ := (throughResonator_eq_ok_iff_rerouted hb).1 h
  obtain ⟨hsource, hmoved, husable⟩ := mem_of_usablePair? hb.nodup hpair
  have hlocus := ResonatorBank.mem_of_mem_sources hb.nodup hsource
  obtain ⟨p, q, haction⟩ := Instruction.isCz_iff.1 hcz
  have hpq : x.locus i = [renamed x.mapping p, renamed x.mapping q] := by
    rw [RoutingContext.locus, Instruction.qubits, haction]
    rfl
  rw [hpq] at hlocus husable
  obtain ⟨partner, hne, hperm, hj, hvalid⟩ := (usable_pair_iff hlocus).1 husable
  rw [← hpq] at hlocus hperm
  have hreroutes : x.Reroutes (b.rerouted (x.locus i) r moved) i j partner moved r :=
    { mapped := hmapped
      cz := hcz
      invalid := hinvalid
      locus := hperm
      ne := hne
      reachable := by
        rw [ResonatorBank.rerouted, ResonatorBank.qubitsOf_setHolder,
          ResonatorBank.qubitsOf_emptied]
        exact hmoved
      held := ResonatorBank.holder?_rerouted_self hmoved
      alone := fun s hs => ResonatorBank.eq_of_mem_holding_rerouted hb hs
      replacement := hj
      valid := hvalid }
  rw [ResonatorBank.rerouting, ResonatorBank.moveInstructions_append, List.append_assoc]
  refine .givingBack hb _ (.fetching (ResonatorBank.Separated.emptied hb _) ?_ ?_ ?_ ?_)
  · rw [ResonatorBank.qubitsOf_emptied]
    exact hmoved
  · intro s hs
    exact ResonatorBank.eq_of_holder?_emptied hb hlocus (hb.apart hmoved) hs
  · exact ⟨i, [], j, partner, rfl, hreroutes⟩
  · exact .reroute hreroutes (.done _)

/-- An instruction that can run as it stands is followed if it is a MOVE, and kept otherwise. -/
theorem routes_of_follow (hmapped : x.Mapped i) (hvalid : x.validate i = .ok ())
    (hready : b.holding (x.locus i) = [] ∨ i.isCz = true ∨ i.isMove = true)
    (h : b.follow (i.mapQubits (renamed x.mapping)) = .ok b') : x.Routes b [i] [i] b' := by
  cases hmove : i.isMove with
  | true =>
      obtain ⟨q, r, haction⟩ := Instruction.isMove_iff.1 hmove
      have hphysical := Instruction.mapQubits_of_move haction (renamed x.mapping)
      rw [ResonatorBank.follow, hphysical] at h
      exact .follow hmapped haction hvalid (ResonatorBank.apply_eq_ok_iff.1 h) (.done _)
  | false =>
      rw [follow_of_not_move (by rw [Instruction.isMove_mapQubits, hmove])] at h
      obtain rfl := Except.ok.inj h
      refine .keep ⟨hmapped, hmove, ?_⟩ (.done _)
      cases hcz : i.isCz with
      | true => exact Or.inl ⟨rfl, hvalid⟩
      | false =>
          rw [hcz, hmove] at hready
          exact Or.inr ⟨rfl, by simpa using hready⟩

theorem routes_of_route (hb : b.Separated) (hmapped : x.Mapped i)
    (h : x.route b i (x.locus i) lookahead = .ok (out, b')) : x.Routes b [i] out b' := by
  rcases route_eq_ok_iff.1 h with
    ⟨hsome, hcz, hmove, back, hback, rfl⟩ | ⟨hready, hvalid, hfollow, rfl⟩ |
    ⟨hcz, hinvalid, hthrough⟩
  · -- the held states are given back first
    rw [giveBack_eq hb, Except.ok.injEq, Prod.mk.injEq] at hback
    obtain ⟨rfl, rfl⟩ := hback
    refine .givingBack hb _ (.keep ⟨hmapped, hmove, Or.inr ⟨hcz, ?_⟩⟩ (.done _))
    exact ResonatorBank.holding_emptied hb.nodup
  · exact routes_of_follow hmapped hvalid hready hfollow
  · exact routes_of_throughResonator hb hmapped hcz hinvalid hthrough

theorem routeAll_cons : x.routeAll b (i :: source)
      ((i :: source).map (·.mapQubits (renamed x.mapping))) =
    (x.route b i (x.locus i)
        ((i :: source).map (·.mapQubits (renamed x.mapping)))).bind fun first =>
      (x.routeAll first.2 source (source.map (·.mapQubits (renamed x.mapping)))).bind fun more =>
        .ok (first.1 ++ more.1, more.2) := by
  rw [List.map_cons, routeAll, Instruction.qubits_mapQubits]
  rfl

theorem routeAll_nil : x.routeAll b [] [] = .ok ([], b) := by
  rw [routeAll]
  simp

/-- A list gets through if its first instruction does and the rest does from there on. -/
theorem routeAll_cons_eq_ok_iff : x.routeAll b (i :: source)
      ((i :: source).map (·.mapQubits (renamed x.mapping))) = .ok (out, b') ↔
    ∃ first next more, x.route b i (x.locus i)
        ((i :: source).map (·.mapQubits (renamed x.mapping))) = .ok (first, next) ∧
      x.routeAll next source (source.map (·.mapQubits (renamed x.mapping))) = .ok (more, b') ∧
      out = first ++ more := by
  rw [routeAll_cons, bind_eq_ok_iff]
  constructor
  · intro h
    obtain ⟨⟨first, next⟩, hfirst, h⟩ := h
    obtain ⟨⟨more, last⟩, hmore, h⟩ := bind_eq_ok_iff.1 h
    obtain ⟨rfl, rfl⟩ : first ++ more = out ∧ last = b' := by simpa using h
    exact ⟨first, next, more, hfirst, hmore, rfl⟩
  · intro h
    obtain ⟨first, next, more, hfirst, hmore, rfl⟩ := h
    exact ⟨_, hfirst, bind_eq_ok_iff.2 ⟨_, hmore, rfl⟩⟩

/-- Two instructions, one after the other. -/
theorem routeAll_pair {k : Instruction}
    (hi : x.route b i (x.locus i) ([i, k].map (·.mapQubits (renamed x.mapping))) = .ok (out, b₁))
    (hk : x.route b₁ k (x.locus k) ([k].map (·.mapQubits (renamed x.mapping))) = .ok (out', b')) :
    x.routeAll b [i, k] ([i, k].map (·.mapQubits (renamed x.mapping))) = .ok (out ++ out', b') := by
  have hlast := routeAll_cons_eq_ok_iff.2 ⟨out', b', [], hk, routeAll_nil, rfl⟩
  rw [List.append_nil] at hlast
  exact routeAll_cons_eq_ok_iff.2 ⟨out, b₁, out', hi, hlast, rfl⟩

theorem routes_of_routeAll (hb : b.Separated) (hmapped : ∀ i ∈ source, x.Mapped i)
    (h : x.routeAll b source (source.map (·.mapQubits (renamed x.mapping))) = .ok (out, b')) :
    x.Routes b source out b' := by
  -- the bank after one instruction is the one that the rest starts from
  induction source generalizing b out with
  | nil =>
      rw [List.map_nil, routeAll_nil] at h
      obtain ⟨rfl, rfl⟩ : [] = out ∧ b = b' := by simpa using h
      exact .done b
  | cons i rest ih =>
      rw [List.forall_mem_cons] at hmapped
      obtain ⟨first, next, more, hfirst, hmore, rfl⟩ := routeAll_cons_eq_ok_iff.1 h
      have run := routes_of_route hb hmapped.1 hfirst
      exact run.append (ih (run.separated hb) hmapped.2 hmore)

/-! ### When the router gets through -/

theorem exists_route_of_valid (hb : b.Separated) (hmove : i.isMove = false)
    (hvalid : x.validate i = .ok ()) (lookahead : List Instruction) :
    ∃ out b', x.route b i (x.locus i) lookahead = .ok (out, b') := by
  by_cases hready : b.holding (x.locus i) = [] ∨ i.isCz = true ∨ i.isMove = true
  · have hother : (i.mapQubits (renamed x.mapping)).isMove = false := by
      rw [Instruction.isMove_mapQubits, hmove]
    rw [route_of_not_held hready, hvalid]
    dsimp only
    rw [follow_of_not_move hother]
    exact ⟨_, _, rfl⟩
  · simp only [not_or, Bool.not_eq_true] at hready
    rw [route_of_held hready.1 hready.2.1 hmove, giveBack_eq hb]
    exact ⟨_, _, rfl⟩

theorem route_of_invalid_cz (hcz : i.isCz = true) (hinvalid : x.validate i ≠ .ok ()) :
    x.route b i (x.locus i) lookahead = x.throughResonator b (x.locus i) lookahead := by
  rw [route_of_not_held (Or.inr (Or.inl hcz))]
  cases hresult : x.validate i with
  | ok => exact absurd hresult hinvalid
  | error v =>
      dsimp only
      rw [if_pos hcz]

/-- The router comes from the instructions `source` to the rest `rest` of them with the bank
`b'`. -/
inductive Reaches (x : RoutingContext) : ResonatorBank → List Instruction → List Instruction →
    ResonatorBank → Prop where
  | here (b : ResonatorBank) (source : List Instruction) : Reaches x b source source b
  | step {b b₁ b' : ResonatorBank} {i : Instruction} {source rest out : List Instruction}
      (routed : x.route b i (x.locus i)
        ((i :: source).map (·.mapQubits (renamed x.mapping))) = .ok (out, b₁))
      (more : Reaches x b₁ source rest b') : Reaches x b (i :: source) rest b'

/-- The way to what is reached is a run over the instructions in front of it. -/
theorem Reaches.exists_routes {rest : List Instruction} (h : x.Reaches b source rest b')
    (hb : b.Separated) (hmapped : ∀ i ∈ source, x.Mapped i) :
    ∃ passed out, source = passed ++ rest ∧ x.Routes b passed out b' := by
  induction h with
  | here b source => exact ⟨[], [], rfl, .done b⟩
  | @step b b₁ b' i source rest out routed _ ih =>
      rw [List.forall_mem_cons] at hmapped
      have run := routes_of_route hb hmapped.1 routed
      obtain ⟨passed, more, rfl, run'⟩ := ih (run.separated hb) hmapped.2
      exact ⟨i :: passed, out ++ more, rfl, run.append run'⟩

/-- The router gets through a list exactly when it gets past every instruction that it reaches. -/
theorem exists_routeAll_iff :
    (∃ out b', x.routeAll b source (source.map (·.mapQubits (renamed x.mapping))) =
        .ok (out, b')) ↔
      ∀ i rest b₁, x.Reaches b source (i :: rest) b₁ → ∃ out b', x.route b₁ i (x.locus i)
        ((i :: rest).map (·.mapQubits (renamed x.mapping))) = .ok (out, b') := by
  induction source generalizing b with
  | nil =>
      constructor
      · intro _ i rest b₁ hreaches
        cases hreaches
      · intro _
        exact ⟨[], b, routeAll_nil⟩
  | cons i source ih =>
      simp only [routeAll_cons_eq_ok_iff]
      constructor
      · intro h j rest b₁ hreaches
        obtain ⟨out, b', first, next, more, hfirst, hmore, -⟩ := h
        cases hreaches with
        | here => exact ⟨first, next, hfirst⟩
        | step routed hmore' =>
            obtain ⟨-, rfl⟩ := Prod.mk.inj (Except.ok.inj (routed.symm.trans hfirst))
            exact ih.1 ⟨more, b', hmore⟩ j rest b₁ hmore'
      · intro hall
        obtain ⟨first, next, hfirst⟩ := hall i source b (.here b _)
        obtain ⟨more, last, hmore⟩ := ih.2 fun j rest b₁ hreaches =>
          hall j rest b₁ (.step hfirst hreaches)
        exact ⟨first ++ more, last, first, next, more, hfirst, hmore, rfl⟩

end RoutingContext

end StarQpu
