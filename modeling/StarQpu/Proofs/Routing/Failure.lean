import StarQpu.Proofs.Routing.Planned
import StarQpu.Proofs.Routing.Removed

/-!
# StarQpu.Proofs.Routing.Failure

**Why insertion fails.** Removal, the validation of MOVEs and the router give up in one way only,
with a failure of transpilation, and they speak of a MOVE that is not allowed only if the circuit
has a MOVE (`Refusal`): the MOVEs that the router makes itself are allowed wherever it gets
(`movesAllowed`). So besides these refusals an insertion has one failure, about MOVEs that are to
stay on an architecture that has none (`insertMoves_failures`).
-/

namespace StarQpu

variable {a : DynamicArchitecture} {c s : Circuit} {e : RoutingError} {i : Instruction}
  {b : ResonatorBank} {x : RoutingContext} {existing : Option ExistingMoves}
  {mapping : Option QubitMapping} {l l' source lookahead : List Instruction}

/-! ### Refusals -/

/-- A failure of transpilation. That a MOVE is not allowed is said only if there is one in the
list. -/
def Refusal (l : List Instruction) (e : RoutingError) : Prop :=
  ∃ f, e = .transpilation f ∧ (f = .moveNotAllowed → ∃ i ∈ l, i.isMove = true)

namespace Refusal

theorem of_ne {α : Type} {f : RoutingFailure}
    (h : (.error (.transpilation f) : Except RoutingError α) = .error e)
    (hf : f ≠ .moveNotAllowed) : Refusal l e :=
  ⟨f, (Except.error.inj h).symm, fun heq => absurd heq hf⟩

theorem of_move (hi : i ∈ l) (hmove : i.isMove = true) :
    Refusal l (.transpilation .moveNotAllowed) :=
  ⟨_, rfl, fun _ => ⟨i, hi, hmove⟩⟩

/-- A refusal of a list is one of every list that has its MOVEs. -/
theorem mono (h : Refusal l e) (hsub : ∀ i ∈ l, i.isMove = true → i ∈ l') : Refusal l' e := by
  obtain ⟨f, rfl, hf⟩ := h
  refine ⟨f, rfl, fun heq => ?_⟩
  obtain ⟨i, hi, hmove⟩ := hf heq
  exact ⟨i, hsub i hi hmove, hmove⟩

theorem cons (h : Refusal l e) : Refusal (i :: l) e :=
  h.mono fun _ hj _ => List.mem_cons_of_mem i hj

theorem head (h : Refusal [i] e) : Refusal (i :: l) e :=
  h.mono fun _ hj _ => List.mem_cons.2 (Or.inl (List.mem_singleton.1 hj))

end Refusal

/-! ### Removal -/

theorem ResonatorBank.eq_of_apply_eq_error {q r : String} (h : b.apply q r = .error e) :
    e = .transpilation .moveNotAllowed := by
  rw [apply] at h
  cases hnext : b.applied? q r with
  | none =>
      rw [hnext] at h
      exact (Except.error.inj h).symm
  | some next => simp [hnext] at h

theorem refusal_of_removeFrom {circuit : String}
    (h : (removeFrom circuit b l).result = .error e) : Refusal l e := by
  induction l generalizing b with
  | nil => simp [removeFrom] at h
  | cons i rest ih =>
      cases hmove : i.isMove with
      | true =>
          obtain ⟨q, r, haction⟩ := Instruction.isMove_iff.1 hmove
          rw [removeFrom_result_move circuit haction, bind_eq_error_iff] at h
          rcases h with h | ⟨next, -, h⟩
          · rw [ResonatorBank.eq_of_apply_eq_error h]
            exact .of_move List.mem_cons_self hmove
          · exact (ih h).cons
      | false =>
          rw [removeFrom_result_other circuit hmove, bind_eq_error_iff] at h
          rcases h with h | ⟨more, -, h⟩
          · exact (ih h).cons
          · simp at h

theorem refusal_of_removeMoves (h : (removeMoves c).result = .error e) :
    Refusal c.instructions e := by
  rw [removeMoves_result, bind_eq_error_iff] at h
  rcases h with h | ⟨instructions, -, h⟩
  · exact refusal_of_removeFrom h
  · by_cases hnone : instructions = []
    · rw [if_pos hnone] at h
      exact .of_ne h (by simp)
    · rw [if_neg hnone, Circuit.withBody_eq_ok_iff.2 ⟨hnone, rfl⟩] at h
      simp at h

/-! ### The router -/

namespace RoutingContext

theorem refusal_of_physicalAll (h : x.physicalAll l = .error e) : Refusal l e := by
  induction l with
  | nil => simp [physicalAll, pure, Except.pure] at h
  | cons i rest ih =>
      rw [physicalAll, List.mapM_cons] at h
      rcases bind_eq_error_iff.1 h with h | ⟨p, -, h⟩
      · rw [physical] at h
        split at h
        next => exact .of_ne h (by simp)
        next => simp at h
      · rcases bind_eq_error_iff.1 h with h | ⟨ps, -, h⟩
        · exact (ih h).cons
        · simp [pure, Except.pure] at h

theorem refusal_of_written (h : x.written b i lookahead = .error e) : Refusal l e := by
  rw [written] at h
  by_cases hcz : i.isCz = true
  · rw [if_pos hcz] at h
    split at h
    next => simp at h
    next =>
        rcases bind_eq_error_iff.1 h with h | ⟨candidates, -, h⟩
        · rw [ResonatorBank.choose] at h
          split at h
          next => exact .of_ne h (by simp)
          next => simp at h
        · split at h
          next => simp at h
          next => exact .of_ne h (by simp)
  · rw [if_neg hcz] at h
    split at h
    next =>
        split at h
        next => simp at h
        next => exact .of_ne h (by simp)
    next => simp at h

theorem eq_of_follow_eq_error (h : b.follow i = .error e) : e = .transpilation .moveNotAllowed := by
  cases hmove : i.isMove with
  | false => simp [follow_of_not_move hmove] at h
  | true =>
      obtain ⟨q, r, haction⟩ := Instruction.isMove_iff.1 hmove
      rw [ResonatorBank.follow, haction] at h
      exact ResonatorBank.eq_of_apply_eq_error h

theorem refusal_of_route (hb : b.Separated)
    (h : x.route b i (x.locus i) lookahead = .error e) : Refusal [i] e := by
  cases hmove : i.isMove with
  | false =>
      rw [route_eq hb hmove, map_eq_error_iff] at h
      exact refusal_of_written h
  | true =>
      have hnot : ¬ i.isCz = true := by
        intro hcz
        simp [Instruction.not_isMove_of_isCz hcz] at hmove
      rw [route_of_not_held (Or.inr (Or.inr hmove))] at h
      split at h
      next =>
          rcases bind_eq_error_iff.1 h with h | ⟨next, -, h⟩
          · rw [eq_of_follow_eq_error h]
            exact .of_move List.mem_cons_self hmove
          · simp at h
      next =>
          rw [if_neg hnot] at h
          exact .of_ne h (by simp)

theorem refusal_of_routeAll (hb : b.Separated) (hmapped : ∀ i ∈ source, x.Mapped i)
    (h : x.routeAll b source (source.map (·.mapQubits (renamed x.mapping))) = .error e) :
    Refusal source e := by
  induction source generalizing b with
  | nil =>
      rw [List.map_nil, routeAll_nil] at h
      simp at h
  | cons i rest ih =>
      rw [List.forall_mem_cons] at hmapped
      rw [routeAll_cons, bind_eq_error_iff] at h
      rcases h with h | ⟨⟨first, next⟩, hfirst, h⟩
      · exact (refusal_of_route hb h).head
      · rcases bind_eq_error_iff.1 h with h | ⟨more, -, h⟩
        · exact (ih ((routes_of_route hb hmapped.1 hfirst).separated hb) hmapped.2 h).cons
        · simp at h

theorem refusal_of_insertInto (hb : (ResonatorBank.ofArchitecture x.architecture).Separated)
    (h : x.insertInto source = .error e) : Refusal source e := by
  rw [insertInto_eq, bind_eq_error_iff] at h
  rcases h with h | ⟨physical, hphysical, h⟩
  · exact refusal_of_physicalAll h
  · obtain ⟨hmapped, rfl⟩ := physicalAll_eq_ok_iff.1 hphysical
    rcases bind_eq_error_iff.1 h with h | ⟨⟨out, b⟩, hrouted, h⟩
    · exact refusal_of_routeAll hb hmapped h
    · -- what is left at the end can be given back
      have hlast := (routes_of_routeAll hb hmapped hrouted).separated hb
      rw [giveBack_eq hlast] at h
      simp [Except.bind] at h

/-! ### The MOVEs of the router -/

/-- The MOVEs that the router makes for a list (`route_eq`) are allowed: wherever it gets, those in
front of the next instruction, and those that give all states back. -/
def MovesAllowed (x : RoutingContext) (source : List Instruction) : Prop :=
  ∀ rest b, x.Reaches (.ofArchitecture x.architecture) source rest b →
    (b.applyAll (b.occupied none)).1 = true ∧ ∀ i later, rest = i :: later →
      (b.applyAll (x.planned b i (rest.map (·.mapQubits (renamed x.mapping))))).1 = true

theorem movesAllowed (hb : (ResonatorBank.ofArchitecture x.architecture).Separated)
    (noMoves : ∀ i ∈ source, i.isMove = false) : x.MovesAllowed source := by
  intro rest b hreaches
  have hseparated := hreaches.separated hb noMoves
  refine ⟨?_, fun i later _ => ?_⟩
  · rw [ResonatorBank.applyAll_occupied hseparated]
  · rw [applyAll_planned hseparated]

end RoutingContext

/-! ### The whole circuit -/

theorem refusal_of_insertionSource (h : (insertionSource x c existing).result = .error e) :
    Refusal c.instructions e := by
  cases existing with
  | none => exact refusal_of_removeMoves h
  | some way =>
      cases way with
      | remove => exact refusal_of_removeMoves h
      | trust => simp [insertionSource] at h
      | keep =>
          rw [insertionSource] at h
          split at h
          next => simp at h
          next =>
              rw [Logged.result_throw] at h
              exact .of_ne h (by simp)

/-- MOVEs are inserted into the circuit itself or into one that has none. -/
theorem eq_or_not_containsMoves (h : (insertionSource x c existing).result = .ok s) :
    s = c ∨ s.containsMoves = false := by
  cases existing with
  | none => exact Or.inr (containsMoves_of_removeMoves h)
  | some way =>
      cases way with
      | remove => exact Or.inr (containsMoves_of_removeMoves h)
      | trust => exact Or.inl (Except.ok.inj h).symm
      | keep => exact Or.inl (insertionSource_keep_eq_ok_iff.1 h).2

section Checked

variable (checked : a.check = .ok ()) (moves : a.MovesIntoResonators)
include checked moves

/-- On an architecture with MOVEs every failure is a refusal. -/
theorem refusal_of_insertMoves (hsupport : (ResonatorBank.ofArchitecture a).supportsMove = true)
    (h : (insertMoves c a existing mapping).result = .error e) : Refusal c.instructions e := by
  have hb := (ResonatorBank.serves_ofArchitecture checked moves).toSeparated
  rw [result_insertMoves_of_supportsMove hsupport, bind_eq_error_iff] at h
  rcases h with h | ⟨source, hsource, h⟩
  · exact refusal_of_insertionSource h
  · rcases bind_eq_error_iff.1 h with h | ⟨out, hinsert, h⟩
    · refine (RoutingContext.refusal_of_insertInto hb h).mono fun i hi hmove => ?_
      rcases eq_or_not_containsMoves hsource with rfl | noMoves
      · exact hi
      · simp [Circuit.containsMoves_eq_false_iff.1 noMoves i hi] at hmove
    · -- something is written for every instruction
      obtain ⟨b', run, -⟩ := RoutingContext.routes_of_insertInto hb hinsert
      rw [Circuit.withBody_eq_ok_iff.2 ⟨run.ne_nil source.instructions_ne_nil, rfl⟩] at h
      simp at h

/-- Besides refusals an insertion has one failure. -/
theorem insertMoves_eq_error (h : (insertMoves c a existing mapping).result = .error e) :
    Refusal c.instructions e ∨ e = .configuration .movesWithoutSupport ∧
      (ResonatorBank.ofArchitecture a).supportsMove = false ∧ c.containsMoves = true ∧
      existing ≠ none ∧ existing ≠ some .remove := by
  cases hsupport : (ResonatorBank.ofArchitecture a).supportsMove with
  | true => exact Or.inl (refusal_of_insertMoves checked moves hsupport h)
  | false =>
      cases hmoves : c.containsMoves with
      | false => simp [result_insertMoves_of_not_supportsMove hmoves hsupport] at h
      | true =>
          rw [result_insertMoves_of_containsMoves hmoves hsupport] at h
          split at h
          next => exact Or.inl (refusal_of_removeMoves h)
          next hstay =>
              rw [not_or] at hstay
              exact Or.inr ⟨(Except.error.inj h).symm, rfl, rfl, hstay⟩

/-- **Insertion fails only for these reasons.** It never fails in building or validating. It fails
for the configuration exactly if no MOVE leads into a resonator and the MOVEs of the circuit are to
stay. For a circuit without MOVEs it never fails because a MOVE is not allowed, as all MOVEs that
the router makes are. -/
theorem insertMoves_failures (c : Circuit) (existing : Option ExistingMoves)
    (mapping : Option QubitMapping) :
    (∀ v, (insertMoves c a existing mapping).result ≠ .error (.validation v)) ∧
    (∀ e, (insertMoves c a existing mapping).result ≠ .error (.build e)) ∧
    ((∃ p, (insertMoves c a existing mapping).result = .error (.configuration p)) ↔
      (¬ ∃ q r, a.isResonator r = true ∧ [q, r] ∈ a.moveLoci) ∧ c.containsMoves = true ∧
        (existing = some .keep ∨ existing = some .trust)) ∧
    (c.containsMoves = false →
      (insertMoves c a existing mapping).result ≠ .error (.transpilation .moveNotAllowed) ∧
      (RoutingContext.ofMapping a mapping).MovesAllowed c.instructions) := by
  have hstay : existing ≠ none ∧ existing ≠ some .remove ↔
      existing = some .keep ∨ existing = some .trust := by
    rcases existing with _ | _ | _ | _ <;> simp
  rw [← ResonatorBank.supportsMove_ofArchitecture_iff, Bool.not_eq_true]
  refine ⟨fun v h => ?_, fun e h => ?_, ⟨fun h => ?_, fun h => ?_⟩,
    fun noMoves => ⟨fun h => ?_, ?_⟩⟩
  · rcases insertMoves_eq_error checked moves h with ⟨f, heq, -⟩ | ⟨heq, -⟩ <;> simp at heq
  · rcases insertMoves_eq_error checked moves h with ⟨f, heq, -⟩ | ⟨heq, -⟩ <;> simp at heq
  · obtain ⟨p, h⟩ := h
    rcases insertMoves_eq_error checked moves h with ⟨f, heq, -⟩ | ⟨-, hsupport, hmoves, hways⟩
    · simp at heq
    · exact ⟨hsupport, hmoves, hstay.1 hways⟩
  · obtain ⟨hsupport, hmoves, hways⟩ := h
    have hnot : ¬ (existing = none ∨ existing = some .remove) := not_or.2 (hstay.2 hways)
    exact ⟨_, by rw [result_insertMoves_of_containsMoves hmoves hsupport, if_neg hnot]⟩
  · rcases insertMoves_eq_error checked moves h with ⟨f, heq, hmove⟩ | ⟨heq, -⟩
    · -- a refused MOVE would be one of the circuit
      obtain ⟨i, hi, himove⟩ := hmove (RoutingError.transpilation.inj heq).symm
      simp [Circuit.containsMoves_eq_false_iff.1 noMoves i hi] at himove
    · simp at heq
  · exact RoutingContext.movesAllowed
      (ResonatorBank.serves_ofArchitecture checked moves).toSeparated
      (Circuit.containsMoves_eq_false_iff.1 noMoves)

end Checked

/-- The chain with its MOVEs on a star without qubits, and the one without on a star with three. -/
theorem insertMoves_failures_chain :
    (∃ p, (insertMoves (routedChainOn "QB1") (starArchitecture 0) (some .keep) none).result =
        .error (.configuration p)) ∧
      (insertMoves (chainOn "QB1") (starArchitecture 3) none none).result ≠
        .error (.transpilation .moveNotAllowed) ∧
      (RoutingContext.ofMapping (starArchitecture 3) none).MovesAllowed
        (chainOn "QB1").instructions := by
  obtain ⟨-, -, hconfiguration, -⟩ := insertMoves_failures (check_star 0)
    (movesIntoResonators_star 0) (routedChainOn "QB1") (some .keep) none
  obtain ⟨-, -, -, hallowed⟩ := insertMoves_failures (check_star 3) (movesIntoResonators_star 3)
    (chainOn "QB1") none none
  refine ⟨hconfiguration.2 ⟨?_, by cbv, Or.inl rfl⟩, hallowed (by cbv)⟩
  rintro ⟨q, r, -, hmove⟩
  rw [DynamicArchitecture.moveLoci_eq, mem_calibrated_star_iff] at hmove
  rcases hmove with ⟨-, p, hp, -⟩ | ⟨hgate, -⟩
  · exact absurd hp List.not_mem_nil
  · exact absurd hgate (by decide)

end StarQpu
