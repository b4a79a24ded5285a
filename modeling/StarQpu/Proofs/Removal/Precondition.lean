import StarQpu.Proofs.Routing.RemovalMeaning

/-!
# StarQpu.Proofs.Removal.Precondition

**The check before a removal says what the removal will do.** The check stops at the first MOVE that
is not allowed and at the first instruction on an empty resonator. Removal stops at such a MOVE too,
but at such an instruction it logs a warning and goes on. Step by step the two meet the same banks,
so the check passes exactly where all MOVEs are allowed and nothing is logged
(`checkRemovable_eq_ok_iff`). Then every resonator that an instruction acts on holds another
component's state, and what removal puts in its place is no resonator
(`exists_removeFrom_of_checkRemovable`).
-/

namespace StarQpu

variable {b : ResonatorBank} {i : Instruction} {q r : String} {l : List Instruction}

/-! ### What removal logs -/

/-- Nothing in the log is a warning. -/
def Logged.Quiet {ε α : Type} (x : Logged ε α) : Prop := ∀ e ∈ x.log, e.level ≠ .warn

/-- The warnings about an instruction: one if it acts on an empty resonator. -/
def emptyWarnings (circuit : String) (b : ResonatorBank) (i : Instruction) : List Event :=
  (emptyResonatorIn? b i.qubits).toList.map (emptyResonatorWarning circuit i.name)

theorem removeFrom_log_move (circuit : String) {next : ResonatorBank}
    (hmove : i.action = .move q r) (happly : b.apply q r = .ok next) :
    (removeFrom circuit b (i :: l)).log = (removeFrom circuit next l).log := by
  rw [removeFrom, hmove]
  exact Logged.log_bind_of_ok happly _

theorem removeFrom_log_other (circuit : String) (hother : i.isMove = false) :
    (removeFrom circuit b (i :: l)).log =
      emptyWarnings circuit b i ++ (removeFrom circuit b l).log := by
  have hbody : (removeFrom circuit b l >>= fun more =>
      (pure (resolveInstruction b i :: more) : Logged RoutingError _)).log =
      (removeFrom circuit b l).log :=
    Logged.log_bind_of_silent fun _ => rfl
  rw [removeFrom, emptyWarnings, ← hbody]
  cases haction : i.action with
  | move q r => exact absurd haction (Instruction.isMove_eq_false_iff.1 hother q r)
  | _ =>
      cases emptyResonatorIn? b i.qubits with
      | none => rfl
      | some resonator => exact Logged.log_bind_of_ok rfl _

theorem removeMoves_log (c : Circuit) :
    (removeMoves c).log = (removeFrom c.name (.ofCircuit c) c.instructions).log := by
  refine Logged.log_bind_of_silent fun instructions => ?_
  split
  next => rfl
  next => rfl

theorem quiet_removeFrom_move_iff (circuit : String) {next : ResonatorBank}
    (hmove : i.action = .move q r) (happly : b.apply q r = .ok next) :
    (removeFrom circuit b (i :: l)).Quiet ↔ (removeFrom circuit next l).Quiet := by
  rw [Logged.Quiet, removeFrom_log_move circuit hmove happly, Logged.Quiet]

theorem quiet_removeFrom_other_iff (circuit : String) (hother : i.isMove = false) :
    (removeFrom circuit b (i :: l)).Quiet ↔
      emptyResonatorIn? b i.qubits = none ∧ (removeFrom circuit b l).Quiet := by
  rw [Logged.Quiet, removeFrom_log_other circuit hother, List.forall_mem_append, emptyWarnings]
  cases emptyResonatorIn? b i.qubits <;> simp [Logged.Quiet, emptyResonatorWarning]

/-- **The check passes where removal meets nothing to refuse or to warn of.** -/
theorem checkRemovable_eq_ok_iff (circuit : String) : checkRemovable b l = .ok () ↔
    (∃ b', b.Follows l b') ∧ (removeFrom circuit b l).Quiet := by
  -- on the list: after each instruction the check and the removal stand before the same bank
  induction l generalizing b with
  | nil => exact ⟨fun _ => ⟨⟨b, .done b⟩, fun _ he => absurd he List.not_mem_nil⟩, fun _ => rfl⟩
  | cons i rest ih =>
      cases hmove : i.isMove with
      | true =>
          obtain ⟨q, r, haction⟩ := Instruction.isMove_iff.1 hmove
          rw [checkRemovable_move haction]
          simp only [ResonatorBank.follows_cons_of_move haction]
          cases happly : b.apply q r with
          | error e => simp [Except.bind]
          | ok next =>
              rw [quiet_removeFrom_move_iff circuit haction happly]
              simpa only [Except.bind, Except.ok.injEq, exists_and_left, exists_eq_left'] using ih
      | false =>
          rw [checkRemovable_other_iff hmove, ih, quiet_removeFrom_other_iff circuit hmove]
          simp only [ResonatorBank.follows_cons_of_not_move hmove]
          exact and_left_comm

/-! ### What removal leaves after the check -/

/-- Where every resonator of a locus holds another state, no resonator is left in it. -/
theorem not_tracks_resolve (hb : b.Separated) {locus : Locus}
    (held : emptyResonatorIn? b locus = none) : ∀ s ∈ locus, b.tracks (b.resolve s) = false := by
  intro s hs
  cases htracks : b.tracks s with
  | false => rw [ResonatorBank.resolve_of_not_tracks htracks, htracks]
  | true =>
      obtain ⟨h, hheld⟩ := ResonatorBank.tracks_iff.1 htracks
      have hne : h ≠ s := by
        rintro rfl
        exact emptyResonatorIn?_eq_none_iff.1 held h hs hheld
      rw [ResonatorBank.resolve_of_holder? hheld]
      exact (hb.holder_cases hheld).resolve_left hne

/-- **After the check removal succeeds.** It drops the MOVEs only, and leaves no resonator. -/
theorem exists_removeFrom_of_checkRemovable (hb : b.Separated) (h : checkRemovable b l = .ok ())
    (circuit : String) :
    ∃ out, (removeFrom circuit b l).result = .ok out ∧
      (out = [] ↔ ∀ i ∈ l, i.isMove = true) ∧
      ∀ i ∈ out, ∀ s ∈ i.qubits, b.tracks s = false := by
  -- a MOVE changes what the resonators hold, but not which ones there are
  induction l generalizing b with
  | nil => exact ⟨[], rfl, by simp, by simp⟩
  | cons i rest ih =>
      cases hmove : i.isMove with
      | true =>
          obtain ⟨q, r, haction⟩ := Instruction.isMove_iff.1 hmove
          rw [checkRemovable_move haction, bind_eq_ok_iff] at h
          obtain ⟨next, happly, hrest⟩ := h
          have applied := ResonatorBank.apply_eq_ok_iff.1 happly
          obtain ⟨out, hout, hnone, hfree⟩ := ih (hb.applied applied) hrest
          rw [ResonatorBank.tracks_applied applied] at hfree
          refine ⟨out, ?_, ?_, hfree⟩
          · rw [removeFrom_result_move circuit haction, happly]
            exact hout
          · rw [hnone, List.forall_mem_cons, and_iff_right hmove]
      | false =>
          obtain ⟨held, hrest⟩ := (checkRemovable_other_iff hmove).1 h
          obtain ⟨out, hout, -, hfree⟩ := ih hb hrest
          refine ⟨resolveInstruction b i :: out, ?_, ?_, ?_⟩
          · rw [removeFrom_result_other circuit hmove, hout]
            rfl
          · simp [hmove]
          · rw [List.forall_mem_cons, Instruction.resolveInstruction_eq,
              Instruction.qubits_resolvedBy, List.forall_mem_map]
            exact ⟨not_tracks_resolve hb held, hfree⟩

/-- **The check and the removal agree.** The check passes exactly if the bank of the circuit follows
all its MOVEs and removal gives no warning. If moreover no MOVE starts where another one ends,
removal then fails on nothing but a circuit of MOVEs, and what it returns acts on no resonator. -/
theorem removalPrecondition_agrees (c : Circuit) :
    (removalPrecondition c = .ok () ↔
      (∃ b, (ResonatorBank.ofCircuit c).Follows c.instructions b) ∧
        ∀ e ∈ (removeMoves c).log, e.level ≠ .warn) ∧
    ((∀ i ∈ c.instructions, ∀ j ∈ c.instructions, ∀ q r s,
        i.action = .move q r → j.action ≠ .move s q) →
      removalPrecondition c = .ok () →
        ((∀ i ∈ c.instructions, i.isMove = true) ∧
          (removeMoves c).result = .error (.transpilation (.onlyMoves c.name))) ∨
        ∃ d, (removeMoves c).result = .ok d ∧
          ∀ i ∈ d.instructions, ∀ s ∈ i.qubits, ∀ j ∈ c.instructions, ∀ q,
            j.action ≠ .move q s) := by
  refine ⟨?_, fun apart hcheck => ?_⟩
  · rw [removeMoves_log]
    exact checkRemovable_eq_ok_iff c.name
  · have hb := ResonatorBank.separated_ofInstructions_iff.2 apart
    obtain ⟨out, hout, hnone, hfree⟩ := exists_removeFrom_of_checkRemovable hb hcheck c.name
    rw [removeMoves_result, ResonatorBank.ofCircuit, hout]
    by_cases hempty : out = []
    · exact Or.inl ⟨hnone.1 hempty, if_pos hempty⟩
    · refine Or.inr ⟨{ c with instructions := out, instructions_ne_nil := hempty }, ?_, ?_⟩
      · exact (if_neg hempty).trans (Circuit.withBody_eq_ok_iff.2 ⟨hempty, rfl⟩)
      · intro i hi s hs j hj q hmove
        have htracks := ResonatorBank.tracks_ofInstructions_iff.2 ⟨j, hj, q, hmove⟩
        rw [hfree i hi s hs] at htracks
        exact absurd htracks (by decide)

/-- Interleaved sandwiches pass the check, and removal leaves no resonator of theirs. -/
theorem removalPrecondition_agrees_interleaved :
    removalPrecondition interleavedSandwiches = .ok () ∧
      (∀ e ∈ (removeMoves interleavedSandwiches).log, e.level ≠ .warn) ∧
      ∃ d, (removeMoves interleavedSandwiches).result = .ok d ∧
        ∀ i ∈ d.instructions, ∀ s ∈ i.qubits, ∀ j ∈ interleavedSandwiches.instructions, ∀ q,
          j.action ≠ .move q s := by
  have hcheck : removalPrecondition interleavedSandwiches = .ok () := by cbv
  obtain ⟨hagree, hresult⟩ := removalPrecondition_agrees interleavedSandwiches
  have apart : ∀ i ∈ interleavedSandwiches.instructions,
      ∀ j ∈ interleavedSandwiches.instructions, ∀ q r s,
        i.action = .move q r → j.action ≠ .move s q := by
    simp [interleavedSandwiches, Instruction.barrier, Instruction.cz, Instruction.measure,
      Instruction.move]
  refine ⟨hcheck, (hagree.1 hcheck).2, (hresult apart hcheck).resolve_left fun h => ?_⟩
  exact absurd (h.1 (.cz "R1" "R2") (by decide)) (by decide)

end StarQpu
