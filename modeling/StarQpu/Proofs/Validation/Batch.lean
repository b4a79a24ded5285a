import StarQpu.Proofs.Validation
import StarQpu.Validation.Moves

/-!
# StarQpu.Proofs.Validation.Batch

**What makes a batch valid.** The walks over a batch stop at the first violation, so they have a
result exactly when no step has one: each circuit by itself (`validateCircuits_eq_ok_iff`), and of a
circuit each instruction by itself, its measurement keys, and its MOVEs
(`validateCircuit_eq_ok_iff`).
-/

namespace StarQpu

variable {a : DynamicArchitecture} {mapping : Option QubitMapping} {mode : MoveValidation}
  {c : Circuit} {circuits : List Circuit} {circuit : String} {seen : List String}
  {l : List Instruction}

/-- The keys of the measurements, in order. -/
def measurementKeys (l : List Instruction) : List String := l.filterMap (·.measurementKey?)

theorem validateBody_eq_ok_iff : validateBody a mapping circuit seen l = .ok () ↔
    (∀ i ∈ l, validateInstruction a i mapping = .ok ()) ∧ (measurementKeys l).Nodup ∧
      ∀ key ∈ measurementKeys l, key ∉ seen := by
  -- the keys that are met are generalized: they grow along the list
  induction l generalizing seen with
  | nil => simp [validateBody, measurementKeys]
  | cons i rest ih =>
      rw [validateBody, check_do_eq_ok_iff, List.forall_mem_cons, and_assoc]
      refine and_congr_right fun _ => ?_
      cases hkey : i.measurementKey? with
      | none =>
          have hkeys : measurementKeys (i :: rest) = measurementKeys rest := by
            rw [measurementKeys, List.filterMap_cons_none hkey, measurementKeys]
          rw [hkeys]
          exact ih
      | some key =>
          have hkeys : measurementKeys (i :: rest) = key :: measurementKeys rest := by
            rw [measurementKeys, List.filterMap_cons_some hkey, measurementKeys]
          rw [hkeys, List.nodup_cons, List.forall_mem_cons]
          dsimp only
          by_cases hmet : key ∈ seen
          · simp [hmet, throw, throwThe, MonadExceptOf.throw]
          · -- a key that is met once more would be among those seen by then
            rw [if_neg (by simpa using hmet), ih]
            simp only [List.mem_cons, not_or]
            constructor
            · intro h
              obtain ⟨hall, hnodup, hseen⟩ := h
              exact ⟨hall, ⟨fun hkey => (hseen key hkey).1 rfl, hnodup⟩, hmet,
                fun key' hkey' => (hseen key' hkey').2⟩
            · intro h
              obtain ⟨hall, ⟨hfirst, hnodup⟩, -, hseen⟩ := h
              exact ⟨hall, hnodup, fun key' hkey' =>
                ⟨fun heq => hfirst (heq ▸ hkey'), hseen key' hkey'⟩⟩

/-- A circuit is valid if all its instructions are, if no measurement key occurs twice and if its
MOVEs form sandwiches. -/
theorem validateCircuit_eq_ok_iff : validateCircuit a mapping mode c = .ok () ↔
    (∀ i ∈ c.instructions, validateInstruction a i mapping = .ok ()) ∧
      (measurementKeys c.instructions).Nodup ∧ validateMoves a c mapping mode = .ok () := by
  rw [validateCircuit, check_do_eq_ok_iff, validateBody_eq_ok_iff, and_assoc, and_assoc]
  simp

/-- A batch is valid if all its circuits are. -/
theorem validateCircuits_eq_ok_iff : validateCircuits a circuits mapping mode = .ok () ↔
    ∀ c ∈ circuits, validateCircuit a mapping mode c = .ok () := by
  rw [validateCircuits]
  induction circuits with
  | nil => simp [pure, Except.pure]
  | cons c rest ih => rw [List.forM, check_do_eq_ok_iff, ih, List.forall_mem_cons]

end StarQpu
