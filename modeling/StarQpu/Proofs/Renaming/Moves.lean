import Mathlib.Logic.Equiv.Defs
import StarQpu.Proofs.Occupation

/-!
# StarQpu.Proofs.Renaming.Moves

**Valid sandwiches stay valid under new names.** Validation keeps a table of the occupied
resonators, and where it compares names it compares them with names that were renamed in the same
way. Occupations that are `Renamed` stay so over each step (`Renamed.step`) and each run
(`Renamed.run`), and where one of them leaves nothing in a resonator the other does not either. So
the sandwiches of a list pass in the names of one mapping if they pass in the names of another one
(`validateMoveList_mapQubits`).
-/

namespace StarQpu

variable {a : DynamicArchitecture} {g : Equiv.Perm String} {o o' o₁ : Occupation} {i : Instruction}
  {q r : String} {qubits resonators : List String} {mode : MoveValidation} {l : List Instruction}

/-- Back to the old names. -/
theorem map_mapQubits_symm (g : Equiv.Perm String) (l : List Instruction) :
    (l.map (·.mapQubits g)).map (·.mapQubits g.symm) = l := by
  rw [List.map_map]
  refine (List.map_congr_left fun i _ => ?_).trans (List.map_id _)
  exact (Instruction.mapQubits_mapQubits g g.symm i).trans
    (Instruction.mapQubits_eq_self fun q _ => g.symm_apply_apply q)

namespace Occupation

/-- The second occupation is the first one under new names. -/
def Renamed (g : Equiv.Perm String) (o o' : Occupation) : Prop :=
  ∀ r, o'.get? (g r) = (o.get? r).map g

theorem Renamed.empty (g : Equiv.Perm String) : Renamed g .empty .empty := fun _ => rfl

namespace Renamed

variable (h : Renamed g o o')
include h

theorem get?_eq_some_iff : o'.get? (g r) = some (g q) ↔ o.get? r = some q := by
  rw [h r]
  simp

theorem holds_eq : o'.holds (g q) = o.holds q := by
  rw [Bool.eq_iff_iff, holds_iff, holds_iff]
  constructor
  · intro hheld
    obtain ⟨r, hr⟩ := hheld
    refine ⟨g.symm r, h.get?_eq_some_iff.1 ?_⟩
    rw [g.apply_symm_apply, hr]
  · intro hheld
    obtain ⟨r, hr⟩ := hheld
    exact ⟨g r, h.get?_eq_some_iff.2 hr⟩

theorem entries_eq_nil (hnone : o.entries = []) : o'.entries = [] := by
  rw [Table.entries_eq_nil_iff] at hnone ⊢
  intro r
  rw [← g.apply_symm_apply r, h, hnone]
  rfl

theorem release (r : String) : Renamed g (o.release r) (o'.release (g r)) := by
  intro s
  rw [get?_release, get?_release]
  by_cases hs : s = r
  · simp [hs]
  · simp [hs, h s]

theorem insert (q r : String) : Renamed g (Table.insert o r q) (Table.insert o' (g r) (g q)) := by
  intro s
  rw [Table.get?_insert, Table.get?_insert]
  by_cases hs : s = r
  · simp [hs]
  · simp [hs, h s]

theorem move (hmove : o.move q r = .ok o₁) :
    ∃ o₁', o'.move (g q) (g r) = .ok o₁' ∧ Renamed g o₁ o₁' := by
  rcases move_eq_ok_iff.1 hmove with ⟨hr, hfree, rfl⟩ | ⟨hr, rfl⟩
  · refine ⟨_, move_eq_ok_iff.2 (Or.inl ⟨?_, ?_, rfl⟩), h.insert q r⟩
    · rw [h r, hr, Option.map_none]
    · rw [h.holds_eq, hfree]
  · exact ⟨_, move_eq_ok_iff.2 (Or.inr ⟨h.get?_eq_some_iff.2 hr, rfl⟩), h.release r⟩

/-- One step under new names. -/
theorem step (hstep : o.step qubits resonators mode i = .ok o₁) :
    ∃ o₁', o'.step (qubits.map g) (resonators.map g) mode (i.mapQubits g) = .ok o₁' ∧
      Renamed g o₁ o₁' := by
  cases hmove : i.isMove with
  | true =>
      obtain ⟨q, r, haction⟩ := Instruction.isMove_iff.1 hmove
      obtain ⟨⟨hq, hr⟩, hmoved⟩ := (step_move_eq_ok_iff haction).1 hstep
      obtain ⟨o₁', hmoved', hrenamed⟩ := h.move hmoved
      exact ⟨o₁', (step_move_eq_ok_iff (Instruction.mapQubits_of_move haction g)).2
        ⟨⟨List.mem_map_of_mem hq, List.mem_map_of_mem hr⟩, hmoved'⟩, hrenamed⟩
  | false =>
      obtain ⟨rfl, hpass⟩ := (step_other_eq_ok_iff hmove).1 hstep
      refine ⟨o', (step_other_eq_ok_iff (by simpa using hmove)).2 ⟨rfl, ?_⟩, h⟩
      refine hpass.imp (fun htolerates => ?_) fun hfree q hq => ?_
      · obtain ⟨action, implementation⟩ := i
        cases action <;> exact htolerates
      · rw [Instruction.qubits_mapQubits] at hq
        obtain ⟨p, hp, rfl⟩ := List.mem_map.1 hq
        rw [h.holds_eq]
        exact hfree p hp

theorem run (hrun : o.run qubits resonators mode l = .ok o₁) :
    ∃ o₁', o'.run (qubits.map g) (resonators.map g) mode (l.map (·.mapQubits g)) = .ok o₁' ∧
      Renamed g o₁ o₁' := by
  induction l generalizing o o' with
  | nil =>
      obtain rfl : o = o₁ := Except.ok.inj hrun
      exact ⟨o', rfl, h⟩
  | cons i rest ih =>
      rw [run_cons, bind_eq_ok_iff] at hrun
      obtain ⟨next, hstep, hrest⟩ := hrun
      obtain ⟨next', hstep', hnext⟩ := h.step hstep
      obtain ⟨o₁', hrest', hrenamed⟩ := ih hnext hrest
      refine ⟨o₁', ?_, hrenamed⟩
      rw [List.map_cons, run_cons, hstep']
      exact hrest'

end Renamed

end Occupation

/-- **Valid sandwiches stay valid** if the instructions get the names that the components have. -/
theorem validateMoveList_mapQubits {m m' : QubitMapping}
    (hnames : ∀ c, a.hasComponent c = true → renamed m'.inverse c = g (renamed m.inverse c))
    (valid : validateMoveList a l (some m) mode = .ok ()) :
    validateMoveList a (l.map (·.mapQubits g)) (some m') mode = .ok () := by
  by_cases hmode : mode = .unchecked
  · simp [validateMoveList, hmode]
  · cases supports : a.supportsMove with
    | false =>
        have hany : (l.map (·.mapQubits g)).any (·.isMove) = l.any (·.isMove) := by
          simp [List.any_map, Function.comp_def]
        simpa [validateMoveList, hmode, supports, hany] using valid
    | true =>
        rw [validateMoveList_eq_ok_iff_run supports hmode] at valid ⊢
        obtain ⟨o, hrun, hnone⟩ := valid
        obtain ⟨o', hrun', hrenamed⟩ := (Occupation.Renamed.empty g).run hrun
        have hqubits : a.qubits.map (renamed m'.inverse) =
            (a.qubits.map (renamed m.inverse)).map g := by
          rw [List.map_map]
          exact List.map_congr_left fun c hc => hnames c
            (DynamicArchitecture.hasComponent_of_isQubit (List.contains_iff_mem.2 hc))
        have hresonators : a.resonators.map (renamed m'.inverse) =
            (a.resonators.map (renamed m.inverse)).map g := by
          rw [List.map_map]
          exact List.map_congr_left fun c hc => hnames c
            (DynamicArchitecture.hasComponent_of_isResonator (List.contains_iff_mem.2 hc))
        refine ⟨o', ?_, hrenamed.entries_eq_nil hnone⟩
        simp only [Option.map_some, Option.getD_some, hqubits, hresonators]
        exact hrun'

end StarQpu
