import StarQpu.Proofs.Bank.Moving
import StarQpu.Proofs.Removal

/-!
# StarQpu.Proofs.Routing.Placement

**The swap semantics.** Every component starts with a state of its own. A MOVE exchanges the states
of its two components; any other instruction acts on the states that its components hold when it is
reached. The meaning of a list of instructions is its `trace`: the instructions other than MOVEs,
each with the states it acts on.

A bank is a view of the states: `ResonatorBank.placement` says which component holds which, and a
MOVE that the bank allows is an exchange of states (`placement_applied`).
-/

namespace StarQpu

/-! ### States and traces -/

/-- The state that each component holds; a state is called by the component it began at. -/
abbrev Placement := String → String

namespace Placement

variable {p : Placement} {i : Instruction} {q r : String} {l l' rest : List Instruction}

/-- Every component holds its own state. -/
def own : Placement := fun c => c

/-- The components exchange their states. -/
def exchange (p : Placement) (q r : String) : Placement :=
  fun c => if c = q then p r else if c = r then p q else p c

/-- The states after an instruction. -/
def step (p : Placement) (i : Instruction) : Placement :=
  match i.action with
  | .move q r => p.exchange q r
  | _ => p

/-- The states after a list of instructions. -/
def after (p : Placement) : List Instruction → Placement
  | [] => p
  | i :: rest => (p.step i).after rest

/-- The instructions other than MOVEs, each with the states it acts on. -/
def trace (p : Placement) : List Instruction → List (Instruction × List String)
  | [] => []
  | i :: rest =>
    if i.isMove then (p.step i).trace rest else (i, i.qubits.map p) :: (p.step i).trace rest

/-- The same operation with the same arguments acts on the same states; for a controlled-Z their
order does not matter. -/
structure Alike (e e' : Instruction × List String) : Prop where
  name : e.1.name = e'.1.name
  args : e.1.args = e'.1.args
  states : e.2 = e'.2 ∨ e.1.isCz = true ∧ e.2 = e'.2.reverse

instance : Std.Refl Alike := ⟨fun _ => ⟨rfl, rfl, Or.inl rfl⟩⟩

/-- Components that hold their own states. -/
theorem map_eq_self_iff {qubits : List String} :
    qubits.map p = qubits ↔ ∀ q ∈ qubits, p q = q := by
  have h := List.map_eq_map_iff (f := p) (g := id) (l := qubits)
  rw [List.map_id] at h
  exact h

@[simp] theorem step_move (p : Placement) (q r : String) :
    p.step (.move q r) = p.exchange q r := rfl

theorem step_of_action (hmove : i.action = .move q r) : p.step i = p.exchange q r := by
  rw [step, hmove]

theorem step_of_not_move (hother : i.isMove = false) : p.step i = p := by
  rw [step]
  cases haction : i.action with
  | move q r => exact absurd haction (Instruction.isMove_eq_false_iff.1 hother q r)
  | _ => rfl

@[simp] theorem after_cons : p.after (i :: rest) = (p.step i).after rest := rfl

theorem trace_cons_of_move (hmove : i.isMove = true) :
    p.trace (i :: rest) = (p.step i).trace rest := by
  rw [trace, if_pos hmove]

theorem trace_cons_of_not_move (hother : i.isMove = false) :
    p.trace (i :: rest) = (i, i.qubits.map p) :: p.trace rest := by
  have hnot : ¬ i.isMove = true := by simp [hother]
  rw [trace, if_neg hnot, step_of_not_move hother]

theorem trace_append (p : Placement) (l l' : List Instruction) :
    p.trace (l ++ l') = p.trace l ++ (p.after l).trace l' := by
  induction l generalizing p with
  | nil => rfl
  | cons i rest ih =>
      cases hmove : i.isMove with
      | true => rw [List.cons_append, trace_cons_of_move hmove, trace_cons_of_move hmove, ih,
          after_cons]
      | false => rw [List.cons_append, trace_cons_of_not_move hmove, trace_cons_of_not_move hmove,
          ih, after_cons, step_of_not_move hmove, List.cons_append]

theorem mem_of_mem_trace {e : Instruction × List String} (he : e ∈ p.trace l) : e.1 ∈ l := by
  induction l generalizing p with
  | nil => exact absurd he List.not_mem_nil
  | cons i rest ih =>
      cases hmove : i.isMove with
      | true =>
          rw [trace_cons_of_move hmove] at he
          exact List.mem_cons_of_mem _ (ih he)
      | false =>
          rw [trace_cons_of_not_move hmove] at he
          rcases List.mem_cons.1 he with rfl | he
          · exact List.mem_cons_self
          · exact List.mem_cons_of_mem _ (ih he)

theorem after_of_not_move (hother : ∀ i ∈ l, i.isMove = false) : p.after l = p := by
  induction l with
  | nil => rfl
  | cons i rest ih =>
      rw [after_cons, step_of_not_move (hother i List.mem_cons_self)]
      exact ih fun j hj => hother j (List.mem_cons_of_mem _ hj)

end Placement

/-! ### The states a bank tells of -/

namespace ResonatorBank

variable {b b₁ : ResonatorBank} {c q r s h : String}

/-- The state each component holds: a resonator that of its holder, a qubit whose state is in a
resonator that of the resonator, and any other component its own. -/
def placement (b : ResonatorBank) : Placement := fun c =>
  match b.holder? c with
  | some h => h
  | none =>
    match b.resonators.find? (·.holder = c) with
    | some t => t.name
    | none => c

theorem placement_of_holder? (hr : b.holder? r = some h) : b.placement r = h := by
  rw [placement, hr]

theorem placement_of_held (hb : b.Separated) (hr : b.holder? r = some q)
    (hfree : b.tracks q = false) : b.placement q = r := by
  rw [placement, tracks_eq_false_iff.1 hfree]
  dsimp only
  cases hfind : b.resonators.find? (·.holder = q) with
  | none =>
      obtain ⟨t, ht, -, hheld⟩ := (holder?_eq_some_iff hb.nodup).1 hr
      have hnot := List.find?_eq_none.1 hfind t ht
      rw [decide_eq_true_eq] at hnot
      exact absurd hheld hnot
  | some t =>
      have hheld : t.holder = q := by simpa using List.find?_some hfind
      have ht := (holder?_eq_some_iff hb.nodup).2
        ⟨t, List.mem_of_find?_eq_some hfind, rfl, hheld⟩
      exact hb.holder_inj ht hr

theorem placement_of_free (hb : b.Separated) (hfree : b.tracks c = false)
    (hnone : ∀ s, b.holder? s ≠ some c) : b.placement c = c := by
  rw [placement, tracks_eq_false_iff.1 hfree]
  dsimp only
  cases hfind : b.resonators.find? (·.holder = c) with
  | none => rfl
  | some t =>
      have hheld : t.holder = c := by simpa using List.find?_some hfind
      have ht := (holder?_eq_some_iff hb.nodup).2
        ⟨t, List.mem_of_find?_eq_some hfind, rfl, hheld⟩
      exact absurd ht (hnone t.name)

/-- Three kinds of components. -/
theorem placement_cases (hb : b.Separated) (c : String) :
    (∃ h, b.holder? c = some h ∧ b.placement c = h) ∨
      b.tracks c = false ∧ (∃ s, b.holder? s = some c ∧ b.placement c = s) ∨
      b.tracks c = false ∧ (∀ s, b.holder? s ≠ some c) ∧ b.placement c = c := by
  cases hc : b.holder? c with
  | some h => exact Or.inl ⟨h, rfl, placement_of_holder? hc⟩
  | none =>
      have hfree := tracks_eq_false_iff.2 hc
      by_cases hheld : ∃ s, b.holder? s = some c
      · obtain ⟨s, hs⟩ := hheld
        exact Or.inr (Or.inl ⟨hfree, s, hs, placement_of_held hb hs hfree⟩)
      · have hnone : ∀ s, b.holder? s ≠ some c := fun s hs => hheld ⟨s, hs⟩
        exact Or.inr (Or.inr ⟨hfree, hnone, placement_of_free hb hfree hnone⟩)

/-- A component whose state stays where it is keeps its place, too, when a resonator that neither is
nor held it gets another holder. -/
theorem placement_setHolder (hb : b.Separated) (hb₁ : (b.setHolder r h).Separated) (hcr : c ≠ r)
    (hch : c ≠ h) (hout : b.holder? r ≠ some c) :
    (b.setHolder r h).placement c = b.placement c := by
  -- `c` holds a state, is held in `s`, or neither; `r` is not the one that decides
  rcases placement_cases hb c with ⟨k, hc, hp⟩ | ⟨hfree, s, hs, hp⟩ | ⟨hfree, hnone, hp⟩
  · rw [hp]
    refine placement_of_holder? ?_
    rw [holder?_setHolder, if_neg hcr]
    exact hc
  · have hsr : s ≠ r := by
      intro hsr
      exact hout (hsr ▸ hs)
    rw [hp]
    refine placement_of_held hb₁ ?_ (by rw [tracks_setHolder]; exact hfree)
    rw [holder?_setHolder, if_neg hsr]
    exact hs
  · rw [hp]
    refine placement_of_free hb₁ (by rw [tracks_setHolder]; exact hfree) ?_
    intro s hs
    rw [holder?_setHolder] at hs
    by_cases hsr : s = r
    · rw [if_pos hsr, Option.map_eq_some_iff] at hs
      obtain ⟨-, -, hh⟩ := hs
      exact hch hh.symm
    · rw [if_neg hsr] at hs
      exact hnone s hs

theorem placement_own (hb : b.Separated) (rest : b.AtRest) : b.placement = Placement.own := by
  funext c
  rcases placement_cases hb c with ⟨h, hc, hp⟩ | ⟨hfree, s, hs, -⟩ | ⟨-, -, hp⟩
  · exact hp.trans (rest c h hc)
  · exact absurd (rest s c hs) (ne_of_not_tracks hfree hs)
  · exact hp

/-- A state that leaves changes places with the state of the resonator. -/
theorem placement_out (hb : b.Separated) (hr : b.holder? r = some q) (hne : q ≠ r) :
    (b.setHolder r r).placement = b.placement.exchange q r := by
  have hb₁ := hb.applied (hb.applied?_out hr hne)
  have hq : b.tracks q = false := (hb.holder_cases hr).resolve_left hne
  have hempty : (b.setHolder r r).holder? r = some r := by
    rw [holder?_setHolder, if_pos rfl, hr, Option.map_some]
  have hgone : ∀ s, (b.setHolder r r).holder? s ≠ some q := by
    intro s hs
    rw [holder?_setHolder] at hs
    by_cases hsr : s = r
    · rw [if_pos hsr, Option.map_eq_some_iff] at hs
      obtain ⟨-, -, hrq⟩ := hs
      exact hne hrq.symm
    · rw [if_neg hsr] at hs
      exact hsr (hb.holder_inj hs hr)
  funext c
  rw [Placement.exchange]
  by_cases hcq : c = q
  · rw [if_pos hcq, hcq, placement_of_holder? hr]
    exact placement_of_free hb₁ (by rw [tracks_setHolder]; exact hq) hgone
  · rw [if_neg hcq]
    by_cases hcr : c = r
    · rw [if_pos hcr, hcr, placement_of_held hb hr hq]
      exact placement_of_holder? hempty
    · rw [if_neg hcr]
      refine placement_setHolder hb hb₁ hcr hcr ?_
      rw [hr, ne_eq, Option.some.injEq]
      exact fun h => hcq h.symm

/-- A state that enters an empty resonator changes places with the state of the resonator. -/
theorem placement_in (hb : b.Separated) (hr : b.holder? r = some r) (hmem : q ∈ b.qubitsOf r)
    (hnone : ∀ s, b.holder? s ≠ some q) :
    (b.setHolder r q).placement = b.placement.exchange q r := by
  have hb₁ := hb.applied (hb.applied?_in hr hmem hnone)
  have hq := hb.apart hmem
  have hheld : (b.setHolder r q).holder? r = some q := by
    rw [holder?_setHolder, if_pos rfl, hr, Option.map_some]
  funext c
  rw [Placement.exchange]
  by_cases hcq : c = q
  · rw [if_pos hcq, hcq, placement_of_holder? hr]
    exact placement_of_held hb₁ hheld (by rw [tracks_setHolder]; exact hq)
  · rw [if_neg hcq]
    by_cases hcr : c = r
    · rw [if_pos hcr, hcr, placement_of_free hb hq hnone]
      exact placement_of_holder? hheld
    · rw [if_neg hcr]
      refine placement_setHolder hb hb₁ hcr hcq ?_
      rw [hr, ne_eq, Option.some.injEq]
      exact fun h => hcr h.symm

/-- **A MOVE exchanges states.** -/
theorem placement_applied (hb : b.Separated) (applied : b.applied? q r = some b₁) :
    b₁.placement = b.placement.exchange q r := by
  obtain ⟨hallow, rfl⟩ := applied?_eq_some_iff.1 applied
  obtain ⟨hmem, hheld, honly⟩ := (allows_iff hb.nodup).1 hallow
  have hne := hb.ne_of_mem_qubitsOf hmem
  -- out of the resonator, or into it
  rcases hheld with hout | hin
  · rw [if_neg]
    · exact placement_out hb hout hne
    · rw [hout, Option.some.injEq]
      exact hne
  · rw [if_pos hin]
    refine placement_in hb hin hmem fun s hs => ?_
    rw [honly s hs, hin, Option.some.injEq] at hs
    exact hne hs.symm

end ResonatorBank

end StarQpu
