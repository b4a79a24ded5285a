import Mathlib.Data.List.Induction
import StarQpu.Proofs.Bank.Basic
import StarQpu.Proofs.Sorting

/-!
# StarQpu.Proofs.Bank.Setup

**How banks begin.** A bank made of pairs tracks the names of the pairs, each with all the qubits
that stand beside it, and every resonator holds its own state (`holder?_ofPairs`). So such a bank is
sound whatever names it is made of, and separated as soon as no resonator is named as a qubit. The
banks of an architecture and of a list of instructions are of this kind.
-/

namespace StarQpu.ResonatorBank

/-! ### Adding a pair -/

theorem mem_addMissing_iff {q : String} {known extra : List String} :
    q ∈ addMissing known extra ↔ q ∈ known ∨ q ∈ extra := by
  -- what was added in one step is known in the next
  induction extra generalizing known with
  | nil => simp [addMissing]
  | cons p rest ih =>
      rw [addMissing, ih, List.mem_cons]
      by_cases hp : p ∈ known
      · rw [if_pos (List.contains_iff_mem.2 hp)]
        constructor
        · intro h
          rcases h with h | h
          · exact Or.inl h
          · exact Or.inr (Or.inr h)
        · intro h
          rcases h with h | rfl | h
          · exact Or.inl h
          · exact Or.inl hp
          · exact Or.inr h
      · rw [if_neg (by simpa using hp), List.mem_append, List.mem_singleton, or_assoc]

theorem names_addTo (name : String) (qubits : List String) (rs : List Resonator) :
    (addTo name qubits rs).map (·.name) =
      if name ∈ rs.map (·.name) then rs.map (·.name) else rs.map (·.name) ++ [name] := by
  fun_induction addTo name qubits rs with
  | case1 => simp
  | case2 t rest heq => simp [heq]
  | case3 t rest hne ih =>
      rw [List.map_cons, ih, List.map_cons]
      by_cases hmem : name ∈ rest.map (·.name)
      · rw [if_pos hmem, if_pos (List.mem_cons_of_mem _ hmem)]
      · have hnew : name ∉ t.name :: rest.map (·.name) := by
          rw [List.mem_cons]
          exact not_or.2 ⟨fun h => hne h.symm, hmem⟩
        rw [if_neg hmem, if_neg hnew, List.cons_append]

theorem holder_addTo {name : String} {qubits : List String} {rs : List Resonator}
    (h : ∀ t ∈ rs, t.holder = t.name) : ∀ t ∈ addTo name qubits rs, t.holder = t.name := by
  fun_induction addTo name qubits rs with
  | case1 => simp
  | case2 t rest heq =>
      intro u hu
      rcases List.mem_cons.1 hu with rfl | hrest
      · exact h t List.mem_cons_self
      · exact h u (List.mem_cons_of_mem _ hrest)
  | case3 t rest hne ih =>
      intro u hu
      rcases List.mem_cons.1 hu with rfl | hrest
      · exact h u List.mem_cons_self
      · exact ih (fun v hv => h v (List.mem_cons_of_mem _ hv)) u hrest

theorem exists_mem_addTo_iff {name n q : String} {qubits : List String} {rs : List Resonator} :
    (∃ t ∈ addTo name qubits rs, t.name = n ∧ q ∈ t.qubits) ↔
      (∃ t ∈ rs, t.name = n ∧ q ∈ t.qubits) ∨ n = name ∧ q ∈ qubits := by
  fun_induction addTo name qubits rs with
  | case1 => simp [eq_comm]
  | case2 t rest heq =>
      simp only [List.mem_cons, exists_eq_or_imp, mem_addMissing_iff]
      rw [heq]
      constructor
      · intro h
        rcases h with ⟨rfl, hq | hq⟩ | h
        · exact Or.inl (Or.inl ⟨rfl, hq⟩)
        · exact Or.inr ⟨rfl, hq⟩
        · exact Or.inl (Or.inr h)
      · intro h
        rcases h with (⟨rfl, hq⟩ | h) | ⟨rfl, hq⟩
        · exact Or.inl ⟨rfl, Or.inl hq⟩
        · exact Or.inr h
        · exact Or.inl ⟨rfl, Or.inr hq⟩
  | case3 t rest hne ih =>
      simp only [List.mem_cons, exists_eq_or_imp]
      rw [ih, or_assoc]

/-! ### A bank of pairs -/

theorem ofPairs_append_singleton (ps : List (String × List String)) (p : String × List String) :
    ofPairs (ps ++ [p]) = ⟨addTo p.1 p.2 (ofPairs ps).resonators⟩ := by
  rw [ofPairs, List.foldl_append]
  rfl

section Pairs

variable (ps : List (String × List String))

theorem nodup_names_ofPairs : (ofPairs ps).names.Nodup := by
  -- a fold from the left is taken apart from the right
  induction ps using List.reverseRecOn with
  | nil => exact List.nodup_nil
  | append_singleton ps p ih =>
      rw [ofPairs_append_singleton, names, names_addTo]
      split
      next => exact ih
      next hnew =>
          refine List.nodup_append.2 ⟨ih, List.nodup_singleton _, ?_⟩
          intro n hn m hm hnm
          rw [List.mem_singleton] at hm
          rw [hnm, hm] at hn
          exact hnew hn

theorem mem_names_ofPairs_iff {r : String} :
    r ∈ (ofPairs ps).names ↔ ∃ qubits, (r, qubits) ∈ ps := by
  induction ps using List.reverseRecOn with
  | nil => simp [ofPairs, names]
  | append_singleton ps p ih =>
      have hstep : r ∈ (ofPairs (ps ++ [p])).names ↔ r ∈ (ofPairs ps).names ∨ r = p.1 := by
        rw [ofPairs_append_singleton, names, names_addTo, names]
        split
        next hold =>
            constructor
            · exact Or.inl
            · intro h
              rcases h with h | rfl
              · exact h
              · exact hold
        next => rw [List.mem_append, List.mem_singleton]
      obtain ⟨n, qs⟩ := p
      rw [hstep, ih]
      simp only [List.mem_append, List.mem_singleton, Prod.mk.injEq, exists_or, exists_and_left,
        exists_eq, and_true]

/-- Every resonator of the bank holds its own state. -/
theorem holder_ofPairs : ∀ t ∈ (ofPairs ps).resonators, t.holder = t.name := by
  induction ps using List.reverseRecOn with
  | nil => simp [ofPairs]
  | append_singleton ps p ih =>
      rw [ofPairs_append_singleton]
      exact holder_addTo ih

variable {ps} {q r h : String}

theorem tracks_ofPairs_iff : (ofPairs ps).tracks r = true ↔ ∃ qubits, (r, qubits) ∈ ps := by
  rw [← mem_names_iff (nodup_names_ofPairs ps), mem_names_ofPairs_iff]

theorem holder?_ofPairs (hr : (ofPairs ps).holder? r = some h) : h = r := by
  obtain ⟨t, ht, rfl, rfl⟩ := (holder?_eq_some_iff (nodup_names_ofPairs ps)).1 hr
  exact holder_ofPairs ps t ht

theorem mem_qubitsOf_ofPairs_iff :
    q ∈ (ofPairs ps).qubitsOf r ↔ ∃ qubits, (r, qubits) ∈ ps ∧ q ∈ qubits := by
  rw [mem_qubitsOf_iff (nodup_names_ofPairs ps)]
  induction ps using List.reverseRecOn with
  | nil => simp [ofPairs]
  | append_singleton ps p ih =>
      rw [ofPairs_append_singleton, exists_mem_addTo_iff, ih]
      obtain ⟨n, qs⟩ := p
      constructor
      · intro h
        rcases h with ⟨qubits, hmem, hq⟩ | ⟨rfl, hq⟩
        · exact ⟨qubits, List.mem_append_left _ hmem, hq⟩
        · exact ⟨qs, List.mem_append_right _ List.mem_cons_self, hq⟩
      · intro h
        obtain ⟨qubits, hmem, hq⟩ := h
        rcases List.mem_append.1 hmem with hmem | hmem
        · exact Or.inl ⟨qubits, hmem, hq⟩
        · rw [List.mem_singleton, Prod.mk.injEq] at hmem
          exact Or.inr ⟨hmem.1, hmem.2 ▸ hq⟩

variable (ps)

/-- A bank made of pairs is sound, whatever the names are. -/
theorem sound_ofPairs : (ofPairs ps).Sound where
  nodup := nodup_names_ofPairs ps
  holder_mem := fun hr => Or.inl (holder?_ofPairs hr)
  single := fun hr _ hne _ => absurd (holder?_ofPairs hr) hne

end Pairs

/-! ### The bank of an architecture -/

section Architecture

variable {a : DynamicArchitecture} {q r h : String}

theorem qubitOfMove?_eq_some_iff {locus : Locus} :
    qubitOfMove? r locus = some q ↔ locus = [q, r] := by
  unfold qubitOfMove?
  split
  next p s =>
      rw [Option.ite_none_right_eq_some]
      constructor
      · intro h
        obtain ⟨rfl, hq⟩ := h
        rw [Option.some.inj hq]
      · intro hlocus
        obtain ⟨rfl, rfl⟩ : p = q ∧ s = r := by simpa using hlocus
        exact ⟨rfl, rfl⟩
  next hlength =>
      constructor
      · intro h
        simp at h
      · intro h
        exact absurd h (hlength q r)

theorem tracks_ofArchitecture_iff :
    (ofArchitecture a).tracks r = true ↔ a.isResonator r = true := by
  rw [ofArchitecture, tracks_ofPairs_iff, DynamicArchitecture.isResonator, List.contains_iff_mem]
  constructor
  · intro h
    obtain ⟨qubits, hmem⟩ := h
    obtain ⟨s, hs, heq⟩ := List.mem_map.1 hmem
    exact (Prod.mk.inj heq).1 ▸ hs
  · intro hr
    exact ⟨_, List.mem_map.2 ⟨r, hr, rfl⟩⟩

theorem tracks_ofArchitecture (a : DynamicArchitecture) :
    (ofArchitecture a).tracks = a.isResonator := by
  funext r
  rw [Bool.eq_iff_iff]
  exact tracks_ofArchitecture_iff

theorem mem_qubitsOf_ofArchitecture_iff :
    q ∈ (ofArchitecture a).qubitsOf r ↔ a.isResonator r = true ∧ [q, r] ∈ a.moveLoci := by
  rw [ofArchitecture, mem_qubitsOf_ofPairs_iff, DynamicArchitecture.isResonator,
    List.contains_iff_mem]
  constructor
  · intro h
    obtain ⟨qubits, hmem, hq⟩ := h
    obtain ⟨s, hs, heq⟩ := List.mem_map.1 hmem
    obtain ⟨rfl, rfl⟩ := Prod.mk.inj heq
    obtain ⟨locus, hlocus, hmove⟩ := List.mem_filterMap.1 hq
    rw [qubitOfMove?_eq_some_iff] at hmove
    exact ⟨hs, hmove ▸ hlocus⟩
  · intro h
    obtain ⟨hr, hlocus⟩ := h
    refine ⟨_, List.mem_map.2 ⟨r, hr, rfl⟩, List.mem_filterMap.2 ⟨[q, r], hlocus, ?_⟩⟩
    exact qubitOfMove?_eq_some_iff.2 rfl

/-- The bank of an architecture supports MOVEs if there is one into a resonator. -/
theorem supportsMove_ofArchitecture_iff : (ofArchitecture a).supportsMove = true ↔
    ∃ q r, a.isResonator r = true ∧ [q, r] ∈ a.moveLoci := by
  constructor
  · intro h
    obtain ⟨q, r, hq⟩ := exists_mem_qubitsOf_of_supportsMove (nodup_names_ofPairs _) h
    exact ⟨q, r, mem_qubitsOf_ofArchitecture_iff.1 hq⟩
  · intro h
    obtain ⟨q, r, hmove⟩ := h
    exact supportsMove_of_mem_qubitsOf (mem_qubitsOf_ofArchitecture_iff.2 hmove)

theorem holder?_ofArchitecture (hr : (ofArchitecture a).holder? r = some h) : h = r :=
  holder?_ofPairs hr

theorem atRest_ofArchitecture (a : DynamicArchitecture) : (ofArchitecture a).AtRest :=
  fun _ _ => holder?_ofArchitecture

end Architecture

/-! ### The bank of a list of instructions -/

section Instructions

variable {instructions : List Instruction} {q r h : String}

theorem pairOfMove?_eq_some_iff {i : Instruction} {qubits : List String} :
    pairOfMove? i = some (r, qubits) ↔ ∃ q, i.action = .move q r ∧ qubits = [q] := by
  rw [pairOfMove?]
  split
  next p s hmove =>
      rw [hmove]
      constructor
      · intro h
        obtain ⟨rfl, rfl⟩ := Prod.mk.inj (Option.some.inj h)
        exact ⟨p, rfl, rfl⟩
      · intro h
        obtain ⟨q, heq, rfl⟩ := h
        obtain ⟨rfl, rfl⟩ := Action.move.inj heq
        rfl
  next hother =>
      constructor
      · intro h
        simp at h
      · intro h
        obtain ⟨q, heq, -⟩ := h
        exact absurd heq (hother q r)

theorem tracks_ofInstructions_iff : (ofInstructions instructions).tracks r = true ↔
    ∃ i ∈ instructions, ∃ q, i.action = .move q r := by
  rw [ofInstructions, tracks_ofPairs_iff]
  simp only [List.mem_filterMap, pairOfMove?_eq_some_iff]
  constructor
  · intro h
    obtain ⟨-, i, hi, q, hmove, -⟩ := h
    exact ⟨i, hi, q, hmove⟩
  · intro h
    obtain ⟨i, hi, q, hmove⟩ := h
    exact ⟨[q], i, hi, q, hmove, rfl⟩

theorem mem_qubitsOf_ofInstructions_iff : q ∈ (ofInstructions instructions).qubitsOf r ↔
    ∃ i ∈ instructions, i.action = .move q r := by
  rw [ofInstructions, mem_qubitsOf_ofPairs_iff]
  simp only [List.mem_filterMap, pairOfMove?_eq_some_iff]
  constructor
  · intro h
    obtain ⟨-, ⟨i, hi, p, hmove, rfl⟩, hq⟩ := h
    rw [List.mem_singleton] at hq
    exact ⟨i, hi, hq ▸ hmove⟩
  · intro h
    obtain ⟨i, hi, hmove⟩ := h
    exact ⟨[q], ⟨i, hi, q, hmove, rfl⟩, List.mem_cons_self⟩

theorem holder?_ofInstructions (hr : (ofInstructions instructions).holder? r = some h) : h = r :=
  holder?_ofPairs hr

theorem sound_ofInstructions (instructions : List Instruction) :
    (ofInstructions instructions).Sound :=
  sound_ofPairs _

/-- The bank is separated if no MOVE starts where another one ends. -/
theorem separated_ofInstructions_iff : (ofInstructions instructions).Separated ↔
    ∀ i ∈ instructions, ∀ j ∈ instructions, ∀ q r s,
      i.action = .move q r → j.action ≠ .move s q := by
  constructor
  · intro hb i hi j hj q r s hmove hmove'
    have hfree := hb.apart (mem_qubitsOf_ofInstructions_iff.2 ⟨i, hi, hmove⟩)
    rw [tracks_ofInstructions_iff.2 ⟨j, hj, s, hmove'⟩] at hfree
    exact absurd hfree (by decide)
  · intro h
    refine ⟨sound_ofInstructions instructions, fun {q r} hq => ?_⟩
    obtain ⟨i, hi, hmove⟩ := mem_qubitsOf_ofInstructions_iff.1 hq
    rw [← Bool.not_eq_true, tracks_ofInstructions_iff]
    intro htracks
    obtain ⟨j, hj, s, hmove'⟩ := htracks
    exact h i hi j hj q r s hmove hmove'

end Instructions

end StarQpu.ResonatorBank
