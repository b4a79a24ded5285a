import StarQpu.Proofs.Bank.Setup

/-!
# StarQpu.Proofs.Bank.Candidates

**Which pairs are candidates.** The ranked pairs are the pairs of a resonator and one of the given
qubits that has a MOVE to it, the ones with most controlled-Z gates to come in front; equally good
ones stay in order (`rankedPairs_stable`). Choosing fails only when there is no such pair.
-/

namespace StarQpu.ResonatorBank

variable {b : ResonatorBank} {q r : String} {qubits : List String} {lookahead : List Instruction}

theorem mem_pairs_iff (nodup : b.names.Nodup) :
    (r, q) ∈ b.pairs qubits ↔ q ∈ qubits ∧ q ∈ b.qubitsOf r := by
  rw [pairs, reachable, List.flatMap_map]
  simp only [List.mem_flatMap, List.mem_map, mem_addMissing_iff, List.not_mem_nil, false_or,
    List.mem_filter, List.contains_iff_mem, mem_qubitsOf_iff nodup]
  constructor
  · intro h
    obtain ⟨p, hp, s, ⟨t, ⟨ht, hq⟩, rfl⟩, heq⟩ := h
    obtain ⟨rfl, rfl⟩ := Prod.mk.inj heq
    exact ⟨hp, t, ht, rfl, hq⟩
  · intro h
    obtain ⟨hq, t, ht, rfl, hmem⟩ := h
    exact ⟨q, hq, t.name, ⟨t, ⟨ht, hmem⟩, rfl⟩, rfl⟩

/-- Ranking loses no pair and makes none up. -/
theorem rankedPairs_perm (b : ResonatorBank) (qubits : List String)
    (lookahead : List Instruction) : (b.rankedPairs qubits lookahead).Perm (b.pairs qubits) := by
  have hperm := (List.mergeSort_perm ((b.pairs qubits).map fun p => (czScore p.2 lookahead, p))
    fun x y => decide (y.1 ≤ x.1)).map (·.2)
  rw [List.map_map] at hperm
  exact hperm.trans (List.Perm.of_eq (List.map_id _))

theorem mem_rankedPairs_iff (nodup : b.names.Nodup) :
    (r, q) ∈ b.rankedPairs qubits lookahead ↔ q ∈ qubits ∧ q ∈ b.qubitsOf r := by
  rw [(rankedPairs_perm b qubits lookahead).mem_iff, mem_pairs_iff nodup]

/-- Earlier pairs have at least as many controlled-Z gates to come, and pairs with as many are in
the order that they were in. -/
theorem rankedPairs_stable {S : String × String → String × String → Prop}
    (h : (b.pairs qubits).Pairwise S) : (b.rankedPairs qubits lookahead).Pairwise fun x y =>
      czScore y.2 lookahead ≤ czScore x.2 lookahead ∧
        (czScore x.2 lookahead = czScore y.2 lookahead → S x y) := by
  rw [rankedPairs, List.pairwise_map]
  have hscored : ((b.pairs qubits).map fun p => (czScore p.2 lookahead, p)).Pairwise
      fun x y => S x.2 y.2 := List.pairwise_map.2 h
  have hsorted := @pairwise_mergeSort_stable _ (fun x y => decide (y.1 ≤ x.1)) _ _
    (by
      intro x y z hxy hyz
      rw [decide_eq_true_eq] at hxy hyz ⊢
      exact Nat.le_trans hyz hxy)
    (by
      intro x y
      rw [Bool.or_eq_true, decide_eq_true_eq, decide_eq_true_eq]
      exact Nat.le_total _ _)
    hscored
  refine hsorted.imp_of_mem ?_
  intro x y hx hy hxy
  rw [List.mem_mergeSort, List.mem_map] at hx hy
  obtain ⟨p, -, rfl⟩ := hx
  obtain ⟨p', -, rfl⟩ := hy
  simp only [decide_eq_true_eq] at hxy
  exact ⟨hxy.1, fun heq => hxy.2 heq.le⟩

/-- Earlier pairs have at least as many controlled-Z gates to come. -/
theorem rankedPairs_pairwise (b : ResonatorBank) (qubits : List String)
    (lookahead : List Instruction) : (b.rankedPairs qubits lookahead).Pairwise
      fun x y => czScore y.2 lookahead ≤ czScore x.2 lookahead :=
  (rankedPairs_stable (List.pairwise_of_forall fun _ _ => trivial)).imp And.left

/-- Pairs that are in order already stay in order. -/
theorem rankedPairs_of_pairwise (sorted : (b.pairs qubits).Pairwise
      fun x y => czScore y.2 lookahead ≤ czScore x.2 lookahead) :
    b.rankedPairs qubits lookahead = b.pairs qubits := by
  rw [rankedPairs, List.mergeSort_of_pairwise, List.map_map]
  · exact List.map_id _
  · rw [List.pairwise_map]
    simpa using sorted

theorem choose_eq_ok_iff {candidates : List (String × String)} :
    b.choose qubits lookahead = .ok candidates ↔
      candidates = b.rankedPairs qubits lookahead ∧ candidates ≠ [] := by
  rw [choose]
  cases b.rankedPairs qubits lookahead with
  | nil =>
      constructor
      · intro h
        simp at h
      · intro h
        obtain ⟨h, hne⟩ := h
        exact absurd h hne
  | cons p ps =>
      constructor
      · intro h
        rw [← Except.ok.inj h]
        exact ⟨rfl, List.cons_ne_nil p ps⟩
      · intro h
        obtain ⟨rfl, -⟩ := h
        rfl

end StarQpu.ResonatorBank
