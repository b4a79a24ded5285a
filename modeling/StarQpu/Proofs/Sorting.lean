import Mathlib.Data.List.Sigma
import Mathlib.Data.List.Sort
import StarQpu.Architecture.Dynamic
import StarQpu.Architecture.Static
import StarQpu.Proofs.Locus.NaturalOrder

/-!
# StarQpu.Proofs.Sorting

**Sorting keeps what is sorted.** The natural order drops repetitions and nothing else, so the
components of an architecture and the loci of a gate are those that were listed, in strictly
ascending order; a list in such an order is determined by what it lists (`eq_of_ascending`), which
makes sorting canonical (`SortsSets`). The order of code points keeps repetitions too: two lists
agree once sorted exactly when one is a rearrangement of the other, which is how loci without a
direction are checked and how lists of loci are compared. What ties stays in the order in which it
was (`pairwise_mergeSort_stable`).
-/

namespace StarQpu

/-! ### Stability -/

/-- **Sorting is stable**: of two items that are as good as each other the one that was first stays
first. -/
theorem pairwise_mergeSort_stable {α : Type} {le : α → α → Bool} {S : α → α → Prop} {l : List α}
    (trans : ∀ x y z, le x y = true → le y z = true → le x z = true)
    (total : ∀ x y, (le x y || le y x) = true) (h : l.Pairwise S) :
    (l.mergeSort le).Pairwise fun x y => le x y = true ∧ (le y x = true → S x y) := by
  -- sorted together with their places in the list, items never tie
  rw [← List.mergeSort_zipIdx, List.pairwise_map]
  have hsorted := List.pairwise_mergeSort (List.zipIdxLE_trans trans) (List.zipIdxLE_total total)
    l.zipIdx
  have hnodup : (l.zipIdx.mergeSort (List.zipIdxLE le)).Nodup :=
    (List.mergeSort_perm _ _).nodup_iff.2 (List.Nodup.of_map _ (List.nodup_zipIdx_map_snd l))
  refine (hsorted.and hnodup).imp_of_mem ?_
  intro x y hx hy h'
  obtain ⟨hle, hne⟩ := h'
  obtain ⟨x, i⟩ := x
  obtain ⟨y, j⟩ := y
  rw [List.mem_mergeSort, List.mem_zipIdx_iff_getElem?, List.getElem?_eq_some_iff] at hx hy
  dsimp only at hx hy ⊢
  obtain ⟨hi, rfl⟩ := hx
  obtain ⟨hj, rfl⟩ := hy
  simp only [List.zipIdxLE] at hle
  split at hle
  next hxy =>
      refine ⟨hxy, fun hyx => ?_⟩
      rw [if_pos hyx, decide_eq_true_eq] at hle
      have hij : i ≠ j := by
        rintro rfl
        exact hne rfl
      exact List.pairwise_iff_getElem.1 h i j hi hj (lt_of_le_of_ne hle hij)
  next => cases hle

/-! ### Ascending lists -/

@[simp] theorem mem_dropRepeats {α : Type} [DecidableEq α] {a : α} {l : List α} :
    a ∈ dropRepeats l ↔ a ∈ l := by
  fun_induction dropRepeats l with
  | case1 => rfl
  | case2 => rfl
  | case3 b rest ih =>
      rw [ih, List.mem_cons, List.mem_cons, List.mem_cons]
      tauto
  | case4 b c rest hne ih => rw [List.mem_cons, ih, ← List.mem_cons]

section Ascending

variable {α : Type} {cmp : α → α → Ordering} [Std.TransCmp cmp] {l l' : List α}

theorem pairwise_mergeSort_isLE (l : List α) :
    (l.mergeSort fun a b => (cmp a b).isLE).Pairwise fun a b => (cmp a b).isLE := by
  refine List.pairwise_mergeSort ?_ ?_ l
  · intro a b c hab hbc
    exact Std.TransCmp.isLE_trans hab hbc
  · intro a b
    have hswap : cmp b a = (cmp a b).swap := Std.OrientedCmp.eq_swap
    rw [hswap]
    cases cmp a b <;> rfl

/-- Lists agree once sorted exactly when one is a rearrangement of the other. -/
theorem mergeSort_isLE_eq_iff [Std.LawfulEqCmp cmp] :
    (l.mergeSort fun a b => (cmp a b).isLE) = (l'.mergeSort fun a b => (cmp a b).isLE) ↔
      l.Perm l' := by
  constructor
  · intro h
    exact (List.mergeSort_perm l _).symm.trans (h ▸ List.mergeSort_perm l' _)
  · intro h
    refine List.Perm.eq_of_pairwise ?_ (pairwise_mergeSort_isLE l) (pairwise_mergeSort_isLE l')
      ((List.mergeSort_perm l _).trans (h.trans (List.mergeSort_perm l' _).symm))
    intro a b _ _ hab hba
    exact Std.LawfulEqCmp.compare_eq_iff_eq.1 (Std.OrientedCmp.isLE_antisymm hab hba)

/-- Two ascending lists with the same items are the same list. -/
theorem eq_of_ascending (h : l.Pairwise fun a b => cmp a b = .lt)
    (h' : l'.Pairwise fun a b => cmp a b = .lt) (hmem : ∀ a, a ∈ l ↔ a ∈ l') : l = l' := by
  have hirrefl : Std.Irrefl fun a b => cmp a b = .lt := by
    refine ⟨fun a hlt => ?_⟩
    have hself : cmp a a = .eq := Std.ReflCmp.compare_self
    rw [hself] at hlt
    exact absurd hlt (by decide)
  have hantisymm : Std.Antisymm fun a b => cmp a b = .lt :=
    ⟨fun a b hlt hgt => absurd hgt (Std.OrientedCmp.not_lt_of_lt hlt)⟩
  exact h.eq_of_mem_iff h' hmem

/-- What is left of a sorted list without its repetitions ascends strictly. -/
theorem pairwise_dropRepeats [Std.LawfulEqCmp cmp] [DecidableEq α]
    (h : l.Pairwise fun a b => (cmp a b).isLE) :
    (dropRepeats l).Pairwise fun a b => cmp a b = .lt := by
  fun_induction dropRepeats l with
  | case1 => exact List.Pairwise.nil
  | case2 a => exact List.pairwise_singleton _ a
  | case3 b rest ih => exact ih h.tail
  | case4 a b rest hne ih =>
      obtain ⟨hfirst, hrest⟩ := List.pairwise_cons.1 h
      have hlt : cmp a b = .lt := by
        have hle := hfirst b List.mem_cons_self
        cases hcmp : cmp a b with
        | lt => rfl
        | eq => exact absurd (Std.LawfulEqCmp.eq_of_compare hcmp) hne
        | gt =>
            rw [hcmp] at hle
            exact absurd hle (by decide)
      refine List.pairwise_cons.2 ⟨fun c hc => ?_, ih hrest⟩
      rcases List.mem_cons.1 (mem_dropRepeats.1 hc) with rfl | hc
      · exact hlt
      · exact Std.TransCmp.lt_of_lt_of_isLE hlt ((List.pairwise_cons.1 hrest).1 c hc)

/-- A way of sorting that keeps of a list just the set of its items. -/
structure SortsSets {α : Type} (cmp : α → α → Ordering) (sort : List α → List α) : Prop where
  ascending : ∀ l, (sort l).Pairwise fun a b => cmp a b = .lt
  mem_iff : ∀ l a, a ∈ sort l ↔ a ∈ l
  eq_iff : ∀ l l', sort l = sort l' ↔ ∀ a, a ∈ l ↔ a ∈ l'
  idempotent : ∀ l, sort (sort l) = sort l

/-- All of it follows from the order of the sorted list and from what it lists. -/
theorem SortsSets.of_ascending {sort : List α → List α}
    (ascending : ∀ l, (sort l).Pairwise fun a b => cmp a b = .lt)
    (mem_iff : ∀ l a, a ∈ sort l ↔ a ∈ l) : SortsSets cmp sort where
  ascending := ascending
  mem_iff := mem_iff
  eq_iff := by
    intro l l'
    constructor
    · intro h a
      rw [← mem_iff l, h, mem_iff l']
    · intro h
      exact eq_of_ascending (ascending l) (ascending l') fun a => by rw [mem_iff, h, ← mem_iff l']
  idempotent := fun l => eq_of_ascending (ascending _) (ascending l) (mem_iff (sort l))

end Ascending

/-! ### The natural order -/

@[simp] theorem mem_sortComponents {name : String} {names : List String} :
    name ∈ sortComponents names ↔ name ∈ names := by
  rw [sortComponents, mem_dropRepeats, List.mem_mergeSort]

@[simp] theorem mem_sortLoci {locus : List String} {loci : List (List String)} :
    locus ∈ sortLoci loci ↔ locus ∈ loci := by
  rw [sortLoci, mem_dropRepeats, List.mem_mergeSort]

/-- Components in natural order ascend strictly, and so do loci. -/
theorem sortComponents_pairwise (names : List String) :
    (sortComponents names).Pairwise fun a b => compareNames a b = .lt :=
  pairwise_dropRepeats (pairwise_mergeSort_isLE names)

theorem sortLoci_pairwise (loci : List (List String)) :
    (sortLoci loci).Pairwise fun l l' => compareLoci l l' = .lt :=
  pairwise_dropRepeats (pairwise_mergeSort_isLE loci)

theorem sortComponents_sortsSets : SortsSets compareNames sortComponents :=
  .of_ascending sortComponents_pairwise fun _ _ => mem_sortComponents

theorem sortLoci_sortsSets : SortsSets compareLoci sortLoci :=
  .of_ascending sortLoci_pairwise fun _ _ => mem_sortLoci

/-- **Sorting in natural order is canonical.** What components and loci are sorted to depends only
on which ones are listed, not on how often or in what order. So the loci of a gate depend only on
those that any of its implementations is calibrated for. -/
theorem sorting_canonical :
    SortsSets compareNames sortComponents ∧ SortsSets compareLoci sortLoci ∧
    (∀ g : GateInfo, (g.loci.Pairwise fun l l' => compareLoci l l' = .lt) ∧
      ∀ locus, locus ∈ g.loci ↔ ∃ loci ∈ g.implementations.values, locus ∈ loci) ∧
    ∀ g g' : GateInfo, g.loci = g'.loci ↔
      ∀ locus, (∃ loci ∈ g.implementations.values, locus ∈ loci) ↔
        ∃ loci ∈ g'.implementations.values, locus ∈ loci := by
  refine ⟨sortComponents_sortsSets, sortLoci_sortsSets, fun g => ⟨?_, fun locus => ?_⟩,
    fun g g' => ?_⟩
  · exact sortLoci_pairwise g.allLoci
  · exact mem_sortLoci.trans List.mem_flatten
  · simp only [← List.mem_flatten]
    exact sortLoci_sortsSets.eq_iff g.allLoci g'.allLoci

/-! ### The order of code points -/

/-- Names agree once sorted exactly when they are the same up to their order. -/
theorem sortNames_eq_iff {names others : List String} :
    sortNames names = sortNames others ↔ names.Perm others :=
  mergeSort_isLE_eq_iff

theorem sortPlainLoci_eq_iff {loci others : List Locus} :
    sortPlainLoci loci = sortPlainLoci others ↔ loci.Perm others :=
  mergeSort_isLE_eq_iff

end StarQpu
