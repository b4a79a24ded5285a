import Mathlib.Data.Fintype.Fin
import StarQpu.Proofs.Sorting
import StarQpu.Proofs.Table

/-!
# StarQpu.Proofs.Architecture.Comparison

**What the comparison of two tables of operations decides.** The loci of an operation on several
components have to be matched one to one (`Matched`), a locus without a direction with any of its
rearrangements; of the loci of another operation only the set counts. The comparison sorts instead
of looking for partners, which comes to the same because two lists agree once sorted in the chosen
form exactly when their items can be matched in it (`matched_iff_perm_map`). So it is an equivalence
relation, and the order in which loci are listed makes no difference (`compareOperations_exact`).
-/

namespace StarQpu

/-! ### Matching -/

section Matching

variable {α β : Type} {l l' : List α}

/-- Each item of one list has a partner in the other, a different one for each and with none left
over, such that the relation holds between partners. -/
def Matched (R : α → α → Prop) (l l' : List α) : Prop :=
  ∃ partner : Fin l.length ≃ Fin l'.length, ∀ i, R (l.get i) (l'.get (partner i))

theorem card_get_eq [DecidableEq β] (f : α → β) (l : List α) (b : β) :
    Fintype.card {i : Fin l.length // f (l.get i) = b} = (l.map f).count b := by
  rw [Fintype.card_subtype]
  induction l with
  | nil => rfl
  | cons a l ih =>
      have hsplit := Fin.card_filter_univ_succ' fun i : Fin (l.length + 1) => f ((a :: l).get i) = b
      rw [List.map_cons, List.count_cons, ← ih, Nat.add_comm]
      simp only [beq_iff_eq]
      exact hsplit

/-- **Items with the same image can be matched** exactly when the images are the same up to their
order. -/
theorem matched_iff_perm_map [DecidableEq β] {f : α → β} :
    Matched (fun a b => f a = f b) l l' ↔ (l.map f).Perm (l'.map f) := by
  constructor
  · intro h
    obtain ⟨partner, hpartner⟩ := h
    refine List.perm_iff_count.2 fun b => ?_
    rw [← card_get_eq, ← card_get_eq]
    refine Fintype.card_congr (partner.subtypeEquiv fun i => ?_)
    rw [hpartner i]
  · intro h
    -- each image is that of as many items on both sides, so the matching is put together from these
    have hcard (b : β) : Fintype.card {i : Fin l.length // f (l.get i) = b} =
        Fintype.card {i : Fin l'.length // f (l'.get i) = b} := by
      rw [card_get_eq, card_get_eq, h.count_eq]
    let partners (b : β) := Fintype.equivOfCardEq (hcard b)
    exact ⟨Equiv.ofFiberEquiv partners, fun i => (Equiv.ofFiberEquiv_map partners i).symm⟩

end Matching

/-! ### The loci of one operation -/

section Loci

variable {name : String} {directed : Bool} {loci others : List Locus}

/-- Are the loci the same? Without a direction the order of the components does not count. -/
def SameLocus (directed : Bool) (locus other : Locus) : Prop :=
  if directed then locus = other else locus.Perm other

/-- Are the loci of an operation the same up to presentation? -/
def SameLociOf (name : String) (loci others : List Locus) : Prop :=
  if isMultiQubit name then Matched (SameLocus (isDirected name)) loci others
  else ∀ locus, locus ∈ loci ↔ locus ∈ others

/-- The form of a locus that is compared. -/
def comparedForm (directed : Bool) (locus : Locus) : Locus :=
  if directed then locus else sortNames locus

theorem sameLocus_eq : SameLocus directed =
    fun locus other => comparedForm directed locus = comparedForm directed other := by
  funext locus other
  cases directed with
  | false => exact propext sortNames_eq_iff.symm
  | true => rfl

theorem normalizedLoci_eq :
    normalizedLoci directed loci = sortPlainLoci (loci.map (comparedForm directed)) := by
  cases directed with
  | false => rfl
  | true => exact congrArg sortPlainLoci loci.map_id.symm

theorem normalizedLoci_eq_iff : normalizedLoci directed loci = normalizedLoci directed others ↔
    Matched (SameLocus directed) loci others := by
  rw [normalizedLoci_eq, normalizedLoci_eq, sortPlainLoci_eq_iff, sameLocus_eq,
    matched_iff_perm_map]

theorem sameLoci_iff : sameLoci loci others = true ↔ ∀ locus, locus ∈ loci ↔ locus ∈ others := by
  rw [sameLoci, Bool.and_eq_true, List.all_eq_true, List.all_eq_true]
  simp only [List.contains_iff_mem]
  exact ⟨fun h locus => ⟨h.1 locus, h.2 locus⟩, fun h => ⟨fun locus => (h locus).1,
    fun locus => (h locus).2⟩⟩

theorem lociAgree_iff : lociAgree name loci others = true ↔ SameLociOf name loci others := by
  rw [lociAgree, SameLociOf]
  split
  · rw [beq_iff_eq, normalizedLoci_eq_iff]
  · exact sameLoci_iff

theorem lociAgree_equivalence (name : String) :
    Equivalence fun loci others => lociAgree name loci others = true := by
  by_cases hmulti : isMultiQubit name = true
  · simp only [lociAgree, hmulti, if_true, beq_iff_eq]
    exact ⟨fun _ => rfl, Eq.symm, Eq.trans⟩
  · simp only [lociAgree, hmulti, Bool.false_eq_true, if_false, sameLoci_iff]
    exact ⟨fun _ _ => Iff.rfl, fun h locus => (h locus).symm,
      fun h h' locus => (h locus).trans (h' locus)⟩

/-- The order in which loci are listed makes no difference. -/
theorem lociAgree_of_perm (h : loci.Perm others) : lociAgree name loci others = true := by
  rw [lociAgree]
  split
  · have hsorted : normalizedLoci (isDirected name) loci =
        normalizedLoci (isDirected name) others := by
      rw [normalizedLoci_eq, normalizedLoci_eq, sortPlainLoci_eq_iff]
      exact h.map (comparedForm (isDirected name))
    rw [hsorted, beq_self_eq_true]
  · exact sameLoci_iff.2 fun _ => h.mem_iff

end Loci

/-! ### Tables -/

section Tables

variable {R : String → List Locus → List Locus → Prop} {a b : OperationTable}

/-- Two tables have the same names, and the loci that they file under each name are related. -/
structure Alike (R : String → List Locus → List Locus → Prop) (a b : OperationTable) : Prop where
  names : ∀ name, a.contains name = true ↔ b.contains name = true
  loci : ∀ {name loci others}, a.get? name = some loci → b.get? name = some others →
    R name loci others

theorem keys_eq_iff : a.keys = b.keys ↔
    ∀ name, a.contains name = true ↔ b.contains name = true := by
  simp only [← Table.mem_keys_iff]
  have hascending (t : OperationTable) : t.keys.Pairwise fun k k' => compare k k' = .lt :=
    List.pairwise_map.2 t.ordered
  constructor
  · intro h name
    rw [h]
  · intro h
    exact eq_of_ascending (hascending a) (hascending b) h

theorem compareOperations_iff : compareOperations a b = true ↔
    Alike (fun name loci others => lociAgree name loci others = true) a b := by
  rw [compareOperations, Bool.and_eq_true, beq_iff_eq, keys_eq_iff, List.all_eq_true]
  constructor
  · intro h
    refine ⟨h.1, fun {name loci others} hloci hothers => ?_⟩
    have hagree := h.2 (name, loci) (Table.mem_entries_iff.2 hloci)
    simpa only [hothers] using hagree
  · intro h
    refine ⟨h.names, fun e he => ?_⟩
    obtain ⟨name, loci⟩ := e
    have hloci := Table.mem_entries_iff.1 he
    obtain ⟨others, hothers⟩ := Table.contains_iff.1
      ((h.names name).1 (Table.contains_iff.2 ⟨loci, hloci⟩))
    simpa only [hothers] using h.loci hloci hothers

theorem Alike.equivalence (hR : ∀ name, Equivalence (R name)) : Equivalence (Alike R) where
  refl a := by
    refine ⟨fun _ => Iff.rfl, fun {name loci others} hloci hothers => ?_⟩
    rw [hloci, Option.some.injEq] at hothers
    rw [hothers]
    exact (hR name).refl others
  symm h := ⟨fun name => (h.names name).symm,
    fun {name _ _} hloci hothers => (hR name).symm (h.loci hothers hloci)⟩
  trans h h' := by
    refine ⟨fun name => (h.names name).trans (h'.names name), fun {name loci _} hloci hothers => ?_⟩
    -- the table in between has the name too
    obtain ⟨between, hbetween⟩ := Table.contains_iff.1
      ((h.names name).1 (Table.contains_iff.2 ⟨loci, hloci⟩))
    exact (hR name).trans (h.loci hloci hbetween) (h'.loci hbetween hothers)

theorem Alike.empty : Alike R .empty .empty :=
  ⟨fun _ => Iff.rfl, fun hloci => by rw [Table.get?_empty] at hloci; cases hloci⟩

theorem Alike.insert (h : Alike R a b) {name : String} {loci others : List Locus}
    (hR : R name loci others) : Alike R (a.insert name loci) (b.insert name others) where
  names other := by
    have hold := h.names other
    rw [Table.contains_iff, Table.contains_iff] at hold ⊢
    rw [Table.get?_insert, Table.get?_insert]
    split
    · exact ⟨fun _ => ⟨_, rfl⟩, fun _ => ⟨_, rfl⟩⟩
    · exact hold
  loci {other found found'} hloci hothers := by
    rw [Table.get?_insert] at hloci hothers
    split at hloci
    next heq =>
        rw [if_pos heq] at hothers
        rw [heq, ← Option.some.inj hloci, ← Option.some.inj hothers]
        exact hR
    next hne =>
        rw [if_neg hne] at hothers
        exact h.loci hloci hothers

theorem compareOperations_equivalence :
    Equivalence fun a b => compareOperations a b = true := by
  simp only [compareOperations_iff]
  exact Alike.equivalence lociAgree_equivalence

end Tables

/-- **The comparison decides equality up to presentation.** Two tables pass exactly when they have
the same operations, the loci of each the same up to presentation. This is an equivalence relation,
and rearranging the loci of any operations on either side changes nothing. -/
theorem compareOperations_exact :
    (∀ a b, compareOperations a b = true ↔ Alike SameLociOf a b) ∧
    Equivalence (fun a b => compareOperations a b = true) ∧
    ∀ {a a' b b' : OperationTable}, Alike (fun _ => List.Perm) a a' →
      Alike (fun _ => List.Perm) b b' → compareOperations a b = compareOperations a' b' := by
  have hpass {a a' : OperationTable} (h : Alike (fun _ => List.Perm) a a') :
      compareOperations a a' = true :=
    compareOperations_iff.2 ⟨h.names, fun hloci hothers => lociAgree_of_perm (h.loci hloci hothers)⟩
  have hequivalence := compareOperations_equivalence
  refine ⟨fun a b => ?_, hequivalence, fun {a a' b b'} ha hb => Bool.eq_iff_iff.2 ⟨fun h => ?_,
    fun h => ?_⟩⟩
  · simp only [compareOperations_iff, lociAgree_iff]
  · exact hequivalence.trans (hequivalence.symm (hpass ha)) (hequivalence.trans h (hpass hb))
  · exact hequivalence.trans (hpass ha) (hequivalence.trans h (hequivalence.symm (hpass hb)))

/-- One coupling is listed twice, once in each direction, and the lists are turned round. -/
theorem compareOperations_exact_reversed :
    let couplings := [["Q1", "Q2"], ["Q2", "Q1"], ["Q2", "Q3"]]
    let qubits := [["Q1"], ["Q2"]]
    let a : OperationTable := (Table.empty.insert "cz" couplings).insert "prx" qubits
    let b : OperationTable :=
      (Table.empty.insert "cz" couplings.reverse).insert "prx" qubits.reverse
    Alike (fun _ => List.Perm) a b ∧ Alike (fun _ => List.Perm) a a ∧
      compareOperations a a = compareOperations b a := by
  intro couplings qubits a b
  have hreversed : Alike (fun _ => List.Perm) a b :=
    (Alike.empty.insert couplings.reverse_perm.symm).insert qubits.reverse_perm.symm
  have hself : Alike (fun _ => List.Perm) a a :=
    (Alike.equivalence fun _ => List.Perm.eqv Locus).refl a
  exact ⟨hreversed, hself, compareOperations_exact.2.2 hreversed hself⟩

end StarQpu
