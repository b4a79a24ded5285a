import Mathlib.Data.List.Infix
import StarQpu.Locus.Key

/-!
# StarQpu.Proofs.Locus.Key

**Locus keys.** A key says which locus it stands for and that locus is written by the same key again
(`key_ofKey`), so loci that were read from different keys are different. The converse fails: a name
may hold the two underscores that separate names, or end in one that is taken for half of them. The
loci that are read as they were written are those whose names can be told apart (`ofKey_key_iff`),
as the parts of a text that was cut always can (`cuttable_cut`).
-/

namespace StarQpu.Locus

variable {part next rest : List Char} {parts : List (List Char)} {l : Locus}

/-! ### Keys -/

theorem intercalate_extendFirst (sep : List Char) (c : Char) (parts : List (List Char)) :
    sep.intercalate (extendFirst c parts) = c :: sep.intercalate parts := by
  cases parts with
  | nil => rfl
  | cons part rest => cases rest <;> rfl

theorem cut_ne_nil (cs : List Char) : cut cs ≠ [] := by
  fun_cases cut cs with
  | case1 => simp
  | case2 rest => simp
  | case3 c rest =>
      unfold extendFirst
      split <;> simp

/-- Cutting loses nothing but the separators. -/
theorem intercalate_cut (cs : List Char) : ['_', '_'].intercalate (cut cs) = cs := by
  fun_induction cut cs with
  | case1 => rfl
  | case2 rest ih =>
      obtain ⟨part, parts, hparts⟩ := List.exists_cons_of_ne_nil (cut_ne_nil rest)
      rw [hparts] at ih ⊢
      rw [List.intercalate_cons_cons, ih]
      rfl
  | case3 c rest _ ih => rw [intercalate_extendFirst, ih]

theorem map_toList_ofKey {k : String} (h : k ≠ "") :
    (ofKey k).map String.toList = cut k.toList := by
  rw [ofKey, if_neg h, List.map_map]
  have hsame : String.toList ∘ String.ofList = id := funext fun _ => String.toList_ofList
  rw [hsame, List.map_id]

theorem toList_key (l : Locus) : (key l).toList = ['_', '_'].intercalate (l.map String.toList) :=
  String.toList_intercalate

/-- The locus of a key has that key. -/
theorem key_ofKey (k : String) : key (ofKey k) = k := by
  by_cases hempty : k = ""
  · rw [ofKey, if_pos hempty, hempty]
    rfl
  · apply String.toList_injective
    rw [toList_key, map_toList_ofKey hempty, intercalate_cut]

theorem ofKey_injective : Function.Injective ofKey :=
  Function.LeftInverse.injective key_ofKey

/-! ### Parts that can be told apart -/

/-- The parts that a cut leaves: none has two underscores in a row, and only the last one may end in
an underscore, which would else be taken for half of the separator. -/
@[mk_iff]
structure Cuttable (parts : List (List Char)) : Prop where
  whole : ∀ part ∈ parts, ¬ ['_', '_'] <:+: part
  closed : ∀ part ∈ parts.dropLast, ¬ ['_'] <:+ part

theorem cuttable_singleton_iff : Cuttable [part] ↔ ¬ ['_', '_'] <:+: part := by
  simp [cuttable_iff]

theorem cuttable_cons_cons_iff : Cuttable (part :: next :: parts) ↔
    (¬ ['_', '_'] <:+: part ∧ ¬ ['_'] <:+ part) ∧ Cuttable (next :: parts) := by
  simp only [cuttable_iff, List.dropLast_cons_cons, List.forall_mem_cons]
  tauto

theorem cuttable_map_toList_iff : Cuttable (l.map String.toList) ↔
    (∀ name ∈ l, ¬ ['_', '_'] <:+: name.toList) ∧ ∀ name ∈ l.dropLast, ¬ ['_'] <:+ name.toList := by
  rw [cuttable_iff, ← List.map_dropLast, List.forall_mem_map, List.forall_mem_map]

/-- A character other than the first half of a separator stays in its part. -/
theorem cut_cons {c : Char} (h : ∀ rest', c = '_' → rest ≠ '_' :: rest') :
    cut (c :: rest) = extendFirst c (cut rest) := by
  rw [cut]
  exact h

/-- A text without a separator is one part. -/
theorem cut_eq_singleton (whole : ¬ ['_', '_'] <:+: part) : cut part = [part] := by
  induction part with
  | nil => rfl
  | cons c rest ih =>
      rw [List.infix_cons_iff, not_or] at whole
      rw [cut_cons, ih whole.2]
      · rfl
      · rintro rest' rfl rfl
        exact whole.1 ⟨rest', rfl⟩

/-- The first separator ends the first part. -/
theorem cut_append (whole : ¬ ['_', '_'] <:+: part) (closed : ¬ ['_'] <:+ part) :
    cut (part ++ '_' :: '_' :: rest) = part :: cut rest := by
  induction part with
  | nil => rfl
  | cons c part ih =>
      rw [List.infix_cons_iff, not_or] at whole
      rw [List.suffix_cons_iff, not_or] at closed
      rw [List.cons_append, cut_cons, ih whole.2 closed.2]
      · rfl
      · -- a pair of underscores would lie in the part, or its first half would end it
        rintro rest' rfl hrest
        cases part with
        | nil => exact closed.1 rfl
        | cons d part =>
            obtain ⟨rfl, -⟩ := List.cons.inj hrest
            exact whole.1 ⟨part, rfl⟩

/-- **Cutting undoes joining** where the parts can be told apart. -/
theorem cut_intercalate (hparts : Cuttable parts) (hne : parts ≠ []) :
    cut (['_', '_'].intercalate parts) = parts := by
  induction parts with
  | nil => exact absurd rfl hne
  | cons part parts ih =>
      cases parts with
      | nil =>
          rw [List.intercalate_singleton]
          exact cut_eq_singleton (cuttable_singleton_iff.1 hparts)
      | cons next parts =>
          obtain ⟨⟨whole, closed⟩, hrest⟩ := cuttable_cons_cons_iff.1 hparts
          have hcut : cut (part ++ '_' :: '_' :: ['_', '_'].intercalate (next :: parts)) =
              part :: cut (['_', '_'].intercalate (next :: parts)) := cut_append whole closed
          rw [ih hrest (List.cons_ne_nil _ _)] at hcut
          rw [List.intercalate_cons_cons, List.append_assoc]
          exact hcut

/-- A character in front of the first part, if it begins no separator. -/
theorem Cuttable.extendFirst {c : Char} (h : Cuttable (part :: parts))
    (alone : c = '_' → ∀ rest', ['_', '_'].intercalate (part :: parts) ≠ '_' :: rest') :
    Cuttable (extendFirst c (part :: parts)) := by
  have hwhole : ¬ ['_', '_'] <:+: part → ¬ ['_', '_'] <:+: c :: part := by
    intro hpart hmem
    rcases List.infix_cons_iff.1 hmem with ⟨rest', hrest⟩ | hmem
    · -- the part would begin with the other half
      obtain ⟨hc, rfl⟩ := List.cons.inj hrest
      cases parts with
      | nil => exact alone hc.symm rest' (by simp)
      | cons next parts => exact alone hc.symm _ (by simp [List.intercalate_cons_cons]; rfl)
    · exact hpart hmem
  cases parts with
  | nil => exact cuttable_singleton_iff.2 (hwhole (cuttable_singleton_iff.1 h))
  | cons next parts =>
      obtain ⟨⟨whole, closed⟩, hrest⟩ := cuttable_cons_cons_iff.1 h
      refine cuttable_cons_cons_iff.2 ⟨⟨hwhole whole, fun hend => ?_⟩, hrest⟩
      rcases List.suffix_cons_iff.1 hend with heq | hend
      · -- the separator behind an empty part begins with the other half
        obtain ⟨hc, rfl⟩ := List.cons.inj heq
        exact alone hc.symm _ (by rw [List.intercalate_cons_cons]; rfl)
      · exact closed hend

/-- Cutting leaves parts that can be told apart. -/
theorem cuttable_cut (cs : List Char) : Cuttable (cut cs) := by
  fun_induction cut cs with
  | case1 => exact cuttable_singleton_iff.2 (by simp)
  | case2 rest ih =>
      obtain ⟨part, parts, hparts⟩ := List.exists_cons_of_ne_nil (cut_ne_nil rest)
      rw [hparts] at ih ⊢
      exact cuttable_cons_cons_iff.2 ⟨by simp, ih⟩
  | case3 c rest alone ih =>
      obtain ⟨part, parts, hparts⟩ := List.exists_cons_of_ne_nil (cut_ne_nil rest)
      have hjoin := intercalate_cut rest
      rw [hparts] at ih hjoin ⊢
      exact ih.extendFirst fun hc rest' heq => alone rest' hc (hjoin.symm.trans heq)

theorem cut_intercalate_iff (hne : parts ≠ []) :
    cut (['_', '_'].intercalate parts) = parts ↔ Cuttable parts := by
  constructor
  · intro h
    exact h ▸ cuttable_cut _
  · intro h
    exact cut_intercalate h hne

/-- A locus is written as the empty key if it has nothing to write. -/
theorem key_eq_empty_iff : key l = "" ↔ l = [] ∨ l = [""] := by
  rcases l with _ | ⟨name, _ | ⟨next, rest⟩⟩
  · simp [key]
  · simp [key]
  · simp [key, String.intercalate_cons_cons]

/-- **The loci that are read as they were written**: the one that consists of an empty name is read
as the empty locus, and in all others the names have to be parts that can be told apart. -/
theorem ofKey_key_iff : ofKey (key l) = l ↔ l ≠ [""] ∧ Cuttable (l.map String.toList) := by
  by_cases hkey : key l = ""
  · rw [ofKey, if_pos hkey]
    rcases key_eq_empty_iff.1 hkey with rfl | rfl
    · exact ⟨fun _ => ⟨by simp, ⟨by simp, by simp⟩⟩, fun _ => rfl⟩
    · simp
  · obtain ⟨hne, hname⟩ := not_or.1 (mt key_eq_empty_iff.2 hkey)
    have hparts : l.map String.toList ≠ [] := by simpa using hne
    calc ofKey (key l) = l
        ↔ (ofKey (key l)).map String.toList = l.map String.toList :=
          (List.map_inj_right fun _ _ => String.toList_injective).symm
      _ ↔ Cuttable (l.map String.toList) := by
          rw [map_toList_ofKey hkey, toList_key, cut_intercalate_iff hparts]
      _ ↔ l ≠ [""] ∧ Cuttable (l.map String.toList) := (and_iff_right hname).symm

end StarQpu.Locus
