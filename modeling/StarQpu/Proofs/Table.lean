import Mathlib.Data.List.Nodup
import StarQpu.Table

/-!
# StarQpu.Proofs.Table

**What a table answers.** The entries of a table and its answers say the same, because no key occurs
twice (`mem_entries_iff`). From there on a table is described by `get?` alone: one equation for each
way of making it, and nothing below looks at the order of the entries again.
-/

namespace StarQpu.Table

variable {κ α β : Type} [Ord κ] [BEq κ]

@[simp] theorem get?_empty (k : κ) : (empty : Table κ α).get? k = none := rfl

theorem contains_iff {t : Table κ α} {k : κ} : t.contains k ↔ ∃ v, t.get? k = some v := by
  rw [contains, Option.isSome_iff_exists]

variable [LawfulBEq κ]

/-! ### Entries and answers -/

omit [Ord κ] in
theorem mem_of_lookup {l : List (κ × α)} {k : κ} {v : α} (h : l.lookup k = some v) :
    (k, v) ∈ l := by
  obtain ⟨pre, post, hsplit, -⟩ := List.lookup_eq_some_iff.1 h
  rw [hsplit]
  exact List.mem_append_right _ List.mem_cons_self

theorem mem_entries_of_get? {t : Table κ α} {k : κ} {v : α} (h : t.get? k = some v) :
    (k, v) ∈ t.entries :=
  mem_of_lookup h

theorem mem_keys_of_get? {t : Table κ α} {k : κ} {v : α} (h : t.get? k = some v) : k ∈ t.keys :=
  List.mem_map.2 ⟨(k, v), mem_entries_of_get? h, rfl⟩

omit [Ord κ] in
/-- In a list of entries with distinct keys the first entry of a key is the only one. -/
theorem lookup_of_nodup {l : List (κ × α)} (distinct : (l.map (·.1)).Nodup) {k : κ} {v : α}
    (h : (k, v) ∈ l) : l.lookup k = some v := by
  induction l with
  | nil => simp at h
  | cons head rest ih =>
      obtain ⟨first, later⟩ := List.nodup_cons.1 distinct
      rcases List.mem_cons.1 h with rfl | hrest
      · simp
      · obtain ⟨k', v'⟩ := head
        have hne : k ≠ k' := fun heq => first (List.mem_map.2 ⟨(k, v), hrest, heq⟩)
        rw [List.lookup_cons, beq_false_of_ne hne]
        exact ih later hrest

omit [BEq κ] [LawfulBEq κ] in
/-- The keys of a table ascend strictly, so they are distinct. -/
theorem nodup_keys [Std.TransOrd κ] (t : Table κ α) : (t.entries.map (·.1)).Nodup := by
  rw [List.Nodup, List.pairwise_map]
  refine t.ordered.imp ?_
  intro e e' hlt heq
  rw [heq] at hlt
  simp at hlt

theorem mem_entries_iff [Std.TransOrd κ] {t : Table κ α} {k : κ} {v : α} :
    (k, v) ∈ t.entries ↔ t.get? k = some v :=
  ⟨lookup_of_nodup t.nodup_keys, mem_entries_of_get?⟩

theorem mem_keys_iff [Std.TransOrd κ] {t : Table κ α} {k : κ} :
    k ∈ t.keys ↔ t.contains k = true := by
  simp only [keys, List.mem_map, Prod.exists, exists_and_right, exists_eq_right, mem_entries_iff,
    contains_iff]

theorem mem_values_iff [Std.TransOrd κ] {t : Table κ α} {v : α} :
    v ∈ t.values ↔ ∃ k, t.get? k = some v := by
  simp only [values, List.mem_map, Prod.exists, exists_eq_right, mem_entries_iff]

/-- A table without entries answers nothing. -/
theorem entries_eq_nil_iff [Std.TransOrd κ] {t : Table κ α} :
    t.entries = [] ↔ ∀ k, t.get? k = none := by
  constructor
  · intro h k
    rw [get?, h, List.lookup_nil]
  · intro h
    refine List.eq_nil_iff_forall_not_mem.2 fun e he => ?_
    obtain ⟨k, v⟩ := e
    have hget := mem_entries_iff.1 he
    rw [h k] at hget
    simp at hget

/-! ### One equation for each way of making a table -/

omit [Ord κ] in
theorem lookup_cons_ite [DecidableEq κ] (k k₁ : κ) (v₁ : α) (l : List (κ × α)) :
    ((k₁, v₁) :: l).lookup k = if k = k₁ then some v₁ else l.lookup k := by
  rw [List.lookup_cons]
  by_cases hk : k = k₁
  · simp [hk]
  · simp [hk, beq_false_of_ne]

theorem lookup_insertEntry [Std.TransOrd κ] [Std.LawfulEqOrd κ] [DecidableEq κ] (k k' : κ) (v : α)
    (l : List (κ × α)) :
    (insertEntry k v l).lookup k' = if k' = k then some v else l.lookup k' := by
  induction l with
  | nil => rw [insertEntry, lookup_cons_ite]
  | cons head rest ih =>
      obtain ⟨k₁, v₁⟩ := head
      rw [insertEntry]
      -- the new entry goes in front, replaces the first one, or goes further back
      split
      next hlt => rw [lookup_cons_ite]
      next heq =>
          obtain rfl : k = k₁ := Std.LawfulEqCmp.compare_eq_iff_eq.1 heq
          simp only [lookup_cons_ite]
          split <;> rfl
      next hgt =>
          have hne : k ≠ k₁ := by
            intro heq
            subst heq
            simp at hgt
          simp only [lookup_cons_ite, ih]
          by_cases hk : k' = k
          · subst hk
            rw [if_neg hne, if_pos rfl, if_pos rfl]
          · rw [if_neg hk, if_neg hk]

@[simp] theorem get?_insert [Std.TransOrd κ] [Std.LawfulEqOrd κ] [DecidableEq κ] (t : Table κ α)
    (k k' : κ) (v : α) :
    (t.insert k v).get? k' = if k' = k then some v else t.get? k' :=
  lookup_insertEntry k k' v t.entries

@[simp] theorem get?_insertNew [Std.TransOrd κ] [Std.LawfulEqOrd κ] [DecidableEq κ]
    (t : Table κ α) (k k' : κ) (v : α) :
    (t.insertNew k v).get? k' = (t.get? k').or (if k' = k then some v else none) := by
  rw [insertNew]
  by_cases hc : t.contains k
  · obtain ⟨w, hw⟩ := contains_iff.1 hc
    rw [if_pos hc]
    by_cases hk : k' = k
    · subst hk
      simp [hw]
    · simp [hk]
  · rw [if_neg hc, get?_insert]
    have hnone : t.get? k = none := by
      simpa [contains] using hc
    by_cases hk : k' = k
    · subst hk
      simp [hnone]
    · simp [hk]

@[simp] theorem get?_filter [Std.TransOrd κ] (t : Table κ α) (p : κ → α → Bool) (k : κ) :
    (t.filter p).get? k = (t.get? k).filter (p k) := by
  refine Option.ext fun v => ?_
  rw [← mem_entries_iff, Option.filter_eq_some_iff, ← mem_entries_iff]
  simp [filter]

@[simp] theorem get?_filterMap [Std.TransOrd κ] (t : Table κ α) (f : κ → α → Option β) (k : κ) :
    (t.filterMap f).get? k = (t.get? k).bind (f k) := by
  refine Option.ext fun v => ?_
  rw [← mem_entries_iff, Option.bind_eq_some_iff]
  simp only [filterMap, List.mem_filterMap, Prod.exists, Option.map_eq_some_iff, Prod.mk.injEq,
    mem_entries_iff]
  constructor
  · intro h
    obtain ⟨k', w, hw, v', hv', rfl, rfl⟩ := h
    exact ⟨w, hw, hv'⟩
  · intro h
    obtain ⟨w, hw, hv⟩ := h
    exact ⟨k, w, hw, v, hv, rfl, rfl⟩

/-- Filling a table with entries of which none says otherwise keeps an answer, or gives it. -/
theorem get?_foldl_insert [Std.TransOrd κ] [Std.LawfulEqOrd κ] [DecidableEq κ] {l : List (κ × α)}
    {t : Table κ α} {k : κ} {v : α} (consistent : ∀ w, (k, w) ∈ l → w = v)
    (h : (k, v) ∈ l ∨ t.get? k = some v) :
    (l.foldl (fun t (k, v) => t.insert k v) t).get? k = some v := by
  -- on the entries, for any table: each step fills the table of the step before
  induction l generalizing t with
  | nil => simpa using h
  | cons head rest ih =>
      obtain ⟨k₁, v₁⟩ := head
      rw [List.foldl_cons]
      refine ih (fun w hw => consistent w (List.mem_cons_of_mem _ hw)) ?_
      rw [get?_insert]
      by_cases hk : k = k₁
      · subst hk
        rw [if_pos rfl, consistent v₁ List.mem_cons_self]
        exact Or.inr rfl
      · rw [if_neg hk]
        rcases h with h | h
        · rcases List.mem_cons.1 h with heq | hrest
          · exact absurd (congrArg Prod.fst heq) hk
          · exact Or.inl hrest
        · exact Or.inr h

omit [BEq κ] [LawfulBEq κ] in
/-- Filling a table makes no entries up. -/
theorem mem_of_mem_foldl_insert [Std.TransOrd κ] {l : List (κ × α)} {t : Table κ α} {e : κ × α}
    (h : e ∈ (l.foldl (fun t (k, v) => t.insert k v) t).entries) : e ∈ l ∨ e ∈ t.entries := by
  induction l generalizing t with
  | nil => exact Or.inr h
  | cons head rest ih =>
      rcases ih h with hrest | hinsert
      · exact Or.inl (List.mem_cons_of_mem _ hrest)
      · rcases mem_insertEntry hinsert with rfl | ht
        · exact Or.inl List.mem_cons_self
        · exact Or.inr ht

/-- A table filled with entries of which no two contradict each other has each of them. -/
theorem get?_ofList_of_mem [Std.TransOrd κ] [Std.LawfulEqOrd κ] [DecidableEq κ]
    {l : List (κ × α)} {k : κ} {v : α} (consistent : ∀ w, (k, w) ∈ l → w = v) (h : (k, v) ∈ l) :
    (ofList l).get? k = some v :=
  get?_foldl_insert consistent (Or.inl h)

/-- A table filled with entries has none but these. -/
theorem mem_of_get?_ofList [Std.TransOrd κ] {l : List (κ × α)} {k : κ} {v : α}
    (h : (ofList l).get? k = some v) : (k, v) ∈ l := by
  rcases mem_of_mem_foldl_insert (mem_entries_of_get? h) with h | h
  · exact h
  · simp at h

/-! ### Tables and lists of entries -/

/-- A table is its answers. -/
theorem eq_of_get? [Std.TransOrd κ] {s t : Table κ α} (h : ∀ k, s.get? k = t.get? k) : s = t := by
  have hmem : ∀ e, e ∈ s.entries ↔ e ∈ t.entries := by
    intro e
    obtain ⟨k, v⟩ := e
    rw [mem_entries_iff, mem_entries_iff, h]
  have hperm : s.entries.Perm t.entries :=
    (List.perm_ext_iff_of_nodup s.nodup_keys.of_map t.nodup_keys.of_map).2 hmem
  refine ext (hperm.eq_of_pairwise ?_ s.ordered t.ordered)
  intro e e' _ _ hlt hlt'
  have hgt := Std.OrientedCmp.gt_of_lt hlt
  rw [hlt'] at hgt
  simp at hgt

omit [BEq κ] [LawfulBEq κ] [Ord κ] in
theorem consistent_of_nodup {l : List (κ × α)} (distinct : (l.map (·.1)).Nodup) {k : κ} {v : α}
    (h : (k, v) ∈ l) : ∀ w, (k, w) ∈ l → w = v := by
  intro w hw
  exact congrArg Prod.snd (List.inj_on_of_nodup_map distinct hw h rfl)

/-- A table filled with entries of distinct keys has these entries. -/
theorem get?_ofList_iff [Std.TransOrd κ] [Std.LawfulEqOrd κ] [DecidableEq κ] {l : List (κ × α)}
    (distinct : (l.map (·.1)).Nodup) {k : κ} {v : α} :
    (ofList l).get? k = some v ↔ (k, v) ∈ l :=
  ⟨mem_of_get?_ofList, fun h => get?_ofList_of_mem (consistent_of_nodup distinct h) h⟩

theorem entries_ofList_perm [Std.TransOrd κ] [Std.LawfulEqOrd κ] [DecidableEq κ]
    {l : List (κ × α)} (distinct : (l.map (·.1)).Nodup) : (ofList l).entries.Perm l := by
  refine (List.perm_ext_iff_of_nodup (ofList l).nodup_keys.of_map distinct.of_map).2 fun e => ?_
  obtain ⟨k, v⟩ := e
  rw [mem_entries_iff, get?_ofList_iff distinct]

/-- The order in which a table is filled leaves no trace. -/
theorem ofList_eq_of_perm [Std.TransOrd κ] [Std.LawfulEqOrd κ] [DecidableEq κ] {t : Table κ α}
    {l : List (κ × α)} (h : l.Perm t.entries) : ofList l = t := by
  have distinct : (l.map (·.1)).Nodup := (h.map _).nodup_iff.2 t.nodup_keys
  refine eq_of_get? fun k => Option.ext fun v => ?_
  rw [get?_ofList_iff distinct, h.mem_iff, mem_entries_iff]

end StarQpu.Table
