import StarQpu.Proofs.Architecture
import StarQpu.QubitMapping

/-!
# StarQpu.Proofs.Mapping

**The completed mapping.** Completion adds an entry of its own name for each component that the
mapping does not target, unless the name is taken (`get?_complete`). If the mapping `Fits` the
architecture (it is injective, targets components, and no name it uses is that of an untargeted
component), the completed mapping and its inverse are inverse to each other between the names of a
circuit and all components. Completing nothing gives the identity.
-/

namespace StarQpu

theorem renamed_of_get? {names : Table String String} {c d : String} (h : names.get? c = some d) :
    renamed names c = d := by
  rw [renamed, Table.getD, h, Option.getD_some]

theorem renamed_of_get?_eq_none {names : Table String String} {c : String}
    (h : names.get? c = none) : renamed names c = c := by
  rw [renamed, Table.getD, h, Option.getD_none]

@[simp] theorem renamed_empty (c : String) : renamed .empty c = c :=
  renamed_of_get?_eq_none (Table.get?_empty c)

namespace QubitMapping

variable {m : QubitMapping} {a : DynamicArchitecture} {c l l' p : String}

/-! ### Completion -/

theorem get?_complete (m : QubitMapping) (a : DynamicArchitecture) (c : String) :
    (m.complete a).get? c =
      (m.get? c).or (if a.hasComponent c = true ∧ c ∉ m.values then some c else none) := by
  have fill : ∀ (components : List String) (filled : QubitMapping),
      (components.foldl
        (fun filled c => if m.values.contains c then filled else filled.insertNew c c)
        filled).get? c =
      (filled.get? c).or (if c ∈ components ∧ c ∉ m.values then some c else none) := by
    intro components
    -- on the components; a target gets no entry, whatever is filled so far
    induction components with
    | nil =>
        intro filled
        simp
    | cons d rest ih =>
        intro filled
        rw [List.foldl_cons, ih]
        by_cases htarget : d ∈ m.values
        · rw [if_pos (List.contains_iff_mem.2 htarget)]
          by_cases hcd : c = d
          · subst hcd
            simp [htarget]
          · simp [hcd]
        · rw [if_neg (by simpa using htarget), Table.get?_insertNew, Option.or_assoc]
          by_cases hcd : c = d
          · subst hcd
            simp [htarget]
          · simp [hcd]
  rw [complete, fill]
  simp only [DynamicArchitecture.mem_components_iff]

/-- Without a mapping every component has its own name. -/
theorem get?_complete_empty (a : DynamicArchitecture) (c : String) :
    (complete .empty a).get? c = if a.hasComponent c = true then some c else none := by
  have hvalues : c ∉ (Table.empty : QubitMapping).values := List.not_mem_nil
  rw [get?_complete, Table.get?_empty, Option.none_or]
  simp only [hvalues, not_false_eq_true, and_true]

/-! ### The inverse -/

/-- No two names stand for one component. -/
def Injective (m : QubitMapping) : Prop :=
  ∀ {l l' p}, m.get? l = some p → m.get? l' = some p → l = l'

theorem get?_of_get?_inverse (h : m.inverse.get? p = some l) : m.get? l = some p := by
  have hmem := Table.mem_of_get?_ofList h
  rw [List.mem_map] at hmem
  obtain ⟨e, he, heq⟩ := hmem
  obtain ⟨rfl, rfl⟩ := Prod.mk.inj heq
  exact Table.mem_entries_iff.1 he

theorem get?_inverse_iff (injective : m.Injective) :
    m.inverse.get? p = some l ↔ m.get? l = some p := by
  constructor
  · exact get?_of_get?_inverse
  · intro h
    refine Table.get?_ofList_of_mem ?_ (List.mem_map.2 ⟨(l, p), Table.mem_entries_iff.2 h, rfl⟩)
    intro l' hl'
    obtain ⟨e, he, heq⟩ := List.mem_map.1 hl'
    obtain ⟨rfl, rfl⟩ := Prod.mk.inj heq
    exact injective (Table.mem_entries_iff.1 he) h

/-! ### Mappings that fit an architecture -/

/-- The mapping is injective and targets components, and a name it uses is not the name of a
component that it does not target. -/
structure Fits (m : QubitMapping) (a : DynamicArchitecture) : Prop where
  injective : m.Injective
  component : ∀ {l p}, m.get? l = some p → a.hasComponent p = true
  unclaimed : ∀ {l p}, m.get? l = some p → a.hasComponent l = true → l ∈ m.values

theorem Fits.empty (a : DynamicArchitecture) : Fits .empty a where
  injective := by
    intro l l' p h
    simp at h
  component := by
    intro l p h
    simp at h
  unclaimed := by
    intro l p h
    simp at h

/-- Where the entries of the completed mapping come from. -/
theorem get?_complete_cases (h : (m.complete a).get? l = some p) :
    m.get? l = some p ∨ l = p ∧ a.hasComponent p = true ∧ p ∉ m.values := by
  rw [get?_complete, Option.or_eq_some_iff] at h
  rcases h with h | ⟨-, h⟩
  · exact Or.inl h
  · rw [Option.ite_none_right_eq_some] at h
    obtain ⟨⟨hc, hfree⟩, hp⟩ := h
    obtain rfl := Option.some.inj hp
    exact Or.inr ⟨rfl, hc, hfree⟩

namespace Fits

variable (fits : m.Fits a)
include fits

theorem complete_component (h : (m.complete a).get? l = some p) : a.hasComponent p = true := by
  rcases get?_complete_cases h with h | ⟨-, hp, -⟩
  · exact fits.component h
  · exact hp

theorem complete_injective : (m.complete a).Injective := by
  intro l l' p h h'
  rcases get?_complete_cases h with h | ⟨rfl, -, hfree⟩
  · rcases get?_complete_cases h' with h' | ⟨-, -, hfree⟩
    · exact fits.injective h h'
    · exact absurd (Table.mem_values_iff.2 ⟨l, h⟩) hfree
  · rcases get?_complete_cases h' with h' | ⟨rfl, -, -⟩
    · exact absurd (Table.mem_values_iff.2 ⟨l', h'⟩) hfree
    · rfl

/-- Every component has a name in the completed mapping. -/
theorem exists_get?_complete (hp : a.hasComponent p = true) :
    ∃ l, (m.complete a).get? l = some p := by
  by_cases htarget : p ∈ m.values
  · obtain ⟨l, hl⟩ := Table.mem_values_iff.1 htarget
    exact ⟨l, by rw [get?_complete, hl, Option.some_or]⟩
  · refine ⟨p, ?_⟩
    cases hl : m.get? p with
    | none => rw [get?_complete, hl, Option.none_or, if_pos ⟨hp, htarget⟩]
    | some q => exact absurd (fits.unclaimed hl hp) htarget

theorem get?_inverse_complete_iff :
    (m.complete a).inverse.get? p = some l ↔ (m.complete a).get? l = some p :=
  get?_inverse_iff fits.complete_injective

/-- The inverse leads back to the name. -/
theorem renamed_inverse (h : (m.complete a).get? l = some p) :
    renamed (m.complete a).inverse p = l :=
  renamed_of_get? (fits.get?_inverse_complete_iff.2 h)

/-- The completed mapping leads back to the component. -/
theorem get?_renamed_inverse (hp : a.hasComponent p = true) :
    (m.complete a).get? (renamed (m.complete a).inverse p) = some p := by
  obtain ⟨l, hl⟩ := fits.exists_get?_complete hp
  rw [fits.renamed_inverse hl]
  exact hl

theorem renamed_inverse_inj (hc : a.hasComponent c = true) (hp : a.hasComponent p = true)
    (h : renamed (m.complete a).inverse c = renamed (m.complete a).inverse p) : c = p := by
  have hget := fits.get?_renamed_inverse hc
  rw [h, fits.get?_renamed_inverse hp] at hget
  exact (Option.some.inj hget).symm

end Fits

end QubitMapping

end StarQpu
