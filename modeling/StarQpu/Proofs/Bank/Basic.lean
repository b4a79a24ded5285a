import Mathlib.Data.List.Nodup
import StarQpu.Routing.ResonatorBank

/-!
# StarQpu.Proofs.Bank.Basic

**A bank is what it answers.** Two answers describe a bank: the qubits that have a MOVE to a
resonator (`qubitsOf`) and the component whose state it holds (`holder?`). The other questions are
read off these two, and so is the invariant of all banks that MOVEs lead to:

* `Sound`: a resonator is listed once, holds its own state or that of a qubit with a MOVE to it, and
  no two resonators hold the state of one qubit;
* `Separated`: moreover no resonator is listed as a qubit, so that a name is one or the other.

Moving changes one holder at a time; `Sound.setHolder` says when that keeps the invariant.
-/

namespace StarQpu.ResonatorBank

variable {b b' : ResonatorBank} {q r s h : String}

/-- The names of the tracked resonators, in order. -/
def names (b : ResonatorBank) : List String := b.resonators.map (·.name)

/-! ### Finding a resonator -/

theorem find?_eq_some_iff (nodup : b.names.Nodup) {t : Resonator} :
    b.find? r = some t ↔ t ∈ b.resonators ∧ t.name = r := by
  constructor
  · intro h
    exact ⟨List.mem_of_find?_eq_some h, by simpa using List.find?_some h⟩
  · intro h
    obtain ⟨hmem, rfl⟩ := h
    have hsome : (b.find? t.name).isSome := by
      rw [find?, List.find?_isSome]
      exact ⟨t, hmem, by simp⟩
    obtain ⟨u, hu⟩ := Option.isSome_iff_exists.1 hsome
    have hname : u.name = t.name := by simpa using List.find?_some hu
    rw [hu, List.inj_on_of_nodup_map nodup (List.mem_of_find?_eq_some hu) hmem hname]

theorem holder?_eq_some_iff (nodup : b.names.Nodup) :
    b.holder? r = some h ↔ ∃ t ∈ b.resonators, t.name = r ∧ t.holder = h := by
  simp only [holder?, Option.map_eq_some_iff, find?_eq_some_iff nodup, and_assoc]

theorem qubitsOf_eq (b : ResonatorBank) (r : String) :
    b.qubitsOf r = ((b.find? r).map (·.qubits)).getD [] := by
  rw [qubitsOf]
  cases b.find? r <;> rfl

theorem mem_qubitsOf_iff (nodup : b.names.Nodup) :
    q ∈ b.qubitsOf r ↔ ∃ t ∈ b.resonators, t.name = r ∧ q ∈ t.qubits := by
  rw [qubitsOf_eq]
  cases hfind : b.find? r with
  | none =>
      constructor
      · intro hq
        simp at hq
      · intro h
        obtain ⟨t, ht, hname, -⟩ := h
        rw [(find?_eq_some_iff nodup).2 ⟨ht, hname⟩] at hfind
        simp at hfind
  | some t =>
      obtain ⟨ht, hname⟩ := (find?_eq_some_iff nodup).1 hfind
      constructor
      · intro hq
        exact ⟨t, ht, hname, hq⟩
      · intro h
        obtain ⟨u, hu, huname, hq⟩ := h
        rw [(find?_eq_some_iff nodup).2 ⟨hu, huname⟩] at hfind
        rw [← Option.some.inj hfind]
        exact hq

/-! ### The other questions -/

theorem tracks_iff : b.tracks r = true ↔ ∃ h, b.holder? r = some h := by
  rw [tracks, Option.isSome_iff_exists]
  simp only [holder?, Option.map_eq_some_iff]
  constructor
  · intro h
    obtain ⟨t, ht⟩ := h
    exact ⟨t.holder, t, ht, rfl⟩
  · intro h
    obtain ⟨-, t, ht, -⟩ := h
    exact ⟨t, ht⟩

theorem tracks_eq_false_iff : b.tracks r = false ↔ b.holder? r = none := by
  rw [tracks, holder?]
  cases b.find? r <;> simp

/-- A component that is not tracked is none of the resonators. -/
theorem ne_of_not_tracks (hfree : b.tracks q = false) (hs : b.holder? s = some h) : q ≠ s := by
  intro heq
  rw [← heq, tracks_eq_false_iff.1 hfree] at hs
  cases hs

theorem tracks_of_mem_qubitsOf (hq : q ∈ b.qubitsOf r) : b.tracks r = true := by
  rw [tracks]
  rw [qubitsOf_eq] at hq
  cases hfind : b.find? r with
  | none =>
      rw [hfind] at hq
      simp at hq
  | some t => rfl

theorem supportsMove_of_mem_qubitsOf (hq : q ∈ b.qubitsOf r) : b.supportsMove = true := by
  rw [qubitsOf] at hq
  cases hfind : b.find? r with
  | none =>
      rw [hfind] at hq
      simp at hq
  | some t =>
      rw [hfind] at hq
      rw [supportsMove, List.any_eq_true]
      refine ⟨t, List.mem_of_find?_eq_some hfind, ?_⟩
      rw [Bool.not_eq_true', List.isEmpty_eq_false_iff]
      exact List.ne_nil_of_mem hq

theorem exists_mem_qubitsOf_of_supportsMove (nodup : b.names.Nodup) (h : b.supportsMove = true) :
    ∃ q r, q ∈ b.qubitsOf r := by
  rw [supportsMove, List.any_eq_true] at h
  obtain ⟨t, ht, hsome⟩ := h
  rw [Bool.not_eq_true', List.isEmpty_eq_false_iff] at hsome
  obtain ⟨q, hq⟩ := List.exists_mem_of_ne_nil _ hsome
  exact ⟨q, t.name, (mem_qubitsOf_iff nodup).2 ⟨t, ht, rfl, hq⟩⟩

theorem mem_names_iff (nodup : b.names.Nodup) : r ∈ b.names ↔ b.tracks r = true := by
  simp only [names, List.mem_map, tracks_iff, holder?_eq_some_iff nodup]
  constructor
  · intro h
    obtain ⟨t, ht, rfl⟩ := h
    exact ⟨t.holder, t, ht, rfl, rfl⟩
  · intro h
    obtain ⟨-, t, ht, hname, -⟩ := h
    exact ⟨t, ht, hname⟩

theorem resolve_of_holder? (hr : b.holder? r = some h) : b.resolve r = h := by
  rw [resolve, hr, Option.getD_some]

theorem resolve_of_not_tracks (hr : b.tracks r = false) : b.resolve r = r := by
  rw [resolve, tracks_eq_false_iff.1 hr, Option.getD_none]

theorem heldElsewhere_eq_false_iff (nodup : b.names.Nodup) :
    b.heldElsewhere q r = false ↔ ∀ s, b.holder? s = some q → s = r := by
  simp only [heldElsewhere, List.any_eq_false, holder?_eq_some_iff nodup]
  constructor
  · intro hnone s hs
    obtain ⟨t, ht, rfl, rfl⟩ := hs
    by_contra hne
    exact hnone t ht (by simp [hne])
  · intro hall t ht hheld
    simp only [Bool.and_eq_true, decide_eq_true_eq] at hheld
    exact hheld.1 (hall t.name ⟨t, ht, rfl, hheld.2⟩)

theorem mem_holding_iff (nodup : b.names.Nodup) {qubits : List String} :
    r ∈ b.holding qubits ↔ ∃ h, b.holder? r = some h ∧ h ∈ qubits ∧ b.tracks h = false := by
  simp only [holding, List.mem_map, List.mem_filter, Bool.and_eq_true, Bool.not_eq_true',
    List.contains_iff_mem, holder?_eq_some_iff nodup]
  constructor
  · intro h
    obtain ⟨t, ⟨ht, hheld, hfree⟩, rfl⟩ := h
    exact ⟨t.holder, ⟨t, ht, rfl, rfl⟩, hheld, hfree⟩
  · intro h
    obtain ⟨-, ⟨t, ht, rfl, rfl⟩, hheld, hfree⟩ := h
    exact ⟨t, ⟨ht, hheld, hfree⟩, rfl⟩

/-- No resonator holds the state of another component. -/
def AtRest (b : ResonatorBank) : Prop := ∀ r h, b.holder? r = some h → h = r

/-- Empty resonators are not in the way of anything. -/
theorem AtRest.holding_eq_nil (rest : b.AtRest) (nodup : b.names.Nodup) (qubits : List String) :
    b.holding qubits = [] := by
  refine List.eq_nil_iff_forall_not_mem.2 fun r hr => ?_
  obtain ⟨h, hheld, -, hfree⟩ := (mem_holding_iff nodup).1 hr
  exact ne_of_not_tracks hfree hheld (rest r h hheld)

theorem allows_iff (nodup : b.names.Nodup) :
    b.allows q r = true ↔ q ∈ b.qubitsOf r ∧ (b.holder? r = some q ∨ b.holder? r = some r) ∧
      ∀ s, b.holder? s = some q → s = r := by
  rw [← heldElsewhere_eq_false_iff nodup, allows, qubitsOf_eq, holder?]
  cases b.find? r with
  | none => simp
  | some t =>
      simp only [Bool.and_eq_true, Bool.not_eq_true', Bool.or_eq_true, decide_eq_true_eq,
        List.contains_iff_mem, Option.map_some, Option.getD_some, Option.some.injEq]
      tauto

theorem mem_qubitsOf_of_allows (hallow : b.allows q r = true) : q ∈ b.qubitsOf r := by
  rw [allows] at hallow
  rw [qubitsOf]
  cases hfind : b.find? r with
  | none =>
      rw [hfind] at hallow
      simp at hallow
  | some t =>
      rw [hfind] at hallow
      simp only [Bool.and_eq_true, List.contains_iff_mem] at hallow
      exact hallow.1.2

theorem applied?_eq_some_iff : b.applied? q r = some b' ↔ b.allows q r = true ∧
    b' = b.setHolder r (if b.holder? r = some r then q else r) := by
  rw [applied?]
  by_cases hallow : b.allows q r = true
  · rw [if_pos hallow, Option.some.injEq]
    exact ⟨fun h => ⟨hallow, h.symm⟩, fun h => h.2.symm⟩
  · rw [if_neg hallow]
    constructor
    · intro h
      simp at h
    · intro h
      exact absurd h.1 hallow

theorem apply_eq_ok_iff : b.apply q r = .ok b' ↔ b.applied? q r = some b' := by
  rw [apply]
  cases b.applied? q r with
  | none => simp
  | some next => simp

/-! ### Changing holders -/

/-- Changing resonators and keeping their names changes what is found in the same way. -/
theorem find?_map {f : Resonator → Resonator} (keeps : ∀ t, (f t).name = t.name) :
    (ResonatorBank.mk (b.resonators.map f)).find? r = (b.find? r).map f := by
  rw [find?, find?, List.find?_map]
  have hsame : ((fun t : Resonator => decide (t.name = r)) ∘ f) = fun t => decide (t.name = r) := by
    funext t
    simp only [Function.comp_apply, keeps]
  rw [hsame]

theorem find?_setHolder : (b.setHolder r h).find? s =
    (b.find? s).map fun t => if t.name = r then { t with holder := h } else t := by
  refine find?_map fun t => ?_
  split <;> rfl

@[simp] theorem names_setHolder : (b.setHolder r h).names = b.names := by
  rw [names, setHolder, List.map_map, names]
  refine List.map_congr_left fun t _ => ?_
  rw [Function.comp_apply]
  split <;> rfl

@[simp] theorem qubitsOf_setHolder : (b.setHolder r h).qubitsOf s = b.qubitsOf s := by
  rw [qubitsOf_eq, qubitsOf_eq, find?_setHolder, Option.map_map]
  congr 2
  funext t
  rw [Function.comp_apply]
  split <;> rfl

theorem holder?_setHolder : (b.setHolder r h).holder? s =
    if s = r then (b.holder? s).map fun _ => h else b.holder? s := by
  rw [holder?, holder?, find?_setHolder, Option.map_map, Option.map_map]
  cases hfind : b.find? s with
  | none => simp
  | some t =>
      have hname : t.name = s := by simpa using List.find?_some hfind
      by_cases hs : s = r
      · simp [hname, hs]
      · simp [hname, hs]

@[simp] theorem tracks_setHolder : (b.setHolder r h).tracks s = b.tracks s := by
  rw [tracks, tracks, find?_setHolder, Option.isSome_map]

theorem resolve_setHolder_self (hr : b.tracks r = true) : (b.setHolder r h).resolve r = h := by
  obtain ⟨k, hk⟩ := tracks_iff.1 hr
  rw [resolve, holder?_setHolder, if_pos rfl, hk]
  rfl

theorem resolve_setHolder_ne (hne : s ≠ r) : (b.setHolder r h).resolve s = b.resolve s := by
  rw [resolve, holder?_setHolder, if_neg hne]
  rfl

/-- A MOVE changes holders only. -/
theorem qubitsOf_applied (applied : b.applied? q r = some b') : b'.qubitsOf = b.qubitsOf := by
  obtain ⟨-, rfl⟩ := applied?_eq_some_iff.1 applied
  funext s
  exact qubitsOf_setHolder

theorem tracks_applied (applied : b.applied? q r = some b') : b'.tracks = b.tracks := by
  obtain ⟨-, rfl⟩ := applied?_eq_some_iff.1 applied
  funext s
  exact tracks_setHolder

/-- Every state that is held is in a resonator in which it is wanted. -/
def HeldFor (wanted : String → String → Prop) (b : ResonatorBank) : Prop :=
  ∀ s q, b.holder? s = some q → q ≠ s → wanted q s

theorem AtRest.heldFor {wanted : String → String → Prop} (rest : b.AtRest) : b.HeldFor wanted :=
  fun s q hs hne => absurd (rest s q hs) hne

/-- A MOVE that only brings states that are wanted leaves only such ones in the resonators. -/
theorem HeldFor.applied {wanted : String → String → Prop} (h : b.HeldFor wanted)
    (applied : b.applied? q r = some b') (hwanted : b.holder? r = some r → wanted q r) :
    b'.HeldFor wanted := by
  obtain ⟨-, rfl⟩ := applied?_eq_some_iff.1 applied
  intro s t hs hne
  rw [holder?_setHolder] at hs
  by_cases hsr : s = r
  · subst hsr
    rw [if_pos rfl, Option.map_eq_some_iff] at hs
    obtain ⟨-, -, ht⟩ := hs
    by_cases hempty : b.holder? s = some s
    · rw [if_pos hempty] at ht
      exact ht ▸ hwanted hempty
    · rw [if_neg hempty] at ht
      exact absurd ht.symm hne
  · rw [if_neg hsr] at hs
    exact h s t hs hne

theorem setHolder_setHolder (h' : String) :
    (b.setHolder r h).setHolder r h' = b.setHolder r h' := by
  rw [setHolder, setHolder, setHolder, List.map_map]
  congr 1
  refine List.map_congr_left fun t _ => ?_
  rw [Function.comp_apply]
  by_cases ht : t.name = r
  · simp [ht]
  · simp [ht]

/-- Giving a resonator the holder it has changes nothing. -/
theorem setHolder_eq_self (nodup : b.names.Nodup) (hr : b.holder? r = some h) :
    b.setHolder r h = b := by
  have hsame : b.resonators.map (fun t => if t.name = r then { t with holder := h } else t) =
      b.resonators.map id := by
    refine List.map_congr_left fun t ht => ?_
    by_cases hname : t.name = r
    · have hheld : b.holder? r = some t.holder :=
        (holder?_eq_some_iff nodup).2 ⟨t, ht, hname, rfl⟩
      rw [hr, Option.some.injEq] at hheld
      rw [if_pos hname, hheld]
      rfl
    · rw [if_neg hname]
      rfl
  rw [setHolder, hsame, List.map_id]

/-! ### The invariant -/

/-- What holds of every bank that MOVEs lead to. -/
structure Sound (b : ResonatorBank) : Prop where
  nodup : b.names.Nodup
  /-- A resonator holds its own state or that of a qubit with a MOVE to it. -/
  holder_mem : ∀ {r h}, b.holder? r = some h → h = r ∨ h ∈ b.qubitsOf r
  /-- No two resonators hold the state of one qubit. -/
  single : ∀ {r s h}, b.holder? r = some h → b.holder? s = some h → h ≠ r → h ≠ s → r = s

/-- A sound bank in which no resonator is listed as a qubit. -/
structure Separated (b : ResonatorBank) : Prop extends Sound b where
  apart : ∀ {q r}, q ∈ b.qubitsOf r → b.tracks q = false

/-- A new holder keeps a bank sound if it may be there and is held nowhere else. -/
theorem Sound.setHolder (hb : b.Sound) (hmem : h = r ∨ h ∈ b.qubitsOf r)
    (free : h ≠ r → ∀ s, b.holder? s = some h → s = r) : (b.setHolder r h).Sound where
  nodup := by
    rw [names_setHolder]
    exact hb.nodup
  holder_mem := by
    intro s k hs
    rw [qubitsOf_setHolder]
    rw [holder?_setHolder] at hs
    by_cases hsr : s = r
    · rw [if_pos hsr, Option.map_eq_some_iff] at hs
      obtain ⟨-, -, rfl⟩ := hs
      rw [hsr]
      exact hmem
    · rw [if_neg hsr] at hs
      exact hb.holder_mem hs
  single := by
    intro s t k hs ht hks hkt
    rw [holder?_setHolder] at hs ht
    -- at most one of the two resonators got the new holder
    by_cases hsr : s = r <;> by_cases htr : t = r
    · rw [hsr, htr]
    · rw [if_pos hsr, Option.map_eq_some_iff] at hs
      obtain ⟨-, -, rfl⟩ := hs
      rw [if_neg htr] at ht
      exact absurd (free (hsr ▸ hks) t ht) htr
    · rw [if_pos htr, Option.map_eq_some_iff] at ht
      obtain ⟨-, -, rfl⟩ := ht
      rw [if_neg hsr] at hs
      exact absurd (free (htr ▸ hkt) s hs) hsr
    · rw [if_neg hsr] at hs
      rw [if_neg htr] at ht
      exact hb.single hs ht hks hkt

/-- A MOVE that is allowed keeps a bank sound. -/
theorem Sound.applied (hb : b.Sound) (happly : b.applied? q r = some b') : b'.Sound := by
  obtain ⟨hallow, rfl⟩ := applied?_eq_some_iff.1 happly
  obtain ⟨hq, -, hfree⟩ := (allows_iff hb.nodup).1 hallow
  by_cases hempty : b.holder? r = some r
  · rw [if_pos hempty]
    exact hb.setHolder (Or.inr hq) fun _ => hfree
  · rw [if_neg hempty]
    exact hb.setHolder (Or.inl rfl) fun hne => absurd rfl hne

theorem Separated.applied (hb : b.Separated) (happly : b.applied? q r = some b') :
    b'.Separated where
  toSound := hb.toSound.applied happly
  apart := by
    intro p s hp
    obtain ⟨-, rfl⟩ := applied?_eq_some_iff.1 happly
    rw [qubitsOf_setHolder] at hp
    rw [tracks_setHolder]
    exact hb.apart hp

namespace Separated

/-- The holder of a resonator is the resonator itself or not a resonator at all. -/
theorem holder_cases (hb : b.Separated) (hr : b.holder? r = some h) :
    h = r ∨ b.tracks h = false := by
  rcases hb.holder_mem hr with heq | hq
  · exact Or.inl heq
  · exact Or.inr (hb.apart hq)

/-- A state is in one place. -/
theorem holder_inj (hb : b.Separated) (hr : b.holder? r = some h) (hs : b.holder? s = some h) :
    r = s := by
  rcases hb.holder_cases hr with heq | hfree
  · subst heq
    rcases hb.holder_cases hs with heq | hfree
    · exact heq
    · exact absurd rfl (ne_of_not_tracks hfree hr)
  · exact hb.single hr hs (ne_of_not_tracks hfree hr) (ne_of_not_tracks hfree hs)

/-- A qubit with a MOVE to a resonator is not that resonator. -/
theorem ne_of_mem_qubitsOf (hb : b.Separated) (hq : q ∈ b.qubitsOf r) : q ≠ r := by
  obtain ⟨h, hr⟩ := tracks_iff.1 (tracks_of_mem_qubitsOf hq)
  exact ne_of_not_tracks (hb.apart hq) hr

end Separated

end StarQpu.ResonatorBank
