import Mathlib.Algebra.Group.Nat.Even
import StarQpu.Proofs.Routing.RemovalMeaning

/-!
# StarQpu.Proofs.Validation.Pairing

**Sandwiches seen from afar.** Validation walks a circuit from left to right and knows nothing but
the occupied resonators. What it accepts can be told without a walk, from two sides: the MOVEs on
each resonator come in pairs of one qubit, and the MOVEs on each qubit in pairs of one resonator.
Neither side is enough, as the qubits of a resonator do not say whether a state is in two places.

The proof looks at an occupation as a list of MOVEs still without a partner. A list of instructions
is `ClosedBy` them if every resonator and every qubit is paired once the open MOVE is put in front
of its own ones; a MOVE either opens a pair on both sides or closes one on both (`closes_of_move`).
-/

namespace StarQpu

variable {a : DynamicArchitecture} {o o₁ : Occupation} {c : Circuit} {i : Instruction}
  {p q r s : String} {l before after inside : List Instruction} {mode : MoveValidation}
  {qubits resonators : List String}

/-! ### Pairs -/

/-- The items come in consecutive pairs of equal ones, and none is left over. -/
inductive Paired : List String → Prop where
  | nil : Paired []
  | pair (x : String) {l : List String} (rest : Paired l) : Paired (x :: x :: l)

namespace Paired

variable {x y : String} {xs ys : List String}

theorem cons_cons_iff : Paired (x :: y :: xs) ↔ x = y ∧ Paired xs := by
  constructor
  · intro h
    cases h with
    | pair _ rest => exact ⟨rfl, rest⟩
  · intro h
    obtain ⟨rfl, rest⟩ := h
    exact .pair x rest

theorem not_singleton : ¬ Paired [x] := by
  intro h
  cases h

theorem toList_iff {x? : Option String} : Paired x?.toList ↔ x? = none := by
  cases x? with
  | none => simpa using Paired.nil
  | some x => simpa using not_singleton

theorem even_length (h : Paired xs) : Even xs.length := by
  induction h with
  | nil => exact Even.zero
  | pair x rest ih =>
      rw [List.length_cons, List.length_cons, Nat.even_iff] at *
      omega

end Paired

/-- The lists are the same, but for a pair that is closed. -/
def Closes (xs ys : List String) : Prop := xs = ys ∨ ∃ x, xs = x :: x :: ys

namespace Closes

variable {xs ys : List String}

theorem paired_iff (h : Closes xs ys) : Paired xs ↔ Paired ys := by
  rcases h with rfl | ⟨x, rfl⟩
  · rfl
  · rw [Paired.cons_cons_iff]
    exact and_iff_right rfl

theorem even_length_iff (h : Closes xs ys) : Even xs.length ↔ Even ys.length := by
  rcases h with rfl | ⟨x, rfl⟩
  · rfl
  · simp only [List.length_cons, Nat.even_iff]
    omega

end Closes

/-! ### The MOVEs of a component -/

/-- The qubit of a MOVE on the resonator. -/
def Instruction.visitor? (r : String) (i : Instruction) : Option String :=
  match i.action with
  | .move q s => if s = r then some q else none
  | _ => none

/-- The resonator of a MOVE on the qubit. -/
def Instruction.visited? (q : String) (i : Instruction) : Option String :=
  match i.action with
  | .move p r => if p = q then some r else none
  | _ => none

/-- The qubits of the MOVEs on a resonator, in order. -/
def visitors (r : String) (l : List Instruction) : List String := l.filterMap (·.visitor? r)

/-- The resonators of the MOVEs on a qubit, in order. -/
def visited (q : String) (l : List Instruction) : List String := l.filterMap (·.visited? q)

theorem visitors_cons_of_move (hmove : i.action = .move q r) :
    visitors s (i :: l) = (if r = s then [q] else []) ++ visitors s l := by
  rw [visitors, List.filterMap_cons, Instruction.visitor?, hmove]
  by_cases hr : r = s <;> simp [hr, visitors]

theorem visited_cons_of_move (hmove : i.action = .move q r) :
    visited p (i :: l) = (if q = p then [r] else []) ++ visited p l := by
  rw [visited, List.filterMap_cons, Instruction.visited?, hmove]
  by_cases hq : q = p <;> simp [hq, visited]

theorem visitors_cons_of_not_move (hother : i.isMove = false) :
    visitors r (i :: l) = visitors r l := by
  obtain ⟨action, implementation⟩ := i
  cases action <;> first | rfl | simp [Instruction.isMove] at hother

theorem visited_cons_of_not_move (hother : i.isMove = false) :
    visited q (i :: l) = visited q l := by
  obtain ⟨action, implementation⟩ := i
  cases action <;> first | rfl | simp [Instruction.isMove] at hother

theorem Instruction.visitor?_eq_some_iff : i.visitor? r = some q ↔ i.action = .move q r := by
  unfold visitor?
  cases i.action <;> simp [and_comm]

theorem Instruction.visited?_eq_some_iff : i.visited? q = some r ↔ i.action = .move q r := by
  unfold visited?
  cases i.action <;> simp

namespace Occupation

/-! ### Where a state is -/

/-- No state is in two resonators. -/
def Single (o : Occupation) : Prop :=
  ∀ r s q, o.get? r = some q → o.get? s = some q → r = s

/-- The resonator that holds the state of a qubit. -/
def home? (o : Occupation) (q : String) : Option String :=
  (o.entries.find? (·.2 = q)).map (·.1)

theorem home?_eq_none_iff : o.home? q = none ↔ o.holds q = false := by
  rw [home?, Option.map_eq_none_iff, List.find?_eq_none, ← Bool.not_eq_true, holds_iff]
  simp only [Prod.forall, Table.mem_entries_iff, decide_eq_true_eq]
  constructor
  · intro h hheld
    obtain ⟨r, hr⟩ := hheld
    exact h r q hr rfl
  · intro h r p hr hp
    exact h ⟨r, hp ▸ hr⟩

theorem get?_of_home? (h : o.home? q = some r) : o.get? r = some q := by
  obtain ⟨e, hfind, rfl⟩ := Option.map_eq_some_iff.1 h
  have hq : e.2 = q := by simpa using List.find?_some hfind
  rw [← hq]
  exact Table.mem_entries_iff.1 (List.mem_of_find?_eq_some hfind)

theorem Single.home?_eq_some_iff (single : o.Single) :
    o.home? q = some r ↔ o.get? r = some q := by
  constructor
  · exact get?_of_home?
  · intro h
    cases hhome : o.home? q with
    | none =>
        rw [home?_eq_none_iff, ← Bool.not_eq_true, holds_iff] at hhome
        exact absurd ⟨r, h⟩ hhome
    | some s => rw [single s r q (get?_of_home? hhome) h]

theorem single_empty : Single .empty := by
  intro r s q hr
  simp at hr

section Moves

variable (single : o.Single)
include single

theorem Single.insert (hfree : o.holds q = false) : Single (Table.insert o r q) := by
  rw [← Bool.not_eq_true, holds_iff, not_exists] at hfree
  intro s t p hs ht
  rw [Table.get?_insert] at hs ht
  split at hs <;> split at ht
  · simp [*]
  · obtain rfl := Option.some.inj hs
    exact absurd ht (hfree t)
  · obtain rfl := Option.some.inj ht
    exact absurd hs (hfree s)
  · exact single s t p hs ht

theorem Single.release (r : String) : Single (o.release r) := by
  intro s t p hs ht
  rw [get?_release] at hs ht
  split at hs <;> split at ht
  · simp [*]
  · simp at hs
  · simp at ht
  · exact single s t p hs ht

theorem home?_insert (hr : o.get? r = none) (hfree : o.holds q = false) :
    home? (Table.insert o r q) p = if p = q then some r else o.home? p := by
  refine Option.ext fun s => ?_
  rw [(single.insert hfree).home?_eq_some_iff, Table.get?_insert]
  rw [← home?_eq_none_iff] at hfree
  by_cases hs : s = r <;> by_cases hp : p = q
  · simp [hs, hp]
  · have hne : o.home? p ≠ some r := by
      rw [ne_eq, single.home?_eq_some_iff, hr]
      simp
    simp [hs, hp, hne, Ne.symm hp]
  · have hne : o.get? s ≠ some q := by
      rw [ne_eq, ← single.home?_eq_some_iff, hfree]
      simp
    simp [hs, hp, hne, Ne.symm hs]
  · simp [hs, hp, single.home?_eq_some_iff]

theorem home?_release (hr : o.get? r = some q) :
    (o.release r).home? p = if p = q then none else o.home? p := by
  refine Option.ext fun s => ?_
  rw [(single.release r).home?_eq_some_iff, get?_release]
  by_cases hs : s = r <;> by_cases hp : p = q
  · simp [hs, hp]
  · have hne : o.home? p ≠ some r := by
      rw [ne_eq, single.home?_eq_some_iff, hr, Option.some.injEq]
      exact Ne.symm hp
    simp [hs, hp, hne]
  · have hne : o.get? s ≠ some q := fun h => hs (single s r q h hr)
    simp [hs, hp, hne]
  · simp [hs, hp, single.home?_eq_some_iff]

end Moves

/-! ### Open MOVEs -/

/-- The qubits of the MOVEs on a resonator, the open one first. -/
def allVisitors (o : Occupation) (r : String) (l : List Instruction) : List String :=
  (o.get? r).toList ++ visitors r l

/-- The resonators of the MOVEs on a qubit, the open one first. -/
def allVisited (o : Occupation) (q : String) (l : List Instruction) : List String :=
  (o.home? q).toList ++ visited q l

/-- A MOVE closes the open pairs of its qubit and its resonator, or opens a pair on both. -/
theorem closes_of_move (single : o.Single) (hmove : i.action = .move q r)
    (hmoved : o.move q r = .ok o₁) :
    o₁.Single ∧ (∀ s l, Closes (o.allVisitors s (i :: l)) (o₁.allVisitors s l)) ∧
      ∀ p l, Closes (o.allVisited p (i :: l)) (o₁.allVisited p l) := by
  simp only [allVisitors, allVisited, visitors_cons_of_move hmove, visited_cons_of_move hmove]
  rcases move_eq_ok_iff.1 hmoved with ⟨hr, hfree, rfl⟩ | ⟨hr, rfl⟩
  · refine ⟨single.insert hfree, fun s l => Or.inl ?_, fun p l => Or.inl ?_⟩
    · rw [Table.get?_insert]
      by_cases hs : s = r
      · simp [hs, hr]
      · simp [hs, Ne.symm hs]
    · rw [home?_insert single hr hfree]
      by_cases hp : p = q
      · simp [hp, home?_eq_none_iff.2 hfree]
      · simp [hp, Ne.symm hp]
  · refine ⟨single.release r, fun s l => ?_, fun p l => ?_⟩
    · rw [get?_release]
      by_cases hs : s = r
      · exact Or.inr ⟨q, by simp [hs, hr]⟩
      · exact Or.inl (by simp [hs, Ne.symm hs])
    · rw [home?_release single hr]
      by_cases hp : p = q
      · exact Or.inr ⟨r, by simp [hp, single.home?_eq_some_iff.2 hr]⟩
      · exact Or.inl (by simp [hp, Ne.symm hp])

/-- A MOVE goes through if it is paired on its resonator and on its qubit. -/
theorem exists_move_of_paired (hmove : i.action = .move q r)
    (hvisitors : Paired (o.allVisitors r (i :: l))) (hvisited : Paired (o.allVisited q (i :: l))) :
    ∃ o₁, o.move q r = .ok o₁ := by
  rw [allVisitors, visitors_cons_of_move hmove, if_pos rfl] at hvisitors
  rw [allVisited, visited_cons_of_move hmove, if_pos rfl] at hvisited
  cases hr : o.get? r with
  | some h =>
      rw [hr] at hvisitors
      obtain ⟨rfl, -⟩ := Paired.cons_cons_iff.1 hvisitors
      exact ⟨_, move_eq_ok_iff.2 (Or.inr ⟨hr, rfl⟩)⟩
  | none =>
      cases hhome : o.home? q with
      | some s =>
          -- the state is in another resonator, so its qubit is not paired
          rw [hhome] at hvisited
          obtain ⟨rfl, -⟩ := Paired.cons_cons_iff.1 hvisited
          rw [get?_of_home? hhome] at hr
          exact absurd hr (by simp)
      | none =>
          exact ⟨_, move_eq_ok_iff.2 (Or.inl ⟨hr, home?_eq_none_iff.1 hhome, rfl⟩)⟩

/-- The list closes the open MOVEs and its own ones, on every resonator and on every qubit, and its
other instructions act on qubits without an open MOVE, unless the mode tolerates them anyway. -/
structure ClosedBy (o : Occupation) (mode : MoveValidation) (l : List Instruction) : Prop where
  visitors : ∀ r, Paired (o.allVisitors r l)
  visited : ∀ q, Paired (o.allVisited q l)
  spared : ∀ before i after, l = before ++ i :: after → i.isMove = false →
    mode.tolerates i = true ∨ ∀ q ∈ i.qubits, Even (o.allVisited q before).length

theorem closedBy_nil_iff : o.ClosedBy mode [] ↔ o.entries = [] := by
  rw [Table.entries_eq_nil_iff]
  constructor
  · intro h r
    have hr := h.visitors r
    rwa [allVisitors, StarQpu.visitors, List.filterMap_nil, List.append_nil,
      Paired.toList_iff] at hr
  · intro h
    refine ⟨fun r => ?_, fun q => ?_, fun before i after hsplit => ?_⟩
    · rw [allVisitors, h r]
      exact .nil
    · have hnone : o.home? q = none := by
        cases hhome : o.home? q with
        | none => rfl
        | some r => exact absurd (get?_of_home? hhome) (by simp [h r])
      rw [allVisited, hnone]
      exact .nil
    · simp at hsplit

theorem closedBy_cons_of_move (hmove : i.isMove = true)
    (hvisitors : ∀ s l, Closes (o.allVisitors s (i :: l)) (o₁.allVisitors s l))
    (hvisited : ∀ p l, Closes (o.allVisited p (i :: l)) (o₁.allVisited p l)) :
    o.ClosedBy mode (i :: l) ↔ o₁.ClosedBy mode l := by
  constructor
  · intro h
    refine ⟨fun r => (hvisitors r l).paired_iff.1 (h.visitors r),
      fun q => (hvisited q l).paired_iff.1 (h.visited q), fun before j after hsplit hother => ?_⟩
    exact (h.spared (i :: before) j after (congrArg (i :: ·) hsplit) hother).imp_right
      fun hall q hq => (hvisited q before).even_length_iff.1 (hall q hq)
  · intro h
    refine ⟨fun r => (hvisitors r l).paired_iff.2 (h.visitors r),
      fun q => (hvisited q l).paired_iff.2 (h.visited q), fun before j after hsplit hother => ?_⟩
    cases before with
    | nil =>
        obtain ⟨rfl, -⟩ := List.cons.inj hsplit
        exact absurd hmove (by simp [hother])
    | cons k before =>
        obtain ⟨rfl, hrest⟩ := List.cons.inj hsplit
        exact (h.spared before j after hrest hother).imp_right
          fun hall q hq => (hvisited q before).even_length_iff.2 (hall q hq)

theorem closedBy_cons_of_not_move (hother : i.isMove = false) :
    o.ClosedBy mode (i :: l) ↔
      (mode.tolerates i = true ∨ ∀ q ∈ i.qubits, o.holds q = false) ∧ o.ClosedBy mode l := by
  have hvisitors : ∀ s l, o.allVisitors s (i :: l) = o.allVisitors s l := fun s l => by
    rw [allVisitors, visitors_cons_of_not_move hother, allVisitors]
  have hvisited : ∀ p l, o.allVisited p (i :: l) = o.allVisited p l := fun p l => by
    rw [allVisited, visited_cons_of_not_move hother, allVisited]
  have hfree : ∀ q, Even (o.allVisited q []).length ↔ o.holds q = false := by
    intro q
    rw [← home?_eq_none_iff, allVisited]
    cases o.home? q <;> simp [StarQpu.visited]
  constructor
  · intro h
    refine ⟨?_, fun r => hvisitors r l ▸ h.visitors r, fun q => hvisited q l ▸ h.visited q,
      fun before j after hsplit hj => ?_⟩
    · simpa only [hfree] using h.spared [] i l rfl hother
    · simpa only [hvisited] using h.spared (i :: before) j after (congrArg (i :: ·) hsplit) hj
  · intro h
    obtain ⟨hpass, h⟩ := h
    refine ⟨fun r => (hvisitors r l).symm ▸ h.visitors r,
      fun q => (hvisited q l).symm ▸ h.visited q, fun before j after hsplit hj => ?_⟩
    cases before with
    | nil =>
        obtain ⟨rfl, -⟩ := List.cons.inj hsplit
        simpa only [hfree] using hpass
    | cons k before =>
        obtain ⟨rfl, hrest⟩ := List.cons.inj hsplit
        simpa only [hvisited] using h.spared before j after hrest hj

/-- **A run ends with empty resonators exactly if the list closes** what is open at its start. -/
theorem exists_run_iff_closedBy (single : o.Single)
    (ends : ∀ i ∈ l, ∀ q r, i.action = .move q r → q ∈ qubits ∧ r ∈ resonators) :
    (∃ o', run qubits resonators mode o l = .ok o' ∧ o'.entries = []) ↔ o.ClosedBy mode l := by
  induction l generalizing o with
  | nil => simp only [run_nil, Except.ok.injEq, exists_eq_left', closedBy_nil_iff]
  | cons i l ih =>
      obtain ⟨hends, ends⟩ := List.forall_mem_cons.1 ends
      simp only [run_cons, bind_eq_ok_iff]
      cases hmove : i.isMove with
      | true =>
          obtain ⟨q, r, haction⟩ := Instruction.isMove_iff.1 hmove
          simp only [step_move haction (hends q r haction).1 (hends q r haction).2]
          constructor
          · intro h
            obtain ⟨o', ⟨o₁, hmoved, hrun⟩, hnone⟩ := h
            obtain ⟨single₁, hvisitors, hvisited⟩ := closes_of_move single haction hmoved
            rw [closedBy_cons_of_move hmove hvisitors hvisited]
            exact (ih single₁ ends).1 ⟨o', hrun, hnone⟩
          · intro h
            obtain ⟨o₁, hmoved⟩ :=
              exists_move_of_paired haction (h.visitors r) (h.visited q)
            obtain ⟨single₁, hvisitors, hvisited⟩ := closes_of_move single haction hmoved
            rw [closedBy_cons_of_move hmove hvisitors hvisited] at h
            obtain ⟨o', hrun, hnone⟩ := (ih single₁ ends).2 h
            exact ⟨o', ⟨o₁, hmoved, hrun⟩, hnone⟩
      | false =>
          rw [closedBy_cons_of_not_move hmove, ← ih single ends]
          simp only [step_other_eq_ok_iff hmove]
          constructor
          · intro h
            obtain ⟨o', ⟨o₁, ⟨rfl, hpass⟩, hrun⟩, hnone⟩ := h
            exact ⟨hpass, o', hrun, hnone⟩
          · intro h
            obtain ⟨hpass, o', hrun, hnone⟩ := h
            exact ⟨o', ⟨o, ⟨rfl, hpass⟩, hrun⟩, hnone⟩

end Occupation

/-! ### Between the MOVEs of a pair -/

/-- The instructions between the two MOVEs of a pair of the qubit: an even number of its MOVEs
stands in front of the first one, and none between the two. -/
def BetweenPair (q : String) (l inside : List Instruction) : Prop :=
  ∃ before first last after r s, l = before ++ first :: (inside ++ last :: after) ∧
    first.action = .move q r ∧ last.action = .move q s ∧ visited q inside = [] ∧
    Even (visited q before).length

theorem visited_append : visited q (before ++ after) = visited q before ++ visited q after :=
  List.filterMap_append

theorem exists_of_visitors_ne_nil (h : visitors r l ≠ []) :
    ∃ i ∈ l, ∃ q, i.action = .move q r := by
  obtain ⟨q, hq⟩ := List.exists_mem_of_ne_nil _ h
  obtain ⟨i, hi, hmove⟩ := List.mem_filterMap.1 hq
  exact ⟨i, hi, q, Instruction.visitor?_eq_some_iff.1 hmove⟩

/-- The first MOVE on the qubit. -/
theorem exists_first_of_visited (h : visited q l ≠ []) :
    ∃ before i after r, l = before ++ i :: after ∧ i.action = .move q r ∧
      visited q before = [] := by
  obtain ⟨r, rest, hcons⟩ := List.exists_cons_of_ne_nil h
  obtain ⟨before, i, after, rfl, hbefore, hi, -⟩ := List.filterMap_eq_cons_iff.1 hcons
  exact ⟨before, i, after, r, rfl, Instruction.visited?_eq_some_iff.1 hi,
    List.filterMap_eq_nil_iff.2 hbefore⟩

/-- The last MOVE on the qubit. -/
theorem exists_last_of_visited (h : visited q l ≠ []) :
    ∃ before i after r, l = before ++ i :: after ∧ i.action = .move q r ∧
      visited q after = [] := by
  obtain ⟨xs, r, hlast⟩ := (List.eq_nil_or_concat' _).resolve_left h
  obtain ⟨l₁, l₂, rfl, -, h₂⟩ := List.filterMap_eq_append_iff.1 hlast
  obtain ⟨m, i, after, rfl, -, hi, hafter⟩ := List.filterMap_eq_cons_iff.1 h₂
  exact ⟨l₁ ++ m, i, after, r, (List.append_assoc ..).symm, Instruction.visited?_eq_some_iff.1 hi,
    hafter⟩

/-- In front of an instruction between the MOVEs of a pair, the number of MOVEs is odd. -/
theorem odd_visited_of_betweenPair (h : BetweenPair q l inside) (hi : i ∈ inside) :
    ∃ before after, l = before ++ i :: after ∧ ¬ Even (visited q before).length := by
  obtain ⟨before, first, last, after, r, s, rfl, hfirst, -, hnone, heven⟩ := h
  obtain ⟨inside₁, inside₂, rfl⟩ := List.append_of_mem hi
  refine ⟨before ++ first :: inside₁, inside₂ ++ last :: after, by simp, ?_⟩
  rw [visited_append, List.append_eq_nil_iff] at hnone
  rw [visited_append, visited_cons_of_move hfirst, hnone.1]
  simpa [Nat.even_add_one] using heven

/-- Where the number of MOVEs is odd, an instruction is between the MOVEs of a pair. -/
theorem exists_betweenPair_of_odd (paired : Paired (visited q (before ++ i :: after)))
    (hother : i.isMove = false) (hodd : ¬ Even (visited q before).length) :
    ∃ inside, BetweenPair q (before ++ i :: after) inside ∧ i ∈ inside := by
  have hbefore : visited q before ≠ [] := fun hnone => hodd (hnone ▸ Even.zero)
  have hafter : visited q after ≠ [] := by
    intro hnone
    have heven := paired.even_length
    rw [visited_append, visited_cons_of_not_move hother, hnone, List.append_nil] at heven
    exact hodd heven
  obtain ⟨before₁, first, inside₁, r, rfl, hfirst, hnone₁⟩ := exists_last_of_visited hbefore
  obtain ⟨inside₂, last, after₂, s, rfl, hlast, hnone₂⟩ := exists_first_of_visited hafter
  refine ⟨inside₁ ++ i :: inside₂, ⟨before₁, first, last, after₂, r, s, by simp, hfirst, hlast,
    ?_, ?_⟩, by simp⟩
  · rw [visited_append, visited_cons_of_not_move hother, hnone₁, hnone₂, List.append_nil]
  · rw [visited_append, visited_cons_of_move hfirst, hnone₁] at hodd
    simpa [Nat.even_add_one] using hodd

/-- What a list has to spare when nothing is open at its start: the qubits between the MOVEs of a
pair. -/
theorem spared_iff_betweenPair (paired : ∀ q, Paired (visited q l)) :
    (∀ before i after, l = before ++ i :: after → i.isMove = false →
      mode.tolerates i = true ∨ ∀ q ∈ i.qubits, Even (visited q before).length) ↔
      ∀ q inside, BetweenPair q l inside → ∀ i ∈ inside, i.isMove = false → q ∈ i.qubits →
        mode.tolerates i = true := by
  constructor
  · intro h q inside hbetween i hi hother hq
    obtain ⟨before, after, hsplit, hodd⟩ := odd_visited_of_betweenPair hbetween hi
    exact (h before i after hsplit hother).resolve_right fun heven => hodd (heven q hq)
  · intro h before i after hsplit hother
    subst hsplit
    by_contra hnot
    obtain ⟨hpass, heven⟩ := not_or.1 hnot
    obtain ⟨q, hq, hodd⟩ := not_forall₂.1 heven
    obtain ⟨inside, hbetween, hi⟩ := exists_betweenPair_of_odd (paired q) hother hodd
    exact hpass (h q inside hbetween i hi hother hq)

/-! ### Accepted circuits -/

theorem closedBy_empty_iff : Occupation.ClosedBy .empty mode l ↔
    (∀ r, Paired (visitors r l)) ∧ (∀ q, Paired (visited q l)) ∧
      ∀ q inside, BetweenPair q l inside → ∀ i ∈ inside, i.isMove = false → q ∈ i.qubits →
        mode.tolerates i = true := by
  constructor
  · intro h
    exact ⟨h.visitors, h.visited, (spared_iff_betweenPair h.visited).1 h.spared⟩
  · intro h
    obtain ⟨hvisitors, hvisited, hspared⟩ := h
    exact ⟨hvisitors, hvisited, (spared_iff_betweenPair hvisited).2 hspared⟩

/-- **Validation accepts exactly the well paired circuits.** On an architecture with a MOVE gate, a
circuit has valid sandwiches if and only if all its MOVEs go from qubits to resonators, the MOVEs on
each resonator come in pairs of one qubit and those on each qubit in pairs of one resonator, and
only barriers (and rotations where the mode allows them) act on a qubit between the two MOVEs of one
of its pairs. -/
theorem validateMoves_eq_ok_iff_paired (supports : a.supportsMove = true)
    (hmode : mode ≠ .unchecked) :
    validateMoves a c none mode = .ok () ↔
      (∀ i ∈ c.instructions, ∀ q r, i.action = .move q r →
        a.isQubit q = true ∧ a.isResonator r = true) ∧
      (∀ r, a.isResonator r = true → Paired (visitors r c.instructions)) ∧
      (∀ q, a.isQubit q = true → Paired (visited q c.instructions)) ∧
      ∀ q inside, a.isQubit q = true → BetweenPair q c.instructions inside →
        ∀ i ∈ inside, i.isMove = false → q ∈ i.qubits →
          i.name = "barrier" ∨ mode = .allowPrx ∧ i.name = "prx" := by
  rw [validateMoves, validateMoveList_eq_ok_iff supports hmode]
  constructor
  · intro h
    have ends : ∀ i ∈ c.instructions, ∀ q r, i.action = .move q r →
        q ∈ a.qubits ∧ r ∈ a.resonators := by
      obtain ⟨o, hrun, -⟩ := h
      exact fun i hi q r => Occupation.mem_of_run hrun hi
    rw [Occupation.exists_run_iff_closedBy Occupation.single_empty ends, closedBy_empty_iff] at h
    obtain ⟨hvisitors, hvisited, hspared⟩ := h
    refine ⟨fun i hi q r hmove => ?_, fun r _ => hvisitors r, fun q _ => hvisited q,
      fun q inside _ hbetween i hi hother hq => ?_⟩
    · exact (ends i hi q r hmove).imp List.contains_iff_mem.2 List.contains_iff_mem.2
    · exact MoveValidation.tolerates_iff.1 (hspared q inside hbetween i hi hother hq)
  · intro h
    obtain ⟨ends, hvisitors, hvisited, hspared⟩ := h
    rw [Occupation.exists_run_iff_closedBy Occupation.single_empty fun i hi q r hmove =>
      (ends i hi q r hmove).imp List.contains_iff_mem.1 List.contains_iff_mem.1, closedBy_empty_iff]
    -- no MOVE is on a name that is no component
    refine ⟨fun r => ?_, fun q => ?_, fun q inside hbetween i hi hother hq => ?_⟩
    · by_cases hnone : visitors r c.instructions = []
      · exact hnone ▸ .nil
      · obtain ⟨i, hi, q, hmove⟩ := exists_of_visitors_ne_nil hnone
        exact hvisitors r (ends i hi q r hmove).2
    · by_cases hnone : visited q c.instructions = []
      · exact hnone ▸ .nil
      · obtain ⟨before, i, after, r, hsplit, hmove, -⟩ := exists_first_of_visited hnone
        exact hvisited q (ends i (hsplit ▸ by simp) q r hmove).1
    · obtain ⟨before, first, last, after, r, s, hsplit, hfirst, -⟩ := id hbetween
      have hqubit := (ends first (hsplit ▸ by simp) q r hfirst).1
      exact MoveValidation.tolerates_iff.2 (hspared q inside hqubit hbetween i hi hother hq)

theorem validateMoves_eq_ok_iff_paired_interleaved :
    Paired (visitors "R1" interleavedSandwiches.instructions) ∧
      Paired (visited "Q1" interleavedSandwiches.instructions) ∧
      BetweenPair "Q2" interleavedSandwiches.instructions
        ((interleavedSandwiches.instructions.drop 2).take 5) ∧
      ∀ i ∈ (interleavedSandwiches.instructions.drop 2).take 5, i.isMove = false →
        "Q2" ∈ i.qubits → i.name = "barrier" := by
  obtain ⟨-, hvisitors, hvisited, hspared⟩ :=
    (validateMoves_eq_ok_iff_paired (c := interleavedSandwiches)
      (show DynamicArchitecture.twoResonators.supportsMove = true by decide +kernel)
      (show MoveValidation.strict ≠ .unchecked by decide)).1 (by cbv)
  have hbetween : BetweenPair "Q2" interleavedSandwiches.instructions
      ((interleavedSandwiches.instructions.drop 2).take 5) :=
    ⟨[.move "Q1" "R1"], .move "Q2" "R2", .move "Q2" "R2", [], "R2", "R2", rfl, rfl, rfl, rfl,
      by decide⟩
  refine ⟨hvisitors "R1" (by decide +kernel), hvisited "Q1" (by decide +kernel), hbetween,
    fun i hi hother hq => ?_⟩
  exact (hspared "Q2" _ (by decide +kernel) hbetween i hi hother hq).resolve_right
    fun h => absurd h.1 (by decide)

/-- Each resonator has its pair here, but the state of the qubit would be in both at once. -/
example : validateMoveList .twoResonators [.move "Q1" "R1", .move "Q1" "R2", .move "Q1" "R2",
    .move "Q1" "R1"] none .strict ≠ .ok () := by decide +kernel

end StarQpu
