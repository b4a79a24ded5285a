import StarQpu.Proofs.Bank.Calls
import StarQpu.Proofs.Mapping
import StarQpu.Proofs.Result

/-!
# StarQpu.Proofs.Bank.Outcomes

**What becomes of a call, exactly.** A bank in which no resonator is named as a qubit is separated,
and stays so whatever is asked of it. Then a state can always leave its resonator, so of the MOVEs
that `bring` plans only the last one can be refused: the call fails exactly when the state may not
enter, and what was in its way has left by then (`bring_of_admits`, `bring_of_not_admits`). Giving
back never fails at all. What either call returns is a list of MOVEs that can be replayed on the
bank before it, each component under the name it is given.
-/

namespace StarQpu.ResonatorBank

variable {b b' next : ResonatorBank} {q r s h : String} {names : Table String String}
  {moves : List (String × String)} {out : List Instruction}

/-! ### Banks that are separated for good -/

/-- No resonator is named as a qubit. -/
def Unmixed (pairs : List (String × List String)) : Prop :=
  ∀ p ∈ pairs, ∀ p' ∈ pairs, p.1 ∉ p'.2

instance : DecidablePred Unmixed := fun pairs =>
  inferInstanceAs (Decidable (∀ p ∈ pairs, ∀ p' ∈ pairs, p.1 ∉ p'.2))

theorem separated_ofPairs {pairs : List (String × List String)} (unmixed : Unmixed pairs) :
    (ofPairs pairs).Separated where
  toSound := sound_ofPairs pairs
  apart := by
    intro q r hq
    rw [← Bool.not_eq_true, tracks_ofPairs_iff]
    intro htracks
    obtain ⟨others, hothers⟩ := htracks
    obtain ⟨qubits, hmem, hq⟩ := mem_qubitsOf_ofPairs_iff.1 hq
    exact unmixed _ hothers _ hmem hq

theorem Separated.afterCalls (hb : b.Separated) (calls : List Call) :
    (b.afterCalls calls).Separated :=
  afterCalls_preserves (fun hb applied => hb.applied applied) hb calls

theorem separated_afterCalls {pairs : List (String × List String)} (unmixed : Unmixed pairs)
    (calls : List Call) : ((ofPairs pairs).afterCalls calls).Separated :=
  (separated_ofPairs unmixed).afterCalls calls

/-! ### Replaying what is returned -/

theorem moveInstructions_cons (names : Table String String) (q r : String) :
    moveInstructions names ((q, r) :: moves) =
      .move (renamed names q) (renamed names r) :: moveInstructions names moves := rfl

/-- MOVEs on renamed components are the MOVEs themselves, renamed. -/
theorem moveInstructions_eq_map (names : Table String String) (moves : List (String × String)) :
    moveInstructions names moves =
      (moveInstructions .empty moves).map (·.mapQubits (renamed names)) := by
  rw [moveInstructions, moveInstructions, List.map_map]
  refine List.map_congr_left fun m _ => ?_
  simp only [Function.comp_apply, renamed_empty]
  rfl

/-- Instructions under the names of the bank are followed like the MOVEs they stand for. -/
theorem foldlM_follow_iff :
    (moveInstructions .empty moves).foldlM follow b = .ok b' ↔ b.applyAll moves = (true, b') := by
  induction moves generalizing b with
  | nil =>
      rw [applyAll_nil, Prod.mk.injEq]
      simp [moveInstructions, pure, Except.pure]
  | cons move rest ih =>
      obtain ⟨q, r⟩ := move
      rw [moveInstructions_cons, renamed_empty, renamed_empty, List.foldlM_cons, do_eq_ok_iff,
        applyAll_cons_iff]
      simp only [ih]
      exact exists_congr fun b₁ => and_congr_left fun _ => apply_eq_ok_iff

/-- What a call returns can be replayed: under the names of the bank it is a list of MOVEs that lead
from the bank before the call to the one after it, and other names only rename it. -/
def Replays (call : Table String String → Except RoutingError (List Instruction) × ResonatorBank)
    (b : ResonatorBank) (names : Table String String) (out : List Instruction)
    (next : ResonatorBank) : Prop :=
  ∃ moves, call .empty = (.ok moves, next) ∧ (∀ i ∈ moves, i.isMove = true) ∧
    moves.foldlM follow b = .ok next ∧ out = moves.map (·.mapQubits (renamed names))

theorem replays_of_applyAll
    {call : Table String String → Except RoutingError (List Instruction) × ResonatorBank}
    (hcall : ∀ names, call names = (.ok (moveInstructions names moves), next))
    (hrun : b.applyAll moves = (true, next)) (names : Table String String) :
    Replays call b names (moveInstructions names moves) next := by
  refine ⟨_, hcall .empty, ?_, foldlM_follow_iff.2 hrun, moveInstructions_eq_map names moves⟩
  intro i hi
  obtain ⟨m, -, rfl⟩ := List.mem_map.1 hi
  rfl

/-! ### Bringing -/

/-- May the state of the qubit be brought into the resonator, or back out of it? -/
def Admits (b : ResonatorBank) (q r : String) : Prop :=
  b.tracks r = true ∧ q ∈ b.qubitsOf r ∧ ∀ s, s ≠ r → b.holder? s ≠ some q

/-- The banks track the same resonators with the same qubits, and differ at most in what `r`
holds. -/
structure SameBut (b : ResonatorBank) (r : String) (next : ResonatorBank) : Prop where
  names : next.names = b.names
  qubitsOf : next.qubitsOf = b.qubitsOf
  holder? : ∀ s, s ≠ r → next.holder? s = b.holder? s

theorem sameBut_setHolder (b : ResonatorBank) (r h : String) : b.SameBut r (b.setHolder r h) where
  names := names_setHolder
  qubitsOf := by
    funext s
    exact qubitsOf_setHolder
  holder? := by
    intro s hs
    rw [holder?_setHolder, if_neg hs]

theorem holder?_setHolder_self (hr : b.tracks r = true) :
    (b.setHolder r h).holder? r = some h := by
  obtain ⟨k, hk⟩ := tracks_iff.1 hr
  rw [holder?_setHolder, if_pos rfl, hk, Option.map_some]

section Bringing

variable (hb : b.Separated)
include hb

/-- Emptying a resonator that no other state is in changes nothing. -/
theorem setHolder_self_of_empty (empty : ∀ h, b.holder? r = some h → h = r) :
    b.setHolder r r = b := by
  cases hr : b.holder? r with
  | some h =>
      obtain rfl := empty h hr
      exact setHolder_eq_self hb.nodup hr
  | none =>
      -- no resonator has the name
      have hname : ∀ t ∈ b.resonators, t.name ≠ r := by
        intro t ht hname
        rw [(holder?_eq_some_iff hb.nodup).2 ⟨t, ht, hname, rfl⟩] at hr
        exact absurd hr (by simp)
      rw [setHolder, List.map_congr_left fun t ht => if_neg (hname t ht), List.map_id']

theorem admits_of_held (hr : b.holder? r = some q) (hne : q ≠ r) : b.Admits q r :=
  ⟨tracks_iff.2 ⟨q, hr⟩, (hb.holder_mem hr).resolve_left hne,
    fun _ hs hheld => hs (hb.holder_inj hheld hr)⟩

/-- The MOVE in question is made from a resonator that is empty by then. -/
theorem applyAll_plan_of_not_held (hnot : b.holder? r ≠ some q) :
    b.applyAll (b.plan q r) = (b.setHolder r r).applyAll [(q, r)] := by
  cases hr : b.holder? r with
  | none =>
      have hplan : b.plan q r = [(q, r)] := by simp [plan, hr]
      rw [hplan, setHolder_self_of_empty hb (by simp [hr])]
  | some h =>
      have hhq : h ≠ q := fun heq => hnot (heq ▸ hr)
      by_cases hempty : h = r
      · have hplan : b.plan q r = [(q, r)] := by simp [plan, hr, hempty]
        rw [hplan, setHolder_self_of_empty hb (by simp [hr, hempty])]
      · have hplan : b.plan q r = [(h, r), (q, r)] := by simp [plan, hr, hhq, hempty]
        rw [hplan, applyAll_cons_of_applied? (hb.applied?_out hr hempty)]

/-- A bank that allows a MOVE with `r` empty admits it. -/
theorem admits_of_allows_emptied (hallow : (b.setHolder r r).allows q r = true) :
    b.Admits q r := by
  have hnodup : (b.setHolder r r).names.Nodup := by
    rw [names_setHolder]
    exact hb.nodup
  obtain ⟨hq, -, hfree⟩ := (allows_iff hnodup).1 hallow
  rw [qubitsOf_setHolder] at hq
  refine ⟨tracks_of_mem_qubitsOf hq, hq, fun s hs hheld => hs (hfree s ?_)⟩
  rw [holder?_setHolder, if_neg hs]
  exact hheld

/-- **A state that is admitted** enters, past the state that is there, or leaves if it is there
itself. -/
theorem applyAll_plan_of_admits (hadmits : b.Admits q r) :
    b.applyAll (b.plan q r) =
      (true, b.setHolder r (if b.holder? r = some q then r else q)) := by
  obtain ⟨-, hq, hfree⟩ := hadmits
  by_cases hheld : b.holder? r = some q
  · rw [if_pos hheld, plan_of_held hheld,
      applyAll_cons_of_applied? (hb.applied?_out hheld (hb.ne_of_mem_qubitsOf hq)), applyAll_nil]
  · rw [if_neg hheld]
    refine applyAll_plan hb hq fun s hs => ?_
    by_cases hsr : s = r
    · exact hheld (hsr ▸ hs)
    · exact hfree s hsr hs

/-- **A state that is not admitted** is refused when the resonator has been emptied. -/
theorem applyAll_plan_of_not_admits (hnot : ¬ b.Admits q r) :
    b.applyAll (b.plan q r) = (false, b.setHolder r r) := by
  by_cases hheld : b.holder? r = some q
  · -- the resonator itself is to be brought into itself
    have hqr : q = r := by
      by_contra hne
      exact hnot (admits_of_held hb hheld hne)
    subst hqr
    have hrefused : b.applied? q q = none := by
      rw [applied?, if_neg]
      intro hallow
      exact hb.ne_of_mem_qubitsOf (mem_qubitsOf_of_allows hallow) rfl
    rw [plan_of_held hheld, setHolder_eq_self hb.nodup hheld, applyAll, hrefused]
  · have hrefused : (b.setHolder r r).applied? q r = none := by
      rw [applied?, if_neg]
      intro hallow
      exact hnot (admits_of_allows_emptied hb hallow)
    rw [applyAll_plan_of_not_held hb hheld, applyAll, hrefused]

theorem bring_of_admits (hadmits : b.Admits q r) (names : Table String String) :
    b.bring q r names = (.ok (moveInstructions names (b.plan q r)),
      b.setHolder r (if b.holder? r = some q then r else q)) :=
  perform_eq_ok_iff.2 ⟨applyAll_plan_of_admits hb hadmits, rfl⟩

theorem bring_of_not_admits (hnot : ¬ b.Admits q r) (names : Table String String) :
    b.bring q r names = (.error (.transpilation .moveNotAllowed), b.setHolder r r) := by
  rw [bring, perform, applyAll_plan_of_not_admits hb hnot]

end Bringing

/-- The state of `q` has been brought into `r` or back out of it, by MOVEs under some names. -/
structure Brought (b : ResonatorBank) (q r : String) (names : Table String String)
    (out : List Instruction) (next : ResonatorBank) : Prop where
  replays : Replays (b.bring q r) b names out next
  /-- The state has entered, or left if it was there. -/
  holder? : next.holder? r = some (if b.holder? r = some q then r else q)
  /-- Another state that was there is held nowhere any more. -/
  evicted : ∀ h, b.holder? r = some h → h ≠ r → h ≠ q → ∀ s, next.holder? s ≠ some h
  sameBut : b.SameBut r next

/-- The state of `q` was refused by `r`. Another state that was there has left for it. -/
structure Refused (b : ResonatorBank) (q r : String) (next : ResonatorBank) : Prop where
  occupied : ∀ h, b.holder? r = some h → h ≠ r → h ≠ q →
    next.holder? r = some r ∧ b.SameBut r next
  free : (∀ h, b.holder? r = some h → h = r ∨ h = q) → next = b

/-- All there is to say about bringing the state of `q` into `r`, under any names for the MOVEs. -/
structure BringsExactly (b : ResonatorBank) (q r : String) (names : Table String String) :
    Prop where
  succeeds_iff : (∃ out next, b.bring q r names = (.ok out, next)) ↔ b.Admits q r
  success : ∀ out next, b.bring q r names = (.ok out, next) → b.Brought q r names out next
  failure : ∀ e next, b.bring q r names = (.error e, next) →
    e = .transpilation .moveNotAllowed ∧ b.Refused q r next

namespace Separated

variable (hb : b.Separated)
include hb

theorem brought (hadmits : b.Admits q r) (names : Table String String) :
    b.Brought q r names (moveInstructions names (b.plan q r))
      (b.setHolder r (if b.holder? r = some q then r else q)) where
  replays :=
    replays_of_applyAll (bring_of_admits hb hadmits) (applyAll_plan_of_admits hb hadmits) names
  holder? := holder?_setHolder_self hadmits.1
  evicted := by
    intro h hr hne hhq s hs
    have hnot : b.holder? r ≠ some q := by
      rw [hr, ne_eq, Option.some.injEq]
      exact hhq
    by_cases hsr : s = r
    · rw [hsr, holder?_setHolder_self hadmits.1, if_neg hnot, Option.some.injEq] at hs
      exact hhq hs.symm
    · rw [holder?_setHolder, if_neg hsr] at hs
      exact hsr (hb.holder_inj hs hr)
  sameBut := sameBut_setHolder b r _

theorem refused (hnot : ¬ b.Admits q r) : b.Refused q r (b.setHolder r r) where
  occupied := fun h hr _ _ =>
    ⟨holder?_setHolder_self (tracks_iff.2 ⟨h, hr⟩), sameBut_setHolder b r r⟩
  free := by
    intro hfree
    refine setHolder_self_of_empty hb fun h hr => ?_
    by_contra hne
    obtain rfl := (hfree h hr).resolve_left hne
    exact hnot (admits_of_held hb hr hne)

theorem bringsExactly (q r : String) (names : Table String String) : b.BringsExactly q r names := by
  by_cases hadmits : b.Admits q r
  · have hcall := bring_of_admits hb hadmits names
    refine ⟨iff_of_true ⟨_, _, hcall⟩ hadmits, fun out next h => ?_, fun e next h => ?_⟩
    · rw [hcall, Prod.mk.injEq, Except.ok.injEq] at h
      obtain ⟨rfl, rfl⟩ := h
      exact hb.brought hadmits names
    · rw [hcall] at h
      simp at h
  · have hcall := bring_of_not_admits hb hadmits names
    refine ⟨iff_of_false (fun h => ?_) hadmits, fun out next h => ?_, fun e next h => ?_⟩
    · obtain ⟨out, next, h⟩ := h
      rw [hcall] at h
      simp at h
    · rw [hcall] at h
      simp at h
    · rw [hcall, Prod.mk.injEq, Except.error.injEq] at h
      obtain ⟨rfl, rfl⟩ := h
      exact ⟨rfl, hb.refused hadmits⟩

end Separated

/-- **Bringing, exactly.** Whatever was asked of the bank before, the state of `q` is brought into
`r`, or back out of it, if and only if `r` is tracked, `q` has a MOVE to it and no other resonator
holds the state; the MOVEs that are returned lead from the bank before the call to the one after it.
A call that fails leaves the bank as it was, unless it has made another state leave `r`. -/
theorem bring_exact {pairs : List (String × List String)} (unmixed : Unmixed pairs)
    (calls : List Call) (q r : String) (names : Table String String) :
    ((ofPairs pairs).afterCalls calls).BringsExactly q r names :=
  (separated_afterCalls unmixed calls).bringsExactly q r names

/-- Two resonators with states in both: `Q2` may take the place of `Q1`, but not that of `Q3` while
`R1` holds it. -/
theorem bring_exact_occupied : Unmixed [("R1", ["Q1", "Q2"]), ("R2", ["Q2", "Q3"])] ∧
    ((ofPairs [("R1", ["Q1", "Q2"]), ("R2", ["Q2", "Q3"])]).afterCalls
      [.apply "Q3" "R2", .bring "Q1" "R1" .empty, .bring "Q2" "R1" .empty]).BringsExactly
        "Q2" "R2" .empty :=
  ⟨by decide, bring_exact (by decide) _ "Q2" "R2" .empty⟩

/-- There `Q3` has left `R2` when `Q2` is refused. -/
example : (((ofPairs [("R1", ["Q1", "Q2"]), ("R2", ["Q2", "Q3"])]).afterCalls
    [.apply "Q3" "R2", .bring "Q1" "R1" .empty, .bring "Q2" "R1" .empty,
      .bring "Q2" "R2" .empty]).resonators.map fun t => (t.name, t.holder)) =
    [("R1", "Q2"), ("R2", "R2")] := by decide

/-! ### Giving back -/

/-- The states in a scope have been given back, by MOVEs under some names. -/
structure GaveBack (b : ResonatorBank) (scope : Option (List String)) (names : Table String String)
    (out : List Instruction) (next : ResonatorBank) : Prop where
  inside : ∀ s, b.tracks s = true → scope.all (·.contains s) = true → next.holder? s = some s
  outside : ∀ s, scope.all (·.contains s) = false → next.holder? s = b.holder? s
  tracked : next.names = b.names ∧ next.qubitsOf = b.qubitsOf
  /-- There is one MOVE for each occupied resonator in the scope, in the order of the bank. -/
  moves : out = (b.names.filter fun s => scope.all (·.contains s) && b.resolve s ≠ s).map fun s =>
    .move (renamed names (b.resolve s)) (renamed names s)
  replays : Replays (b.reset scope) b names out next
  /-- Nothing is left to give back. -/
  again : ∀ names', next.reset scope names' = (.ok [], next)

theorem occupied_eq (nodup : b.names.Nodup) (scope : Option (List String)) :
    b.occupied scope = (b.names.filter fun s =>
      scope.all (·.contains s) && b.resolve s ≠ s).map fun s => (b.resolve s, s) := by
  have hresolve : ∀ t ∈ b.resonators, b.resolve t.name = t.holder := fun t ht =>
    resolve_of_holder? ((holder?_eq_some_iff nodup).2 ⟨t, ht, rfl, rfl⟩)
  rw [occupied, names, List.filter_map, List.map_map, ← List.filterMap_eq_map,
    List.filterMap_filter]
  refine List.filterMap_congr fun t ht => ?_
  simp only [Function.comp_apply, hresolve t ht]

theorem occupied_emptied (nodup : b.names.Nodup) (scope : Option (List String)) :
    (b.emptied scope).occupied scope = [] := by
  have hnodup : (b.emptied scope).names.Nodup := by
    rw [names_emptied]
    exact nodup
  refine List.eq_nil_iff_forall_not_mem.2 fun move hmove => ?_
  obtain ⟨hheld, hne, hscope⟩ := (mem_occupied_iff hnodup).1 hmove
  rw [holder?_emptied, if_pos hscope, Option.map_eq_some_iff] at hheld
  obtain ⟨-, -, hself⟩ := hheld
  exact hne hself.symm

theorem Separated.gaveBack (hb : b.Separated) (scope : Option (List String))
    (names : Table String String) :
    b.GaveBack scope names (moveInstructions names (b.occupied scope)) (b.emptied scope) where
  inside := by
    intro s hs hscope
    obtain ⟨h, hh⟩ := tracks_iff.1 hs
    rw [holder?_emptied, if_pos hscope, hh, Option.map_some]
  outside := by
    intro s hscope
    rw [holder?_emptied, hscope, if_neg Bool.false_ne_true]
  tracked := ⟨names_emptied, funext fun _ => qubitsOf_emptied⟩
  moves := by
    rw [occupied_eq hb.nodup, moveInstructions, List.map_map]
    rfl
  replays := replays_of_applyAll (reset_eq hb scope) (applyAll_occupied hb scope) names
  again := by
    intro names'
    have hrun := applyAll_occupied (Separated.emptied hb scope) scope
    rw [occupied_emptied hb.nodup, applyAll_nil, Prod.mk.injEq] at hrun
    rw [reset_eq (Separated.emptied hb scope), occupied_emptied hb.nodup, ← hrun.2]
    rfl

/-- **Giving back, exactly.** Whatever was asked of the bank before, giving back the states in any
scope succeeds: the resonators in the scope are empty afterwards and the others as they were, by one
MOVE for each that was occupied, and there is nothing left to give back. -/
theorem reset_exact {pairs : List (String × List String)} (unmixed : Unmixed pairs)
    (calls : List Call) (scope : Option (List String)) (names : Table String String) :
    ∃ out next, ((ofPairs pairs).afterCalls calls).reset scope names = (.ok out, next) ∧
      ((ofPairs pairs).afterCalls calls).GaveBack scope names out next :=
  have hb := separated_afterCalls unmixed calls
  ⟨_, _, reset_eq hb scope names, hb.gaveBack scope names⟩

/-- A scope that lists one of three occupied resonators twice, and an unknown one; the MOVE is
returned under another name of the qubit. -/
theorem reset_exact_in_scope :
    Unmixed [("R1", ["Q1"]), ("R2", ["Q2", "Q3"]), ("R3", ["Q2"])] ∧
      ∃ out next, ((ofPairs [("R1", ["Q1"]), ("R2", ["Q2", "Q3"]), ("R3", ["Q2"])]).afterCalls
          [.apply "Q1" "R1", .apply "Q3" "R2", .apply "Q2" "R3"]).reset
            (some ["R2", "R9", "R2"]) (Table.empty.insert "Q3" "c") = (.ok out, next) ∧
        ((ofPairs [("R1", ["Q1"]), ("R2", ["Q2", "Q3"]), ("R3", ["Q2"])]).afterCalls
          [.apply "Q1" "R1", .apply "Q3" "R2", .apply "Q2" "R3"]).GaveBack
            (some ["R2", "R9", "R2"]) (Table.empty.insert "Q3" "c") out next :=
  ⟨by decide, reset_exact (by decide) _ (some ["R2", "R9", "R2"]) (Table.empty.insert "Q3" "c")⟩

end StarQpu.ResonatorBank
