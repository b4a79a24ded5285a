import StarQpu.Proofs.Bank.Basic

/-!
# StarQpu.Proofs.Bank.Moving

**What giving back and bringing do.** Both are runs of single MOVEs, each of which is allowed when
it is made (`reset_eq_ok_iff`, `perform_eq_ok_iff`); everything that is said about single MOVEs
therefore carries over, and a run that gives back the states in a scope can only lead to the bank
`emptied` in that scope. In a separated bank neither can fail: giving back succeeds (`reset_eq`),
and bringing the state of a qubit that is held nowhere leads to the bank in which the resonator
holds it (`applyAll_plan`), whatever it held before.
-/

namespace StarQpu.ResonatorBank

variable {b b₁ b₂ b' : ResonatorBank} {q r s h : String} {names : Table String String}
  {moves : List (String × String)} {out : List Instruction}

/-! ### Runs of MOVEs -/

@[simp] theorem applyAll_nil : b.applyAll [] = (true, b) := by rw [applyAll]

theorem applyAll_cons_of_applied? {rest : List (String × String)}
    (happly : b.applied? q r = some b₁) : b.applyAll ((q, r) :: rest) = b₁.applyAll rest := by
  rw [applyAll, happly]

/-- A run that starts with a MOVE. -/
theorem applyAll_cons_iff : b.applyAll ((q, r) :: moves) = (true, b') ↔
    ∃ b₁, b.applied? q r = some b₁ ∧ b₁.applyAll moves = (true, b') := by
  rw [applyAll]
  cases b.applied? q r with
  | none => simp
  | some b₁ => simp

theorem applyAll_append_iff {more : List (String × String)} :
    b.applyAll (moves ++ more) = (true, b') ↔
      ∃ b₁, b.applyAll moves = (true, b₁) ∧ b₁.applyAll more = (true, b') := by
  induction moves generalizing b with
  | nil =>
      simp only [List.nil_append, applyAll_nil, Prod.mk.injEq, true_and, exists_eq_left']
  | cons move rest ih =>
      obtain ⟨q, r⟩ := move
      rw [List.cons_append, applyAll_cons_iff]
      simp only [ih, applyAll_cons_iff]
      constructor
      · intro h
        obtain ⟨next, happly, b₁, hfirst, hsecond⟩ := h
        exact ⟨b₁, ⟨next, happly, hfirst⟩, hsecond⟩
      · intro h
        obtain ⟨b₁, ⟨next, happly, hfirst⟩, hsecond⟩ := h
        exact ⟨next, happly, b₁, hfirst, hsecond⟩

/-- What every allowed MOVE preserves of a bank, a run of MOVEs preserves. -/
theorem applyAll_preserves {motive : ResonatorBank → Prop}
    (hrun : b.applyAll moves = (true, b'))
    (step : ∀ {b b₁ q r}, (q, r) ∈ moves → motive b → b.applied? q r = some b₁ → motive b₁)
    (hb : motive b) : motive b' := by
  induction moves generalizing b with
  | nil =>
      rw [applyAll_nil] at hrun
      exact (Prod.mk.inj hrun).2 ▸ hb
  | cons move rest ih =>
      obtain ⟨q, r⟩ := move
      obtain ⟨next, happly, hrest⟩ := applyAll_cons_iff.1 hrun
      exact ih hrest (fun hmem => step (List.mem_cons_of_mem _ hmem))
        (step List.mem_cons_self hb happly)

theorem Separated.applyAll (hb : b.Separated) (hrun : b.applyAll moves = (true, b')) :
    b'.Separated :=
  applyAll_preserves hrun (fun _ hb applied => hb.applied applied) hb

/-- Planned MOVEs are made if each is allowed when its turn comes. -/
theorem perform_eq_ok_iff : b.perform names moves = (.ok out, b') ↔
    b.applyAll moves = (true, b') ∧ out = moveInstructions names moves := by
  rw [perform]
  rcases b.applyAll moves with ⟨allowed, next⟩
  cases allowed with
  | true =>
      simp only [Prod.mk.injEq, Except.ok.injEq, true_and]
      constructor
      · intro h
        exact ⟨h.2, h.1.symm⟩
      · intro h
        exact ⟨h.2.symm, h.1⟩
  | false => simp

namespace Separated

/-- The state of a qubit can always leave the resonator that holds it. -/
theorem applied?_out (hb : b.Separated) (hr : b.holder? r = some q) (hne : q ≠ r) :
    b.applied? q r = some (b.setHolder r r) := by
  have hq : q ∈ b.qubitsOf r := (hb.holder_mem hr).resolve_left hne
  have hoccupied : b.holder? r ≠ some r := by
    rw [hr]
    simpa using hne
  refine applied?_eq_some_iff.2 ⟨(allows_iff hb.nodup).2 ⟨hq, Or.inl hr, ?_⟩, ?_⟩
  · intro s hs
    exact hb.holder_inj hs hr
  · rw [if_neg hoccupied]

/-- A state that no resonator holds can be moved into an empty one. -/
theorem applied?_in (hb : b.Separated) (hr : b.holder? r = some r) (hq : q ∈ b.qubitsOf r)
    (free : ∀ s, b.holder? s ≠ some q) : b.applied? q r = some (b.setHolder r q) := by
  refine applied?_eq_some_iff.2 ⟨(allows_iff hb.nodup).2 ⟨hq, Or.inr hr, ?_⟩, ?_⟩
  · intro s hs
    exact absurd hs (free s)
  · rw [if_pos hr]

end Separated

/-! ### Emptying -/

/-- The bank in which the resonators in the scope (all resonators if there is none) hold their own
states. -/
def emptied (b : ResonatorBank) (scope : Option (List String)) : ResonatorBank :=
  ⟨b.resonators.map fun t =>
    if scope.all (·.contains t.name) then { t with holder := t.name } else t⟩

theorem find?_emptied {scope : Option (List String)} : (b.emptied scope).find? s =
    (b.find? s).map fun t =>
      if scope.all (·.contains t.name) then { t with holder := t.name } else t := by
  refine find?_map fun t => ?_
  split <;> rfl

@[simp] theorem names_emptied {scope : Option (List String)} :
    (b.emptied scope).names = b.names := by
  rw [names, emptied, List.map_map, names]
  refine List.map_congr_left fun t _ => ?_
  rw [Function.comp_apply]
  split <;> rfl

@[simp] theorem qubitsOf_emptied {scope : Option (List String)} :
    (b.emptied scope).qubitsOf s = b.qubitsOf s := by
  rw [qubitsOf_eq, qubitsOf_eq, find?_emptied, Option.map_map]
  congr 2
  funext t
  rw [Function.comp_apply]
  split <;> rfl

@[simp] theorem tracks_emptied {scope : Option (List String)} :
    (b.emptied scope).tracks s = b.tracks s := by
  rw [tracks, tracks, find?_emptied, Option.isSome_map]

theorem holder?_emptied {scope : Option (List String)} : (b.emptied scope).holder? s =
    if scope.all (·.contains s) then (b.holder? s).map fun _ => s else b.holder? s := by
  rw [holder?, holder?, find?_emptied, Option.map_map, Option.map_map]
  cases hfind : b.find? s with
  | none => simp
  | some t =>
      have hname : t.name = s := by simpa using List.find?_some hfind
      rw [Option.map_some, Option.map_some, Option.map_some, Function.comp_apply,
        Function.comp_apply, hname]
      split <;> rfl

theorem holder?_emptied_some {rs : List String} : (b.emptied (some rs)).holder? s =
    if s ∈ rs then (b.holder? s).map fun _ => s else b.holder? s := by
  simp only [holder?_emptied, Option.all_some, List.contains_iff_mem]

theorem holder?_emptied_all : (b.emptied none).holder? s = (b.holder? s).map fun _ => s := by
  rw [holder?_emptied]
  rfl

@[simp] theorem emptied_nil : b.emptied (some []) = b := by
  rw [emptied]
  simp

/-- Emptying resonators one after the other. -/
theorem emptied_cons (rs : List String) :
    (b.setHolder r r).emptied (some rs) = b.emptied (some (r :: rs)) := by
  rw [emptied, setHolder, List.map_map, emptied]
  congr 1
  refine List.map_congr_left fun t _ => ?_
  rw [Function.comp_apply]
  by_cases ht : t.name = r <;> by_cases hmem : t.name ∈ rs <;> simp [ht, hmem]

/-- A state that is still held after emptying is where it was, outside the scope. -/
theorem holder?_of_emptied {rs : List String} (hfree : b.tracks q = false)
    (hs : (b.emptied (some rs)).holder? s = some q) : b.holder? s = some q ∧ s ∉ rs := by
  rw [holder?_emptied_some] at hs
  by_cases hmem : s ∈ rs
  · rw [if_pos hmem, Option.map_eq_some_iff] at hs
    obtain ⟨p, hp, rfl⟩ := hs
    exact absurd rfl (ne_of_not_tracks hfree hp)
  · rw [if_neg hmem] at hs
    exact ⟨hs, hmem⟩

/-- Emptying the resonators that hold some states leaves none of these states held. -/
theorem holding_emptied (nodup : b.names.Nodup) {qubits : List String} :
    (b.emptied (some (b.holding qubits))).holding qubits = [] := by
  rw [List.eq_nil_iff_forall_not_mem]
  intro s hs
  have hnodup : (b.emptied (some (b.holding qubits))).names.Nodup := by
    rw [names_emptied]
    exact nodup
  obtain ⟨q, hheld, hq, hfree⟩ := (mem_holding_iff hnodup).1 hs
  rw [tracks_emptied] at hfree
  obtain ⟨hbefore, hnot⟩ := holder?_of_emptied hfree hheld
  exact hnot ((mem_holding_iff nodup).2 ⟨q, hbefore, hq, hfree⟩)

theorem mem_occupied_iff (nodup : b.names.Nodup) {scope : Option (List String)} :
    (q, r) ∈ b.occupied scope ↔
      b.holder? r = some q ∧ q ≠ r ∧ scope.all (·.contains r) = true := by
  simp only [occupied, List.mem_filterMap, holder?_eq_some_iff nodup, Option.ite_none_right_eq_some,
    Bool.and_eq_true, decide_eq_true_eq, Option.some.injEq, Prod.mk.injEq]
  constructor
  · intro h
    obtain ⟨t, ht, ⟨hscope, hne⟩, rfl, rfl⟩ := h
    exact ⟨⟨t, ht, rfl, rfl⟩, hne, hscope⟩
  · intro h
    obtain ⟨⟨t, ht, rfl, rfl⟩, hne, hscope⟩ := h
    exact ⟨t, ht, ⟨hscope, hne⟩, rfl, rfl⟩

/-- Empty resonators have nothing to give back. -/
theorem AtRest.occupied_eq_nil (rest : b.AtRest) (nodup : b.names.Nodup)
    (scope : Option (List String)) : b.occupied scope = [] := by
  refine List.eq_nil_iff_forall_not_mem.2 fun move hmove => ?_
  obtain ⟨hheld, hne, -⟩ := (mem_occupied_iff nodup).1 hmove
  exact hne (rest _ _ hheld)

theorem occupied_names_sublist (b : ResonatorBank) (scope : Option (List String)) :
    ((b.occupied scope).map (·.2)).Sublist b.names := by
  rw [occupied, names]
  -- each resonator gives one pair or none, under its own name
  induction b.resonators with
  | nil => simp
  | cons t rest ih =>
      rw [List.filterMap_cons, List.map_cons]
      split
      next => exact ih.cons _
      next move hmove =>
          rw [Option.ite_none_right_eq_some] at hmove
          obtain ⟨-, hmove⟩ := hmove
          rw [List.map_cons, ← Option.some.inj hmove]
          exact ih.cons_cons _

/-- Emptying the occupied resonators of a scope empties the scope. -/
theorem emptied_occupied (nodup : b.names.Nodup) (scope : Option (List String)) :
    b.emptied (some ((b.occupied scope).map (·.2))) = b.emptied scope := by
  rw [emptied, emptied]
  congr 1
  refine List.map_congr_left fun t ht => ?_
  have hheld : b.holder? t.name = some t.holder :=
    (holder?_eq_some_iff nodup).2 ⟨t, ht, rfl, rfl⟩
  have hmem : t.name ∈ (b.occupied scope).map (·.2) ↔
      t.holder ≠ t.name ∧ scope.all (·.contains t.name) = true := by
    simp only [List.mem_map, Prod.exists, exists_eq_right, mem_occupied_iff nodup, hheld,
      Option.some.injEq]
    constructor
    · intro h
      obtain ⟨q, rfl, hq⟩ := h
      exact hq
    · intro hq
      exact ⟨t.holder, rfl, hq⟩
  by_cases hscope : scope.all (·.contains t.name) = true
  · by_cases hempty : t.holder = t.name
    · -- an empty resonator stays as it is, in the scope or not
      have hself : { t with holder := t.name } = t := by
        obtain ⟨name, qubits, holder⟩ := t
        exact congrArg (Resonator.mk name qubits) hempty.symm
      rw [hself, ite_self, ite_self]
    · rw [if_pos hscope, if_pos]
      rw [Option.all_some, List.contains_iff_mem]
      exact hmem.2 ⟨hempty, hscope⟩
  · rw [if_neg hscope, if_neg]
    rw [Option.all_some, List.contains_iff_mem]
    intro h
    exact hscope (hmem.1 h).2

/-! ### Giving back -/

theorem bringAll_cons_eq_ok_iff : b.bringAll names ((q, r) :: moves) = (.ok out, b') ↔
    ∃ b₁ first more, b.bring q r names = (.ok first, b₁) ∧
      b₁.bringAll names moves = (.ok more, b') ∧ out = first ++ more := by
  rw [bringAll]
  constructor
  · intro h
    rcases hfirst : b.bring q r names with ⟨e | first, b₁⟩
    · rw [hfirst] at h
      simp at h
    · rcases hmore : b₁.bringAll names moves with ⟨e | more, b₂⟩
      · simp [hfirst, hmore] at h
      · simp only [hfirst, hmore, Prod.mk.injEq, Except.ok.injEq] at h
        obtain ⟨rfl, rfl⟩ := h
        exact ⟨b₁, first, more, rfl, hmore, rfl⟩
  · intro h
    obtain ⟨b₁, first, more, hfirst, hmore, rfl⟩ := h
    simp only [hfirst, hmore]

/-- A state that is where it is to be brought only has to leave. -/
theorem plan_of_held (hr : b.holder? r = some q) : b.plan q r = [(q, r)] := by
  rw [plan, hr]
  simp

theorem eq_of_applied?_of_held (hr : b.holder? r = some q) (hne : q ≠ r)
    (applied : b.applied? q r = some b₁) : b₁ = b.setHolder r r := by
  have hoccupied : b.holder? r ≠ some r := by
    rw [hr, ne_eq, Option.some.injEq]
    exact hne
  obtain ⟨-, rfl⟩ := applied?_eq_some_iff.1 applied
  rw [if_neg hoccupied]

/-- A state that leaves does not disturb the states of other resonators. -/
theorem held_setHolder {rest : List (String × String)} (hnew : r ∉ rest.map (·.2))
    (held : ∀ m ∈ (q, r) :: rest, b.holder? m.2 = some m.1 ∧ m.1 ≠ m.2) :
    ∀ m ∈ rest, (b.setHolder r r).holder? m.2 = some m.1 ∧ m.1 ≠ m.2 := by
  intro m hm
  have hother : m.2 ≠ r := by
    intro hmr
    exact hnew (List.mem_map.2 ⟨m, hm, hmr⟩)
  rw [holder?_setHolder, if_neg hother]
  exact held m (List.mem_cons_of_mem _ hm)

section Occupants

variable (distinct : (moves.map (·.2)).Nodup)
  (held : ∀ m ∈ moves, b.holder? m.2 = some m.1 ∧ m.1 ≠ m.2)
include distinct held

/-- A run in which states leave their resonators empties these. -/
theorem eq_emptied_of_applyAll (hrun : b.applyAll moves = (true, b')) :
    b' = b.emptied (some (moves.map (·.2))) := by
  induction moves generalizing b with
  | nil =>
      rw [applyAll_nil] at hrun
      rw [List.map_nil, emptied_nil]
      exact (Prod.mk.inj hrun).2.symm
  | cons move rest ih =>
      obtain ⟨q, r⟩ := move
      obtain ⟨hr, hne⟩ := held (q, r) List.mem_cons_self
      rw [List.map_cons, List.nodup_cons] at distinct
      obtain ⟨next, happly, hrest⟩ := applyAll_cons_iff.1 hrun
      obtain rfl := eq_of_applied?_of_held hr hne happly
      rw [ih distinct.2 (held_setHolder distinct.1 held) hrest, emptied_cons, List.map_cons]

/-- States are given back one after the other, each by one MOVE; the earlier ones do not disturb the
later ones, as they belong to other resonators. -/
theorem bringAll_eq_ok_iff : b.bringAll names moves = (.ok out, b') ↔
    b.applyAll moves = (true, b') ∧ out = moveInstructions names moves := by
  -- every MOVE is made from the bank that the earlier ones leave
  induction moves generalizing b out with
  | nil =>
      rw [bringAll, applyAll_nil, Prod.mk.injEq, Prod.mk.injEq, Except.ok.injEq]
      constructor
      · intro h
        exact ⟨⟨rfl, h.2⟩, h.1.symm⟩
      · intro h
        exact ⟨h.2.symm, h.1.2⟩
  | cons move rest ih =>
      obtain ⟨q, r⟩ := move
      obtain ⟨hr, hne⟩ := held (q, r) List.mem_cons_self
      rw [List.map_cons, List.nodup_cons] at distinct
      have hheld := held_setHolder distinct.1 held
      rw [bringAll_cons_eq_ok_iff, applyAll_cons_iff]
      simp only [bring, plan_of_held hr, perform_eq_ok_iff, applyAll_cons_iff, applyAll_nil]
      constructor
      · intro h
        obtain ⟨b₁, first, more, ⟨⟨next, happly, hnext⟩, rfl⟩, hmore, rfl⟩ := h
        obtain rfl := (Prod.mk.inj hnext).2
        obtain rfl := eq_of_applied?_of_held hr hne happly
        obtain ⟨hrun, rfl⟩ := (ih distinct.2 hheld).1 hmore
        exact ⟨⟨_, happly, hrun⟩, rfl⟩
      · intro h
        obtain ⟨⟨next, happly, hrun⟩, rfl⟩ := h
        obtain rfl := eq_of_applied?_of_held hr hne happly
        exact ⟨_, _, _, ⟨⟨_, happly, rfl⟩, rfl⟩, (ih distinct.2 hheld).2 ⟨hrun, rfl⟩, rfl⟩

end Occupants

section GivingBack

variable (nodup : b.names.Nodup) (scope : Option (List String))
include nodup

theorem occupied_distinct : ((b.occupied scope).map (·.2)).Nodup :=
  nodup.sublist (occupied_names_sublist b scope)

theorem occupied_held : ∀ m ∈ b.occupied scope, b.holder? m.2 = some m.1 ∧ m.1 ≠ m.2 := by
  intro m hm
  obtain ⟨hheld, hne, -⟩ := (mem_occupied_iff nodup).1 hm
  exact ⟨hheld, hne⟩

/-- Giving back takes one MOVE for each occupied resonator in the scope. -/
theorem reset_eq_ok_iff : b.reset scope names = (.ok out, b') ↔
    b.applyAll (b.occupied scope) = (true, b') ∧
      out = moveInstructions names (b.occupied scope) :=
  bringAll_eq_ok_iff (occupied_distinct nodup scope) (occupied_held nodup scope)

theorem eq_emptied_of_applyAll_occupied (hrun : b.applyAll (b.occupied scope) = (true, b')) :
    b' = b.emptied scope := by
  rw [eq_emptied_of_applyAll (occupied_distinct nodup scope) (occupied_held nodup scope) hrun,
    emptied_occupied nodup]

end GivingBack

/-- In a separated bank states can always leave their resonators. -/
theorem exists_applyAll_of_held (hb : b.Separated) (distinct : (moves.map (·.2)).Nodup)
    (held : ∀ m ∈ moves, b.holder? m.2 = some m.1 ∧ m.1 ≠ m.2) :
    ∃ b', b.applyAll moves = (true, b') := by
  induction moves generalizing b with
  | nil => exact ⟨b, applyAll_nil⟩
  | cons move rest ih =>
      obtain ⟨q, r⟩ := move
      obtain ⟨hr, hne⟩ := held (q, r) List.mem_cons_self
      rw [List.map_cons, List.nodup_cons] at distinct
      have happly := hb.applied?_out hr hne
      rw [applyAll_cons_of_applied? happly]
      exact ih (hb.applied happly) distinct.2 (held_setHolder distinct.1 held)

section GivingBackSeparated

variable (hb : b.Separated) (scope : Option (List String))
include hb

theorem applyAll_occupied : b.applyAll (b.occupied scope) = (true, b.emptied scope) := by
  obtain ⟨b', hrun⟩ := exists_applyAll_of_held hb (occupied_distinct hb.nodup scope)
    (occupied_held hb.nodup scope)
  rw [hrun, eq_emptied_of_applyAll_occupied hb.nodup scope hrun]

/-- **Giving back** succeeds, with one MOVE for each occupied resonator in the scope, and empties
the scope. -/
theorem reset_eq (names : Table String String) :
    b.reset scope names = (.ok (moveInstructions names (b.occupied scope)), b.emptied scope) :=
  (reset_eq_ok_iff hb.nodup scope).2 ⟨applyAll_occupied hb scope, rfl⟩

theorem Separated.emptied : (b.emptied scope).Separated :=
  hb.applyAll (applyAll_occupied hb scope)

end GivingBackSeparated

/-! ### Bringing -/

/-- A state that no resonator holds gets into an empty resonator by one MOVE; another state that is
there leaves first. -/
theorem plan_cases (hb : b.Separated) (hq : q ∈ b.qubitsOf r) (free : ∀ s, b.holder? s ≠ some q) :
    (b.plan q r = [(q, r)] ∧ b.applied? q r = some (b.setHolder r q)) ∨
      ∃ h, b.holder? r = some h ∧ h ≠ r ∧ b.plan q r = [(h, r), (q, r)] ∧
        (b.setHolder r r).applied? q r = some (b.setHolder r q) := by
  obtain ⟨h, hr⟩ := tracks_iff.1 (tracks_of_mem_qubitsOf hq)
  have hhq : h ≠ q := by
    intro heq
    subst heq
    exact free r hr
  by_cases hempty : h = r
  · subst hempty
    refine Or.inl ⟨?_, hb.applied?_in hr hq free⟩
    rw [plan, hr]
    simp
  · refine Or.inr ⟨h, hr, hempty, ?_, ?_⟩
    · rw [plan, hr]
      simp [hhq, hempty]
    · rw [← setHolder_setHolder (r := r) (h := r) q]
      refine (hb.applied (hb.applied?_out hr hempty)).applied?_in ?_ ?_ ?_
      · rw [holder?_setHolder, if_pos rfl, hr, Option.map_some]
      · rw [qubitsOf_setHolder]
        exact hq
      · intro s hs
        rw [holder?_setHolder] at hs
        by_cases hsr : s = r
        · rw [if_pos hsr, hsr, hr, Option.map_some, Option.some.injEq] at hs
          exact hb.ne_of_mem_qubitsOf hq hs.symm
        · rw [if_neg hsr] at hs
          exact free s hs

/-- **Bringing** a state that no resonator holds succeeds. -/
theorem applyAll_plan (hb : b.Separated) (hq : q ∈ b.qubitsOf r)
    (free : ∀ s, b.holder? s ≠ some q) :
    b.applyAll (b.plan q r) = (true, b.setHolder r q) := by
  rcases plan_cases hb hq free with ⟨hplan, hin⟩ | ⟨h, hr, hne, hplan, hin⟩
  · rw [hplan, applyAll_cons_of_applied? hin, applyAll_nil]
  · rw [hplan, applyAll_cons_of_applied? (hb.applied?_out hr hne), applyAll_cons_of_applied? hin,
      applyAll_nil]

end StarQpu.ResonatorBank
