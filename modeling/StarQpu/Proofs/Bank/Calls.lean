import StarQpu.Proofs.Bank.Moving
import StarQpu.Proofs.Bank.Setup

/-!
# StarQpu.Proofs.Bank.Calls

**What no caller can break.** A caller may ask a bank for anything: MOVEs between any names, states
to be brought anywhere, states to be given back in any scope. Some of it is refused, perhaps
halfway, after a state has already left its resonator. But a bank never does anything other than
apply MOVEs that it allows (`exists_applyAll_answer`), so what an allowed MOVE keeps, all calls
keep, answered or refused (`afterCalls_preserves`). A bank made of pairs therefore stays sound, with
its resonators and their qubits, whatever it is asked (`calls_keep_sound`).
-/

namespace StarQpu.ResonatorBank

variable {b b' : ResonatorBank} {q r : String}

/-- A call that may change a bank. -/
inductive Call where
  /-- A single MOVE. -/
  | apply (qubit resonator : String)
  /-- The MOVEs that bring the state of the qubit into the resonator. -/
  | bring (qubit resonator : String) (names : Table String String)
  /-- The MOVEs that give back the states in a scope. -/
  | reset (scope : Option (List String)) (names : Table String String)

/-- The answer to a call, and the bank after it. -/
def answer (b : ResonatorBank) : Call → Except RoutingError (List Instruction) × ResonatorBank
  | .apply q r =>
    match b.apply q r with
    | .ok next => (.ok [], next)
    | .error e => (.error e, b)
  | .bring q r names => b.bring q r names
  | .reset scope names => b.reset scope names

/-- The bank after calls one after the other, answered or refused. -/
def afterCalls (b : ResonatorBank) (calls : List Call) : ResonatorBank :=
  calls.foldl (fun b call => (b.answer call).2) b

/-! ### Calls are runs of MOVEs -/

/-- MOVEs that are refused from some point on are made up to that point. -/
theorem exists_applyAll_made (b : ResonatorBank) (moves : List (String × String)) :
    ∃ made, b.applyAll made = (true, (b.applyAll moves).2) := by
  induction moves generalizing b with
  | nil => exact ⟨[], rfl⟩
  | cons move rest ih =>
      obtain ⟨q, r⟩ := move
      rw [applyAll]
      cases happly : b.applied? q r with
      | none => exact ⟨[], rfl⟩
      | some next =>
          obtain ⟨made, hmade⟩ := ih next
          exact ⟨(q, r) :: made, applyAll_cons_iff.2 ⟨next, happly, hmade⟩⟩

theorem snd_perform (b : ResonatorBank) (names : Table String String)
    (moves : List (String × String)) :
    (b.perform names moves).2 = (b.applyAll moves).2 := by
  unfold perform
  rcases b.applyAll moves with ⟨allowed, next⟩
  cases allowed <;> rfl

theorem exists_applyAll_bring (b : ResonatorBank) (q r : String) (names : Table String String) :
    ∃ made, b.applyAll made = (true, (b.bring q r names).2) := by
  rw [bring, snd_perform]
  exact exists_applyAll_made b _

theorem exists_applyAll_bringAll (b : ResonatorBank) (names : Table String String)
    (moves : List (String × String)) :
    ∃ made, b.applyAll made = (true, (b.bringAll names moves).2) := by
  -- each state is brought from the bank that the ones before it have left
  induction moves generalizing b with
  | nil => exact ⟨[], rfl⟩
  | cons move rest ih =>
      obtain ⟨q, r⟩ := move
      obtain ⟨first, hfirst⟩ := exists_applyAll_bring b q r names
      rcases hbring : b.bring q r names with ⟨e | out, next⟩
      · rw [hbring] at hfirst
        simp only [bringAll, hbring]
        exact ⟨first, hfirst⟩
      · rw [hbring] at hfirst
        obtain ⟨later, hlater⟩ := ih next
        have hlast : (b.bringAll names ((q, r) :: rest)).2 = (next.bringAll names rest).2 := by
          simp only [bringAll, hbring]
          rcases next.bringAll names rest with ⟨e | more, last⟩ <;> rfl
        rw [hlast]
        exact ⟨first ++ later, applyAll_append_iff.2 ⟨next, hfirst, hlater⟩⟩

/-- **A call is a run of allowed MOVEs**, even if it is refused. -/
theorem exists_applyAll_answer (b : ResonatorBank) (call : Call) :
    ∃ made, b.applyAll made = (true, (b.answer call).2) := by
  cases call with
  | apply q r =>
      rw [answer]
      cases happly : b.apply q r with
      | error e => exact ⟨[], rfl⟩
      | ok next =>
          exact ⟨[(q, r)], applyAll_cons_iff.2 ⟨next, apply_eq_ok_iff.1 happly, rfl⟩⟩
  | bring q r names => exact exists_applyAll_bring b q r names
  | reset scope names => exact exists_applyAll_bringAll b names _

/-- What every allowed MOVE preserves of a bank, all calls preserve. -/
theorem afterCalls_preserves {motive : ResonatorBank → Prop}
    (step : ∀ {b b₁ q r}, motive b → b.applied? q r = some b₁ → motive b₁)
    (hb : motive b) (calls : List Call) : motive (b.afterCalls calls) := by
  induction calls generalizing b with
  | nil => exact hb
  | cons call rest ih =>
      obtain ⟨made, hmade⟩ := exists_applyAll_answer b call
      exact ih (applyAll_preserves hmade (fun _ => step) hb)

theorem Sound.afterCalls (hb : b.Sound) (calls : List Call) : (b.afterCalls calls).Sound :=
  afterCalls_preserves (fun hb => hb.applied) hb calls

/-! ### What stays as it is -/

theorem names_applied (applied : b.applied? q r = some b') : b'.names = b.names := by
  obtain ⟨-, rfl⟩ := applied?_eq_some_iff.1 applied
  exact names_setHolder

theorem names_afterCalls (b : ResonatorBank) (calls : List Call) :
    (b.afterCalls calls).names = b.names :=
  afterCalls_preserves (motive := fun u => u.names = b.names)
    (fun h applied => (names_applied applied).trans h) rfl calls

theorem qubitsOf_afterCalls (b : ResonatorBank) (calls : List Call) :
    (b.afterCalls calls).qubitsOf = b.qubitsOf :=
  afterCalls_preserves (motive := fun u => u.qubitsOf = b.qubitsOf)
    (fun h applied => (qubitsOf_applied applied).trans h) rfl calls

/-- In a sound bank every resonator has one holder. -/
theorem Sound.exists_holder (hb : b.Sound) (hr : r ∈ b.names) :
    ∃ h, b.holder? r = some h ∧ (h = r ∨ h ∈ b.qubitsOf r) ∧
      ∀ t ∈ b.resonators, t.name = r → t.holder = h := by
  obtain ⟨h, hheld⟩ := tracks_iff.1 ((mem_names_iff hb.nodup).1 hr)
  refine ⟨h, hheld, hb.holder_mem hheld, fun t ht hname => ?_⟩
  have hown := (holder?_eq_some_iff hb.nodup).2 ⟨t, ht, hname, rfl⟩
  exact Option.some.inj (hown.symm.trans hheld)

/-- A MOVE that is refused changes nothing. -/
theorem answer_apply_error {e : RoutingError}
    (h : b.answer (.apply q r) = (.error e, b')) :
    e = .transpilation .moveNotAllowed ∧ b' = b := by
  unfold answer apply at h
  cases happly : b.applied? q r with
  | some next => simp [happly] at h
  | none =>
      simp only [happly, Prod.mk.injEq, Except.error.injEq] at h
      exact ⟨h.1.symm, h.2.symm⟩

/-- **Whatever is asked of a bank**, with whatever names and however much of it is refused: its
resonators are listed once and stay the same, and so do the qubits with a MOVE to them. Every
resonator has one holder, itself or one of these qubits, and no two resonators hold a state that is
none of their own. A MOVE that is refused leaves the bank exactly as it was. -/
theorem calls_keep_sound (pairs : List (String × List String)) (calls : List Call) :
    ((ofPairs pairs).afterCalls calls).names.Nodup ∧
      ((ofPairs pairs).afterCalls calls).names = (ofPairs pairs).names ∧
      ((ofPairs pairs).afterCalls calls).qubitsOf = (ofPairs pairs).qubitsOf ∧
      (∀ r ∈ (ofPairs pairs).names, ∃ h,
        ((ofPairs pairs).afterCalls calls).holder? r = some h ∧
          (h = r ∨ h ∈ (ofPairs pairs).qubitsOf r) ∧
          ∀ t ∈ ((ofPairs pairs).afterCalls calls).resonators, t.name = r → t.holder = h) ∧
      (∀ r s h, ((ofPairs pairs).afterCalls calls).holder? r = some h →
        ((ofPairs pairs).afterCalls calls).holder? s = some h → h ≠ r → h ≠ s → r = s) ∧
      ∀ q r e next, ((ofPairs pairs).afterCalls calls).answer (.apply q r) = (.error e, next) →
        e = .transpilation .moveNotAllowed ∧ next = (ofPairs pairs).afterCalls calls := by
  have hsound := (sound_ofPairs pairs).afterCalls calls
  have hnames := names_afterCalls (ofPairs pairs) calls
  have hqubits := qubitsOf_afterCalls (ofPairs pairs) calls
  refine ⟨hsound.nodup, hnames, hqubits, fun r hr => ?_, fun r s h => hsound.single,
    fun q r e next h => answer_apply_error h⟩
  rw [← hqubits]
  exact hsound.exists_holder (hnames ▸ hr)

/-- A resonator that is listed as a qubit: the state of `R2` is in `R1` while `R2` holds its own
again. -/
example : ((ofPairs [("R1", ["R2"]), ("R2", ["Q1"])]).afterCalls
    [.apply "Q1" "R2", .apply "R2" "R1", .apply "Q1" "R2"]).resonators.map
      (fun t => (t.name, t.holder)) = [("R1", "R2"), ("R2", "R2")] := by decide

end StarQpu.ResonatorBank
