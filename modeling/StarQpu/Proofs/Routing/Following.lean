import StarQpu.Proofs.Routing.Sandwich

/-!
# StarQpu.Proofs.Routing.Following

**Following the MOVEs of a list.** A bank `Follows` a list of instructions if it allows every MOVE
in it at the point where the MOVE stands. Whoever walks a list with MOVEs in it walks it along such
a bank: validation, whose occupation agrees with it (`Agrees.exists_follows`), the router, whose own
bank follows both what it reads and what it writes (`Routes.follows`), and removal. What an
instruction meets on the way is its *view*, the states that the components hold before it.
-/

namespace StarQpu

variable {a : DynamicArchitecture} {b b₁ b' : ResonatorBank} {o o' : Occupation} {c : Circuit}
  {i : Instruction} {q r : String} {p : Placement} {l l' source out : List Instruction}
  {mode : MoveValidation}

/-! ### Views -/

namespace Placement

/-- The instructions other than MOVEs, each with the states before it. -/
def views (p : Placement) : List Instruction → List (Instruction × Placement)
  | [] => []
  | i :: rest =>
    if i.isMove then (p.step i).views rest else (i, p) :: (p.step i).views rest

theorem views_cons_of_move (hmove : i.isMove = true) : p.views (i :: l) = (p.step i).views l := by
  rw [views, if_pos hmove]

theorem views_cons_of_not_move (hother : i.isMove = false) :
    p.views (i :: l) = (i, p) :: p.views l := by
  have hnot : ¬ i.isMove = true := by simp [hother]
  rw [views, if_neg hnot, step_of_not_move hother]

theorem views_append (p : Placement) (l l' : List Instruction) :
    p.views (l ++ l') = p.views l ++ (p.after l).views l' := by
  induction l generalizing p with
  | nil => rfl
  | cons i rest ih =>
      cases hmove : i.isMove with
      | true => rw [List.cons_append, views_cons_of_move hmove, views_cons_of_move hmove, ih,
          after_cons]
      | false => rw [List.cons_append, views_cons_of_not_move hmove, views_cons_of_not_move hmove,
          ih, after_cons, step_of_not_move hmove, List.cons_append]

/-- Where nothing is moved every instruction meets the same states. -/
theorem views_of_not_move (hother : ∀ i ∈ l, i.isMove = false) :
    p.views l = l.map fun i => (i, p) := by
  induction l with
  | nil => rfl
  | cons i rest ih =>
      rw [List.forall_mem_cons] at hother
      rw [views_cons_of_not_move hother.1, ih hother.2, List.map_cons]

theorem views_of_move (hmove : ∀ i ∈ l, i.isMove = true) : p.views l = [] := by
  induction l generalizing p with
  | nil => rfl
  | cons i rest ih =>
      rw [List.forall_mem_cons] at hmove
      rw [views_cons_of_move hmove.1, ih hmove.2]

theorem views_ne_nil (hother : i.isMove = false) (hi : i ∈ l) : p.views l ≠ [] := by
  induction l generalizing p with
  | nil => exact absurd hi List.not_mem_nil
  | cons j rest ih =>
      cases hmove : j.isMove with
      | false =>
          rw [views_cons_of_not_move hmove]
          exact List.cons_ne_nil _ _
      | true =>
          rw [views_cons_of_move hmove]
          rcases List.mem_cons.1 hi with rfl | hi
          · rw [hother] at hmove
            exact absurd hmove (by decide)
          · exact ih hi

end Placement

namespace DynamicArchitecture

/-- The qubits that the instruction acts on have their own states. -/
def FindsOwn (a : DynamicArchitecture) (e : Instruction × Placement) : Prop :=
  ∀ q ∈ e.1.qubits, a.isQubit q = true → e.2 q = q

/-- No instruction other than a MOVE acts on a qubit while its state is in a resonator. -/
def Untouched (a : DynamicArchitecture) (l : List Instruction) : Prop :=
  ∀ e ∈ Placement.own.views l, a.FindsOwn e

instance (a : DynamicArchitecture) : DecidablePred a.FindsOwn := fun e =>
  inferInstanceAs (Decidable (∀ q ∈ e.1.qubits, a.isQubit q = true → e.2 q = q))

instance (a : DynamicArchitecture) : DecidablePred a.Untouched := fun l =>
  inferInstanceAs (Decidable (∀ e ∈ Placement.own.views l, a.FindsOwn e))

/-- Without MOVEs nothing is ever away. -/
theorem untouched_of_not_move (hother : ∀ i ∈ l, i.isMove = false) : a.Untouched l := by
  intro e he q _ _
  rw [Placement.views_of_not_move hother, List.mem_map] at he
  obtain ⟨i, -, rfl⟩ := he
  rfl

end DynamicArchitecture

/-! ### Following -/

namespace ResonatorBank

/-- The bank allows the MOVEs of a list, each where it stands, and is another one at the end. -/
inductive Follows : ResonatorBank → List Instruction → ResonatorBank → Prop where
  | done (b : ResonatorBank) : Follows b [] b
  | move {b b₁ b' : ResonatorBank} {i : Instruction} {q r : String} {l : List Instruction}
      (moves : i.action = .move q r) (applied : b.applied? q r = some b₁)
      (rest : Follows b₁ l b') : Follows b (i :: l) b'
  | other {b b' : ResonatorBank} {i : Instruction} {l : List Instruction}
      (other : i.isMove = false) (rest : Follows b l b') : Follows b (i :: l) b'

theorem follows_cons_of_move (hmove : i.action = .move q r) :
    b.Follows (i :: l) b' ↔ ∃ b₁, b.apply q r = .ok b₁ ∧ b₁.Follows l b' := by
  constructor
  · intro h
    cases h with
    | move moves applied rest =>
        obtain ⟨rfl, rfl⟩ := Action.move.inj (hmove.symm.trans moves)
        exact ⟨_, apply_eq_ok_iff.2 applied, rest⟩
    | other other => exact absurd hmove (Instruction.isMove_eq_false_iff.1 other q r)
  · intro h
    obtain ⟨b₁, happly, rest⟩ := h
    exact .move hmove (apply_eq_ok_iff.1 happly) rest

theorem follows_cons_of_not_move (hother : i.isMove = false) :
    b.Follows (i :: l) b' ↔ b.Follows l b' := by
  constructor
  · intro h
    cases h with
    | move moves => exact absurd moves (Instruction.isMove_eq_false_iff.1 hother _ _)
    | other _ rest => exact rest
  · intro rest
    exact .other hother rest

namespace Follows

theorem of_not_move (b : ResonatorBank) (hother : ∀ i ∈ l, i.isMove = false) : b.Follows l b := by
  induction l with
  | nil => exact .done b
  | cons i rest ih =>
      rw [List.forall_mem_cons] at hother
      exact .other hother.1 (ih hother.2)

theorem separated (follows : b.Follows l b') (hb : b.Separated) : b'.Separated := by
  induction follows with
  | done => exact hb
  | move _ applied _ ih => exact ih (hb.applied applied)
  | other _ _ ih => exact ih hb

theorem mem_qubitsOf (follows : b.Follows l b') (hi : i ∈ l) (hmove : i.action = .move q r) :
    q ∈ b.qubitsOf r := by
  -- the bank that meets the MOVE has the same qubits as the one at the beginning
  induction follows with
  | done => exact absurd hi List.not_mem_nil
  | move moves applied _ ih =>
      rcases List.mem_cons.1 hi with rfl | hi
      · rw [hmove] at moves
        obtain ⟨rfl, rfl⟩ := Action.move.inj moves
        exact mem_qubitsOf_of_allows (applied?_eq_some_iff.1 applied).1
      · rw [← qubitsOf_applied applied]
        exact ih hi
  | other other _ ih =>
      rcases List.mem_cons.1 hi with rfl | hi
      · exact absurd hmove (Instruction.isMove_eq_false_iff.1 other q r)
      · exact ih hi

end Follows

end ResonatorBank

/-! ### Validation -/

namespace Occupation

section Agreement

variable (agrees : o.Agrees b)
include agrees

theorem Agrees.atRest (hnone : o.entries = []) : b.AtRest := by
  intro r h hheld
  by_contra hne
  have hget := (agrees r h).2 ⟨hheld, hne⟩
  rw [Table.entries_eq_nil_iff.1 hnone r] at hget
  exact absurd hget (by simp)

/-- A MOVE that validation accepts is one that the bank allows if it knows it at all. -/
theorem Agrees.applied_of_move (hb : b.Separated) (hq : q ∈ b.qubitsOf r)
    (hmove : o.move q r = .ok o') : ∃ b₁, b.applied? q r = some b₁ ∧ o'.Agrees b₁ := by
  have hne := hb.ne_of_mem_qubitsOf hq
  obtain ⟨h, hr⟩ := ResonatorBank.tracks_iff.1 (ResonatorBank.tracks_of_mem_qubitsOf hq)
  rcases move_eq_ok_iff.1 hmove with ⟨hget, hfree, rfl⟩ | ⟨hget, rfl⟩
  · -- it is held nowhere and enters
    have hempty : h = r := by
      by_contra hhr
      rw [(agrees r h).2 ⟨hr, hhr⟩] at hget
      exact absurd hget (by simp)
    rw [hempty] at hr
    rw [agrees.holds_eq_false_iff] at hfree
    have hnone : ∀ s, b.holder? s ≠ some q := fun s hs =>
      ResonatorBank.ne_of_not_tracks (hb.apart hq) hs (hfree s hs)
    exact ⟨_, hb.applied?_in hr hq hnone, agrees.insert hr hne⟩
  · -- the state of the qubit leaves
    obtain ⟨hheld, -⟩ := (agrees r q).1 hget
    exact ⟨_, hb.applied?_out hheld hne, agrees.release hheld⟩

/-- **Validation is followed by a bank**, as far as the bank knows the MOVEs. Every instruction that
validation accepts is tolerated everywhere, or finds the states of its qubits. -/
theorem Agrees.exists_follows (hb : b.Separated)
    (free : ∀ q, a.isQubit q = true → b.tracks q = false)
    (listed : ∀ i ∈ l, ∀ q r, i.action = .move q r → q ∈ b.qubitsOf r)
    (h : Occupation.run a.qubits a.resonators mode o l = .ok o') :
    ∃ b', b.Follows l b' ∧ o'.Agrees b' ∧
      ∀ e ∈ b.placement.views l, mode.tolerates e.1 = true ∨ a.FindsOwn e := by
  -- on the list: the bank makes the step that the occupation makes
  induction l generalizing o b with
  | nil =>
      rw [run_nil, Except.ok.injEq] at h
      exact ⟨b, .done b, h ▸ agrees, fun e he => absurd he List.not_mem_nil⟩
  | cons i rest ih =>
      rw [List.forall_mem_cons] at listed
      rw [run_cons, bind_eq_ok_iff] at h
      obtain ⟨o₁, hstep, hrest⟩ := h
      cases hmove : i.isMove with
      | true =>
          obtain ⟨q, r, haction⟩ := Instruction.isMove_iff.1 hmove
          obtain ⟨-, hqr⟩ := (step_move_eq_ok_iff haction).1 hstep
          obtain ⟨b₁, applied, agrees₁⟩ := agrees.applied_of_move hb (listed.1 q r haction) hqr
          have hlisted := listed.2
          rw [← ResonatorBank.qubitsOf_applied applied] at hlisted
          have hfree := free
          rw [← ResonatorBank.tracks_applied applied] at hfree
          obtain ⟨b', follows, agrees', hviews⟩ :=
            ih agrees₁ (hb.applied applied) hfree hlisted hrest
          refine ⟨b', .move haction applied follows, agrees', ?_⟩
          rw [Placement.views_cons_of_move hmove, Placement.step_of_action haction,
            ← ResonatorBank.placement_applied hb applied]
          exact hviews
      | false =>
          obtain ⟨rfl, hpass⟩ := (step_other_eq_ok_iff hmove).1 hstep
          obtain ⟨b', follows, agrees', hviews⟩ := ih agrees hb free listed.2 hrest
          refine ⟨b', .other hmove follows, agrees', ?_⟩
          rw [Placement.views_cons_of_not_move hmove, List.forall_mem_cons]
          refine ⟨hpass.imp_right fun hnone q hq hqubit => ?_, hviews⟩
          exact (agrees.holds_eq_false_iff_placement hb (free q hqubit)).1 (hnone q hq)

end Agreement

end Occupation

/-- The completed empty mapping makes no difference to validation. -/
theorem validateMoves_plain :
    validateMoves a c (some (RoutingContext.ofMapping a none).mapping) mode =
      validateMoves a c none mode := by
  have hnames : renamed (RoutingContext.ofMapping a none).mapping.inverse = renamed .empty := by
    funext s
    have hplain := RoutingContext.logical_plain (a := a) s
    rw [RoutingContext.logical] at hplain
    rw [renamed_of_get?_eq_none (Table.get?_empty s)]
    exact hplain
  rw [validateMoves, validateMoves, validateMoveList, validateMoveList, Option.map_some,
    Option.getD_some, hnames]
  rfl

/-- A circuit with valid sandwiches is followed from empty resonators to empty resonators. -/
theorem exists_follows_of_validateMoves (checked : a.check = .ok ())
    (moves : a.MovesIntoResonators) (supports : a.supportsMove = true) (hmode : mode ≠ .unchecked)
    (listed : ∀ i ∈ c.instructions, ∀ q r, i.action = .move q r →
      q ∈ (ResonatorBank.ofArchitecture a).qubitsOf r)
    (valid : validateMoves a c none mode = .ok ()) :
    ∃ b', (ResonatorBank.ofArchitecture a).Follows c.instructions b' ∧ b'.AtRest ∧
      ∀ e ∈ Placement.own.views c.instructions, mode.tolerates e.1 = true ∨ a.FindsOwn e := by
  have hb := ResonatorBank.serves_ofArchitecture checked moves
  have hrest := ResonatorBank.atRest_ofArchitecture a
  rw [validateMoves, validateMoveList_eq_ok_iff supports hmode] at valid
  obtain ⟨o, hrun, hnone⟩ := valid
  obtain ⟨b', follows, agrees, hviews⟩ :=
    (Occupation.Agrees.empty hrest).exists_follows hb.toSeparated
      (fun q hq => hb.not_tracks (DynamicArchitecture.not_isResonator_of_isQubit checked hq)) listed
      hrun
  rw [ResonatorBank.placement_own hb.toSeparated hrest] at hviews
  exact ⟨b', follows, agrees.atRest hnone, hviews⟩

/-! ### Routing -/

namespace RoutingContext

/-- The bank of the router follows the instructions that it writes. -/
theorem Routes.follows (run : (ofMapping a none).Routes b source out b') : b.Follows out b' := by
  induction run with
  | done b => exact .done b
  | move applied _ _ ih =>
      rw [logical_plain, logical_plain]
      exact .move rfl applied ih
  | follow _ moves _ applied _ ih =>
      rw [renamed_mapping_plain, renamed_mapping_plain] at applied
      exact .move moves applied ih
  | keep kept _ ih => exact .other kept.other ih
  | reroute rerouted _ ih => exact .other rerouted.not_isMove ih

/-- The MOVEs of the circuit are ones of the bank. -/
theorem Routes.source_mem_qubitsOf (run : (ofMapping a none).Routes b source out b')
    (hi : i ∈ source) (hmove : i.action = .move q r) : q ∈ b.qubitsOf r := by
  induction run with
  | done => exact absurd hi List.not_mem_nil
  | move applied _ _ ih =>
      rw [← ResonatorBank.qubitsOf_applied applied]
      exact ih hi
  | follow _ moves _ applied _ ih =>
      rcases List.mem_cons.1 hi with rfl | hi
      · rw [hmove] at moves
        obtain ⟨rfl, rfl⟩ := Action.move.inj moves
        rw [renamed_mapping_plain, renamed_mapping_plain] at applied
        exact ResonatorBank.mem_qubitsOf_of_allows
          (ResonatorBank.applied?_eq_some_iff.1 applied).1
      · rw [← ResonatorBank.qubitsOf_applied applied]
        exact ih hi
  | keep kept _ ih =>
      rcases List.mem_cons.1 hi with rfl | hi
      · exact absurd hmove (Instruction.isMove_eq_false_iff.1 kept.other q r)
      · exact ih hi
  | reroute rerouted _ ih =>
      rcases List.mem_cons.1 hi with rfl | hi
      · exact absurd hmove (Instruction.isMove_eq_false_iff.1
          (Instruction.not_isMove_of_isCz rerouted.cz) q r)
      · exact ih hi

end RoutingContext

end StarQpu
