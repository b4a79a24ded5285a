import Mathlib.Data.List.Permutation
import StarQpu.Proofs.Bank.Candidates
import StarQpu.Proofs.Bank.Moving
import StarQpu.Proofs.Result
import StarQpu.Proofs.Validation
import StarQpu.Routing.Insertion

/-!
# StarQpu.Proofs.Routing.Rerouting

**A controlled-Z that goes through a resonator.** A pair is chosen (`usablePair?`), and the MOVEs
that give the surplus back and fetch the chosen state are made (`throughResonator_eq_ok_iff`). In a
separated bank only the choice can fail, and the MOVEs lead to one explicit bank
(`ResonatorBank.rerouted`), in which the chosen resonator holds the chosen state and no other one
holds a state of the gate (`throughResonator_eq_ok_iff_rerouted`, `eq_of_mem_holding_rerouted`).
-/

namespace StarQpu

namespace ResonatorBank

variable {b : ResonatorBank} {q r s moved : String} {qubits : List String}

/-- The components whose states may be moved for a gate: those that are held, or else all its
components. -/
def sources (b : ResonatorBank) (qubits : List String) : List String :=
  if (b.holding qubits).isEmpty then qubits else (b.holding qubits).filterMap b.holder?

/-- The resonators that have to give back a state of the gate when it goes through `r`. -/
def surplus (b : ResonatorBank) (qubits : List String) (r : String) : List String :=
  (b.holding qubits).filter (· ≠ r)

/-- The MOVEs that fetch a state unless it is there. -/
def fetching (b : ResonatorBank) (moved r : String) : List (String × String) :=
  if b.holder? r = some moved then [] else b.plan moved r

/-- The MOVEs that let a gate act through `r` on the state of `moved`. -/
def rerouting (b : ResonatorBank) (qubits : List String) (r moved : String) :
    List (String × String) :=
  b.occupied (some (b.surplus qubits r)) ++
    (b.emptied (some (b.surplus qubits r))).fetching moved r

/-- The bank when a gate is about to act through `r` on the state of `moved`. -/
def rerouted (b : ResonatorBank) (qubits : List String) (r moved : String) : ResonatorBank :=
  (b.emptied (some (b.surplus qubits r))).setHolder r moved

theorem moveInstructions_append (names : Table String String)
    (moves more : List (String × String)) : moveInstructions names (moves ++ more) =
      moveInstructions names moves ++ moveInstructions names more := by
  rw [moveInstructions, List.map_append]
  rfl

theorem mem_surplus_iff : s ∈ b.surplus qubits r ↔ s ∈ b.holding qubits ∧ s ≠ r := by
  rw [surplus, List.mem_filter, decide_eq_true_eq]

theorem mem_of_mem_sources (nodup : b.names.Nodup) (h : q ∈ b.sources qubits) : q ∈ qubits := by
  rw [sources] at h
  by_cases hnone : (b.holding qubits).isEmpty = true
  · rw [if_pos hnone] at h
    exact h
  · rw [if_neg hnone, List.mem_filterMap] at h
    obtain ⟨s, hs, hheld⟩ := h
    obtain ⟨p, hp, hmem, -⟩ := (mem_holding_iff nodup).1 hs
    rw [hheld] at hp
    exact Option.some.inj hp ▸ hmem

/-- A qubit of the gate may be moved if no state of the gate is held or its own one is. -/
theorem mem_sources_iff (nodup : b.names.Nodup) (hq : q ∈ qubits) (hfree : b.tracks q = false) :
    q ∈ b.sources qubits ↔ b.holding qubits = [] ∨ ∃ s, b.holder? s = some q := by
  rw [sources]
  by_cases hnone : b.holding qubits = []
  · rw [if_pos (List.isEmpty_iff.2 hnone)]
    exact iff_of_true hq (Or.inl hnone)
  · rw [if_neg (fun h => hnone (List.isEmpty_iff.1 h)), List.mem_filterMap, or_iff_right hnone]
    constructor
    · intro h
      obtain ⟨s, -, hs⟩ := h
      exact ⟨s, hs⟩
    · intro h
      obtain ⟨s, hs⟩ := h
      exact ⟨s, (mem_holding_iff nodup).2 ⟨q, hs, hq, hfree⟩, hs⟩

theorem holder?_rerouted_self (hmoved : moved ∈ b.qubitsOf r) :
    (b.rerouted qubits r moved).holder? r = some moved := by
  obtain ⟨h, hr⟩ := tracks_iff.1 (tracks_of_mem_qubitsOf hmoved)
  rw [rerouted, holder?_setHolder, if_pos rfl, holder?_emptied, hr]
  split <;> rfl

section Rerouting

variable (hb : b.Separated)
include hb

/-- Once the surplus is given back, no resonator but `r` holds a state of the gate. -/
theorem eq_of_holder?_emptied (hq : q ∈ qubits) (hfree : b.tracks q = false)
    (hs : (b.emptied (some (b.surplus qubits r))).holder? s = some q) : s = r := by
  by_contra hne
  obtain ⟨hheld, hnot⟩ := holder?_of_emptied hfree hs
  exact hnot (mem_surplus_iff.2 ⟨(mem_holding_iff hb.nodup).2 ⟨q, hheld, hq, hfree⟩, hne⟩)

/-- When the gate acts, no resonator but `r` holds a state of it. -/
theorem eq_of_mem_holding_rerouted (hs : s ∈ (b.rerouted qubits r moved).holding qubits) :
    s = r := by
  by_contra hne
  have hnodup : (b.rerouted qubits r moved).names.Nodup := by
    rw [rerouted, names_setHolder]
    exact (Separated.emptied hb _).nodup
  obtain ⟨q, hheld, hq, hfree⟩ := (mem_holding_iff hnodup).1 hs
  rw [rerouted, tracks_setHolder, tracks_emptied] at hfree
  rw [rerouted, holder?_setHolder, if_neg hne] at hheld
  exact hne (eq_of_holder?_emptied hb hq hfree hheld)

theorem applyAll_fetching (hmoved : moved ∈ b.qubitsOf r)
    (only : ∀ s, b.holder? s = some moved → s = r) :
    b.applyAll (b.fetching moved r) = (true, b.setHolder r moved) := by
  rw [fetching]
  by_cases hheld : b.holder? r = some moved
  · rw [if_pos hheld, applyAll_nil, setHolder_eq_self hb.nodup hheld]
  · have hfree : ∀ s, b.holder? s ≠ some moved := by
      intro s hs
      rw [only s hs] at hs
      exact hheld hs
    rw [if_neg hheld, applyAll_plan hb hmoved hfree]

/-- The MOVEs for a gate can always be made. -/
theorem applyAll_rerouting (hqubits : moved ∈ qubits) (hmoved : moved ∈ b.qubitsOf r) :
    b.applyAll (b.rerouting qubits r moved) = (true, b.rerouted qubits r moved) := by
  refine applyAll_append_iff.2 ⟨_, applyAll_occupied hb _, ?_⟩
  rw [rerouted, applyAll_fetching (Separated.emptied hb _)]
  · rw [qubitsOf_emptied]
    exact hmoved
  · intro s hs
    exact eq_of_holder?_emptied hb hqubits (hb.apart hmoved) hs

end Rerouting

end ResonatorBank

namespace RoutingContext

variable {x : RoutingContext} {b b' : ResonatorBank} {r moved partner : String} {qubits : Locus}
  {j : Instruction} {pairs : List (String × String)} {lookahead out : List Instruction}

/-! ### The choice -/

/-- The controlled-Z that replaces one on `qubits` can run. -/
def Usable (x : RoutingContext) (qubits : Locus) (r moved : String) (j : Instruction) : Prop :=
  x.substitute? qubits r moved = some j ∧ x.validate j = .ok ()

theorem substitute?_eq_some_iff : x.substitute? qubits r moved = some j ↔
    ∃ partner, qubits.find? (· ≠ moved) = some partner ∧
      j = .cz (x.logical partner) (x.logical r) := by
  rw [substitute?, Option.map_eq_some_iff]
  constructor
  · intro h
    obtain ⟨partner, hfind, hj⟩ := h
    exact ⟨partner, hfind, hj.symm⟩
  · intro h
    obtain ⟨partner, hfind, hj⟩ := h
    exact ⟨partner, hfind, hj.symm⟩

/-- What replaces a controlled-Z is one. -/
theorem Usable.isCz (h : x.Usable qubits r moved j) : j.isCz = true := by
  obtain ⟨partner, -, rfl⟩ := substitute?_eq_some_iff.1 h.1
  rfl

theorem isOk_validate_iff : (x.validate j).isOk = true ↔ x.validate j = .ok () := by
  cases x.validate j with
  | ok => simp [Except.isOk, Except.toBool]
  | error v => simp [Except.isOk, Except.toBool]

theorem usablePair?_cons_of_usable (h : x.Usable qubits r moved j) :
    x.usablePair? qubits ((r, moved) :: pairs) = some (r, moved, j) := by
  rw [usablePair?, h.1]
  simp only [isOk_validate_iff.2 h.2, if_true]

theorem usablePair?_cons_of_not_usable (h : ∀ j, ¬ x.Usable qubits r moved j) :
    x.usablePair? qubits ((r, moved) :: pairs) = x.usablePair? qubits pairs := by
  rw [usablePair?]
  cases hsubstitute : x.substitute? qubits r moved with
  | none => rfl
  | some j =>
      have hinvalid : ¬ (x.validate j).isOk = true := by
        intro hok
        exact h j ⟨hsubstitute, isOk_validate_iff.1 hok⟩
      dsimp only
      rw [if_neg hinvalid]

/-- The chosen pair is usable, and of the usable ones none ranks higher. -/
theorem usablePair?_eq_some (rank : String × String → Nat)
    (sorted : pairs.Pairwise fun p p' => rank p' ≤ rank p)
    (h : x.usablePair? qubits pairs = some (r, moved, j)) :
    (r, moved) ∈ pairs ∧ x.Usable qubits r moved j ∧
      ∀ s m k, (s, m) ∈ pairs → x.Usable qubits s m k → rank (s, m) ≤ rank (r, moved) := by
  -- on the ranked pairs: the first usable one is taken, so none in front of it is usable
  induction pairs with
  | nil => simp [usablePair?] at h
  | cons pair rest ih =>
      obtain ⟨s, m⟩ := pair
      obtain ⟨hfirst, hrest⟩ := List.pairwise_cons.1 sorted
      by_cases husable : ∃ k, x.Usable qubits s m k
      · obtain ⟨k, hk⟩ := husable
        rw [usablePair?_cons_of_usable hk] at h
        obtain ⟨rfl, rfl, rfl⟩ : s = r ∧ m = moved ∧ k = j := by simpa using h
        refine ⟨List.mem_cons_self, hk, ?_⟩
        intro s' m' k' hmem _
        rcases List.mem_cons.1 hmem with heq | hmem
        · exact Nat.le_of_eq (congrArg rank heq)
        · exact hfirst _ hmem
      · rw [usablePair?_cons_of_not_usable fun k hk => husable ⟨k, hk⟩] at h
        obtain ⟨hmem, hj, hbest⟩ := ih hrest h
        refine ⟨List.mem_cons_of_mem _ hmem, hj, ?_⟩
        intro s' m' k' hmem' hk'
        rcases List.mem_cons.1 hmem' with heq | hmem'
        · obtain ⟨rfl, rfl⟩ := Prod.mk.inj heq
          exact absurd ⟨k', hk'⟩ husable
        · exact hbest s' m' k' hmem' hk'

/-- A usable pair among the candidates is enough for a choice. -/
theorem exists_usablePair? (hmem : (r, moved) ∈ pairs) (h : x.Usable qubits r moved j) :
    ∃ s m k, x.usablePair? qubits pairs = some (s, m, k) := by
  induction pairs with
  | nil => simp at hmem
  | cons pair rest ih =>
      obtain ⟨s, m⟩ := pair
      by_cases husable : ∃ k, x.Usable qubits s m k
      · obtain ⟨k, hk⟩ := husable
        exact ⟨s, m, k, usablePair?_cons_of_usable hk⟩
      · rw [usablePair?_cons_of_not_usable fun k hk => husable ⟨k, hk⟩]
        rcases List.mem_cons.1 hmem with heq | hmem
        · obtain ⟨rfl, rfl⟩ := Prod.mk.inj heq
          exact absurd ⟨j, h⟩ husable
        · exact ih hmem

/-- For a gate on two components the partner is the one that is not moved. -/
theorem usable_pair_iff {p q : String} (hmoved : moved ∈ [p, q]) :
    x.Usable [p, q] r moved j ↔ ∃ partner, partner ≠ moved ∧ [p, q].Perm [partner, moved] ∧
      j = .cz (x.logical partner) (x.logical r) ∧ x.validate j = .ok () := by
  rw [Usable, substitute?_eq_some_iff]
  constructor
  · intro h
    obtain ⟨⟨partner, hfind, hj⟩, hvalid⟩ := h
    have hne : partner ≠ moved := by simpa using List.find?_some hfind
    have hpartner : partner ∈ [p, q] := List.mem_of_find?_eq_some hfind
    refine ⟨partner, hne, ?_, hj, hvalid⟩
    simp only [List.mem_cons, List.not_mem_nil, or_false] at hmoved hpartner
    rcases hmoved with rfl | rfl
    · rw [hpartner.resolve_left hne]
      exact List.Perm.swap _ _ []
    · rw [hpartner.resolve_right hne]
  · intro h
    obtain ⟨partner, hne, hperm, hj, hvalid⟩ := h
    refine ⟨⟨partner, ?_, hj⟩, hvalid⟩
    rcases List.perm_pair.1 hperm with heq | heq
    · obtain ⟨rfl, rfl⟩ : partner = p ∧ moved = q := by simpa [eq_comm] using heq
      simp [hne]
    · obtain ⟨rfl, rfl⟩ : moved = p ∧ partner = q := by simpa [eq_comm, and_comm] using heq
      simp [hne]

/-! ### Giving back and fetching -/

theorem giveBack_eq_ok_iff (nodup : b.names.Nodup) {scope : Option (List String)} :
    x.giveBack b scope = .ok (out, b') ↔ b.applyAll (b.occupied scope) = (true, b') ∧
      out = ResonatorBank.moveInstructions x.names (b.occupied scope) := by
  rw [← ResonatorBank.reset_eq_ok_iff nodup, giveBack]
  rcases b.reset scope x.names with ⟨e | moves, next⟩
  · simp
  · simp

theorem giveBack_eq (hb : b.Separated) (scope : Option (List String)) :
    x.giveBack b scope =
      .ok (ResonatorBank.moveInstructions x.names (b.occupied scope), b.emptied scope) := by
  rw [giveBack, ResonatorBank.reset_eq hb]

theorem fetch_eq_ok_iff : x.fetch b moved r = .ok (out, b') ↔
    b.applyAll (b.fetching moved r) = (true, b') ∧
      out = ResonatorBank.moveInstructions x.names (b.fetching moved r) := by
  rw [← ResonatorBank.perform_eq_ok_iff, fetch, ResonatorBank.fetching]
  by_cases hheld : b.holder? r = some moved
  · rw [if_pos hheld, if_pos hheld, ResonatorBank.perform, ResonatorBank.applyAll_nil]
    simp [ResonatorBank.moveInstructions]
  · rw [if_neg hheld, if_neg hheld, ResonatorBank.bring]
    rcases b.perform x.names (b.plan moved r) with ⟨e | moves, next⟩
    · simp
    · simp

theorem throughResonator_eq : x.throughResonator b qubits lookahead =
    (b.choose (b.sources qubits) lookahead).bind fun candidates =>
      match x.usablePair? qubits candidates with
      | none => .error (.transpilation .noValidPair)
      | some (r, moved, j) =>
        (x.giveBack b (some (b.surplus qubits r))).bind fun back =>
          (x.fetch back.2 moved r).bind fun into => .ok (back.1 ++ into.1 ++ [j], into.2) := rfl

/-- Once a pair is chosen, a gate gets through if the MOVEs for it can be made. -/
theorem giveBack_fetch_eq_ok_iff (nodup : b.names.Nodup) :
    ((x.giveBack b (some (b.surplus qubits r))).bind fun back =>
      (x.fetch back.2 moved r).bind fun into => .ok (back.1 ++ into.1 ++ [j], into.2)) =
      .ok (out, b') ↔
    b.applyAll (b.rerouting qubits r moved) = (true, b') ∧
      out = ResonatorBank.moveInstructions x.names (b.rerouting qubits r moved) ++ [j] := by
  rw [ResonatorBank.rerouting, ResonatorBank.applyAll_append_iff,
    ResonatorBank.moveInstructions_append]
  simp only [bind_eq_ok_iff, Prod.exists, giveBack_eq_ok_iff nodup, fetch_eq_ok_iff,
    Except.ok.injEq, Prod.mk.injEq]
  constructor
  · intro h
    obtain ⟨back, b₁, ⟨hback, rfl⟩, into, b₂, ⟨hinto, rfl⟩, rfl, rfl⟩ := h
    obtain rfl := ResonatorBank.eq_emptied_of_applyAll_occupied nodup _ hback
    exact ⟨⟨_, hback, hinto⟩, rfl⟩
  · intro h
    obtain ⟨⟨b₁, hback, hinto⟩, rfl⟩ := h
    obtain rfl := ResonatorBank.eq_emptied_of_applyAll_occupied nodup _ hback
    exact ⟨_, _, ⟨hback, rfl⟩, _, _, ⟨hinto, rfl⟩, rfl, rfl⟩

/-- **Through a resonator** a gate gets exactly when a pair can be chosen for it and the MOVEs for
the pair can be made. -/
theorem throughResonator_eq_ok_iff (nodup : b.names.Nodup) :
    x.throughResonator b qubits lookahead = .ok (out, b') ↔
      ∃ r moved j, x.usablePair? qubits (b.rankedPairs (b.sources qubits) lookahead) =
          some (r, moved, j) ∧
        b.applyAll (b.rerouting qubits r moved) = (true, b') ∧
        out = ResonatorBank.moveInstructions x.names (b.rerouting qubits r moved) ++ [j] := by
  rw [throughResonator_eq, bind_eq_ok_iff]
  constructor
  · intro h
    obtain ⟨candidates, hchoose, h⟩ := h
    obtain ⟨rfl, -⟩ := ResonatorBank.choose_eq_ok_iff.1 hchoose
    cases hpair : x.usablePair? qubits (b.rankedPairs (b.sources qubits) lookahead) with
    | none =>
        rw [hpair] at h
        simp at h
    | some pair =>
        obtain ⟨r, moved, j⟩ := pair
        rw [hpair] at h
        exact ⟨r, moved, j, rfl, (giveBack_fetch_eq_ok_iff nodup).1 h⟩
  · intro h
    obtain ⟨r, moved, j, hpair, hmoves⟩ := h
    refine ⟨_, ResonatorBank.choose_eq_ok_iff.2 ⟨rfl, fun hnil => ?_⟩, ?_⟩
    · -- nothing can be chosen from no candidates
      rw [hnil] at hpair
      simp [usablePair?] at hpair
    · rw [hpair]
      exact (giveBack_fetch_eq_ok_iff nodup).2 hmoves

/-- The chosen state is one of the gate, and can be brought into the chosen resonator. -/
theorem mem_of_usablePair? (nodup : b.names.Nodup)
    (hpair : x.usablePair? qubits (b.rankedPairs (b.sources qubits) lookahead) =
      some (r, moved, j)) :
    moved ∈ b.sources qubits ∧ moved ∈ b.qubitsOf r ∧ x.Usable qubits r moved j := by
  obtain ⟨hmem, husable, -⟩ := usablePair?_eq_some _
    (ResonatorBank.rankedPairs_pairwise b (b.sources qubits) lookahead) hpair
  obtain ⟨hsource, hmoved⟩ := (ResonatorBank.mem_rankedPairs_iff nodup).1 hmem
  exact ⟨hsource, hmoved, husable⟩

/-- In a separated bank the choice is all that can fail. -/
theorem throughResonator_eq_ok_iff_rerouted (hb : b.Separated) :
    x.throughResonator b qubits lookahead = .ok (out, b') ↔
      ∃ r moved j, x.usablePair? qubits (b.rankedPairs (b.sources qubits) lookahead) =
          some (r, moved, j) ∧
        out = ResonatorBank.moveInstructions x.names (b.rerouting qubits r moved) ++ [j] ∧
        b' = b.rerouted qubits r moved := by
  rw [throughResonator_eq_ok_iff hb.nodup]
  constructor
  · intro h
    obtain ⟨r, moved, j, hpair, hmoves, hout⟩ := h
    obtain ⟨hsource, hmoved, -⟩ := mem_of_usablePair? hb.nodup hpair
    rw [ResonatorBank.applyAll_rerouting hb (ResonatorBank.mem_of_mem_sources hb.nodup hsource)
      hmoved] at hmoves
    exact ⟨r, moved, j, hpair, hout, (Prod.mk.inj hmoves).2.symm⟩
  · intro h
    obtain ⟨r, moved, j, hpair, hout, rfl⟩ := h
    obtain ⟨hsource, hmoved, -⟩ := mem_of_usablePair? hb.nodup hpair
    exact ⟨r, moved, j, hpair, ResonatorBank.applyAll_rerouting hb
      (ResonatorBank.mem_of_mem_sources hb.nodup hsource) hmoved, hout⟩

/-- A gate gets through a resonator exactly when a usable pair is among the candidates. -/
theorem exists_throughResonator_iff (hb : b.Separated) :
    (∃ out b', x.throughResonator b qubits lookahead = .ok (out, b')) ↔
      ∃ r moved j, moved ∈ b.sources qubits ∧ moved ∈ b.qubitsOf r ∧ x.Usable qubits r moved j := by
  constructor
  · intro h
    obtain ⟨out, b', h⟩ := h
    obtain ⟨r, moved, j, hpair, -⟩ := (throughResonator_eq_ok_iff hb.nodup).1 h
    exact ⟨r, moved, j, mem_of_usablePair? hb.nodup hpair⟩
  · intro h
    obtain ⟨r, moved, j, hsource, hmoved, husable⟩ := h
    have hpair : (r, moved) ∈ b.rankedPairs (b.sources qubits) lookahead :=
      (ResonatorBank.mem_rankedPairs_iff hb.nodup).2 ⟨hsource, hmoved⟩
    obtain ⟨s, m, k, hchosen⟩ := exists_usablePair? hpair husable
    exact ⟨_, _, (throughResonator_eq_ok_iff_rerouted hb).2 ⟨s, m, k, hchosen, rfl, rfl⟩⟩

end RoutingContext

end StarQpu
