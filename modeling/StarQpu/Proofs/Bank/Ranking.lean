import StarQpu.Proofs.Bank.Candidates

/-!
# StarQpu.Proofs.Bank.Ranking

**The order of the candidates, completely.** Of two pairs of a resonator and a qubit the better one
is the one with more controlled-Z gates to come on its qubit; of equally good ones the one whose
qubit is listed first, and then the one whose resonator is tracked first (`Precedes`). The pairs are
listed in this second order before they are sorted by the first one (`pairs_pairwise`), and sorting
is stable. No two pairs tie, so the order leaves one way to list the candidates, and choosing
returns it (`choose_exact`).
-/

namespace StarQpu.ResonatorBank

variable {b : ResonatorBank} {q r : String} {qubits : List String} {lookahead : List Instruction}
  {candidates : List (String × String)} {x y : String × String}

/-! ### The gates to come -/

/-- The longest beginning of a list in which every instruction on the qubit is a controlled-Z. -/
def czStretch (qubit : String) (l : List Instruction) : List Instruction :=
  l.takeWhile fun i => !i.qubits.contains qubit || i.isCz

/-- The number of controlled-Z gates on the qubit in that beginning. -/
def czToCome (qubit : String) (l : List Instruction) : Nat :=
  (czStretch qubit l).countP fun i => i.isCz && i.qubits.contains qubit

theorem czScore_eq (qubit : String) (l : List Instruction) :
    czScore qubit l = czToCome qubit l := by
  fun_induction czScore qubit l with
  | case1 => rfl
  | case2 i rest hon hcz ih =>
      rw [ih, czToCome, czToCome, czStretch, czStretch,
        List.takeWhile_cons_of_pos (by rw [hcz, Bool.or_true]),
        List.countP_cons_of_pos (by rw [hcz, hon, Bool.and_self])]
  | case3 i rest hon hcz =>
      rw [czToCome, czStretch, List.takeWhile_cons_of_neg (by simpa [hcz] using hon),
        List.countP_nil]
  | case4 i rest hon ih =>
      rw [Bool.not_eq_true] at hon
      rw [ih, czToCome, czToCome, czStretch, czStretch,
        List.takeWhile_cons_of_pos (by rw [hon]; rfl),
        List.countP_cons_of_neg (by rw [hon, Bool.and_false]; exact Bool.false_ne_true)]

/-! ### The order of the pairs -/

/-- Is the qubit of the first pair listed earlier, or the same and its resonator tracked earlier? -/
def Listed (b : ResonatorBank) (qubits : List String) (x y : String × String) : Prop :=
  qubits.idxOf x.2 < qubits.idxOf y.2 ∨
    x.2 = y.2 ∧ b.names.idxOf x.1 < b.names.idxOf y.1

theorem Listed.asymm (h : b.Listed qubits x y) : ¬ b.Listed qubits y x := by
  intro h'
  rcases h with h | ⟨heq, h⟩ <;> rcases h' with h' | ⟨heq', h'⟩
  · omega
  · rw [heq'] at h
    omega
  · rw [heq] at h'
    omega
  · omega

theorem pairwise_idxOf {l : List String} (nodup : l.Nodup) :
    l.Pairwise fun p q => l.idxOf p < l.idxOf q := by
  rw [List.pairwise_iff_getElem]
  intro i j hi hj hij
  rwa [nodup.idxOf_getElem i hi, nodup.idxOf_getElem j hj]

/-- What is added one after the other stands in the order in which it is met first. -/
theorem pairwise_addMissing {known met extra : List String} (hmet : ∀ q, q ∈ known ↔ q ∈ met)
    (h : known.Pairwise fun p q => (met ++ extra).idxOf p < (met ++ extra).idxOf q) :
    (addMissing known extra).Pairwise
      fun p q => (met ++ extra).idxOf p < (met ++ extra).idxOf q := by
  -- on what is left to add; what was met grows by what is added
  induction extra generalizing known met with
  | nil => exact h
  | cons q rest ih =>
      have hshift : met ++ q :: rest = (met ++ [q]) ++ rest := by simp
      rw [addMissing]
      by_cases hq : q ∈ known
      · rw [if_pos (List.contains_iff_mem.2 hq), hshift]
        refine ih (fun p => ?_) (hshift ▸ h)
        rw [hmet, List.mem_append, List.mem_singleton]
        constructor
        · exact Or.inl
        · intro hp
          rcases hp with hp | rfl
          · exact hp
          · exact (hmet p).1 hq
      · rw [if_neg (by simpa using hq), hshift]
        refine ih (fun p => by rw [List.mem_append, List.mem_append, hmet]) ?_
        rw [← hshift]
        refine List.pairwise_append.2 ⟨h, List.pairwise_singleton _ q, fun p hp p' hp' => ?_⟩
        rw [List.mem_singleton.1 hp', List.idxOf_append_of_mem ((hmet p).1 hp),
          List.idxOf_append_of_notMem fun hold => hq ((hmet q).2 hold)]
        exact Nat.lt_add_right _ (List.idxOf_lt_length_of_mem ((hmet p).1 hp))

theorem pairs_pairwise (nodup : b.names.Nodup) : (b.pairs qubits).Pairwise (b.Listed qubits) := by
  rw [pairs, reachable, List.flatMap_map, List.pairwise_flatMap]
  constructor
  · intro q _
    have hsub : ((b.resonators.filter (·.qubits.contains q)).map (·.name)).Sublist b.names :=
      List.filter_sublist.map _
    rw [List.pairwise_map]
    exact ((pairwise_idxOf nodup).sublist hsub).imp fun hlt => Or.inr ⟨rfl, hlt⟩
  · refine (@pairwise_addMissing [] [] qubits (fun _ => Iff.rfl) List.Pairwise.nil).imp ?_
    intro p q hpq x hx y hy
    obtain ⟨r, -, rfl⟩ := List.mem_map.1 hx
    obtain ⟨s, -, rfl⟩ := List.mem_map.1 hy
    exact Or.inl hpq

/-- Is the first pair the better candidate? -/
def Precedes (b : ResonatorBank) (qubits : List String) (lookahead : List Instruction)
    (x y : String × String) : Prop :=
  czToCome y.2 lookahead < czToCome x.2 lookahead ∨
    czToCome x.2 lookahead = czToCome y.2 lookahead ∧ b.Listed qubits x y

theorem Precedes.asymm (h : b.Precedes qubits lookahead x y) :
    ¬ b.Precedes qubits lookahead y x := by
  intro h'
  rcases h with h | ⟨heq, h⟩ <;> rcases h' with h' | ⟨heq', h'⟩
  · omega
  · omega
  · omega
  · exact h.asymm h'

/-- All pairs of a resonator and one of the qubits that has a MOVE to it, each once and the better
one in front. -/
structure Ranks (b : ResonatorBank) (qubits : List String) (lookahead : List Instruction)
    (candidates : List (String × String)) : Prop where
  mem_iff : ∀ r q, (r, q) ∈ candidates ↔ q ∈ qubits ∧ q ∈ b.qubitsOf r
  nodup : candidates.Nodup
  ordered : candidates.Pairwise (b.Precedes qubits lookahead)

theorem ranks_rankedPairs (nodup : b.names.Nodup) :
    b.Ranks qubits lookahead (b.rankedPairs qubits lookahead) := by
  have hordered : (b.rankedPairs qubits lookahead).Pairwise (b.Precedes qubits lookahead) := by
    refine (rankedPairs_stable (pairs_pairwise nodup)).imp ?_
    intro x y h
    simp only [czScore_eq] at h
    rcases lt_or_eq_of_le h.1 with hlt | heq
    · exact Or.inl hlt
    · exact Or.inr ⟨heq.symm, h.2 heq.symm⟩
  refine ⟨fun r q => mem_rankedPairs_iff nodup, hordered.imp ?_, hordered⟩
  rintro x y h rfl
  exact h.asymm h

/-- There is only one way to rank the pairs. -/
theorem Ranks.eq {candidates' : List (String × String)} (h : b.Ranks qubits lookahead candidates)
    (h' : b.Ranks qubits lookahead candidates') : candidates = candidates' := by
  have hirrefl : Std.Irrefl (b.Precedes qubits lookahead) := ⟨fun _ hx => hx.asymm hx⟩
  have hantisymm : Std.Antisymm (b.Precedes qubits lookahead) :=
    ⟨fun _ _ hxy hyx => absurd hyx hxy.asymm⟩
  refine h.ordered.eq_of_mem_iff h'.ordered fun p => ?_
  obtain ⟨r, q⟩ := p
  rw [h.mem_iff, h'.mem_iff]

theorem choose_eq_error_iff {e : RoutingError} : b.choose qubits lookahead = .error e ↔
    e = .transpilation (.noSharedResonator qubits) ∧ b.rankedPairs qubits lookahead = [] := by
  rw [choose]
  cases b.rankedPairs qubits lookahead with
  | nil => simp [eq_comm]
  | cons p ps => simp

/-- **Choosing ranks every possible pair once.** In a bank made of pairs it fails exactly when none
of the qubits has a MOVE to a resonator; otherwise what it returns is the ranking of the pairs. -/
theorem choose_exact (ps : List (String × List String)) (qubits : List String)
    (lookahead : List Instruction) :
    (∀ e, (ofPairs ps).choose qubits lookahead = .error e ↔
      e = .transpilation (.noSharedResonator qubits) ∧
        ∀ q ∈ qubits, ∀ r, q ∉ (ofPairs ps).qubitsOf r) ∧
    ∀ candidates, (ofPairs ps).choose qubits lookahead = .ok candidates ↔
      (∃ q ∈ qubits, ∃ r, q ∈ (ofPairs ps).qubitsOf r) ∧
        (ofPairs ps).Ranks qubits lookahead candidates := by
  have hranks : (ofPairs ps).Ranks qubits lookahead ((ofPairs ps).rankedPairs qubits lookahead) :=
    ranks_rankedPairs (nodup_names_ofPairs ps)
  have hnone : (ofPairs ps).rankedPairs qubits lookahead = [] ↔
      ∀ q ∈ qubits, ∀ r, q ∉ (ofPairs ps).qubitsOf r := by
    rw [List.eq_nil_iff_forall_not_mem]
    constructor
    · intro h q hq r hr
      exact h (r, q) ((hranks.mem_iff r q).2 ⟨hq, hr⟩)
    · intro h p hp
      obtain ⟨hq, hr⟩ := (hranks.mem_iff p.1 p.2).1 hp
      exact h p.2 hq p.1 hr
  refine ⟨fun e => ?_, fun candidates => ?_⟩
  · rw [choose_eq_error_iff, hnone]
  · have hsome : (ofPairs ps).rankedPairs qubits lookahead ≠ [] ↔
        ∃ q ∈ qubits, ∃ r, q ∈ (ofPairs ps).qubitsOf r := by
      rw [Ne, hnone]
      push Not
      rfl
    rw [choose_eq_ok_iff]
    constructor
    · intro h
      obtain ⟨rfl, hne⟩ := h
      exact ⟨hsome.1 hne, hranks⟩
    · intro h
      obtain ⟨hpair, hcandidates⟩ := h
      obtain rfl := hcandidates.eq hranks
      exact ⟨rfl, hsome.2 hpair⟩

end StarQpu.ResonatorBank
