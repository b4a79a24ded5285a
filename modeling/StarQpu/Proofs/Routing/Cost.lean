import Mathlib.Algebra.Group.Nat.Even
import Mathlib.Data.List.Chain
import StarQpu.Proofs.Routing.Insertion
import StarQpu.Proofs.Routing.Planned
import StarQpu.Proofs.Samples

/-!
# StarQpu.Proofs.Routing.Cost

**What insertion costs.** The potential of a bank is its `load`, the number of states that it holds.
A MOVE that takes a state out lowers it by one, and a state is only fetched for a controlled-Z that
is routed through a resonator, one state for one gate. So from empty resonators to empty resonators
a list costs an even number of MOVEs, at most two for each of its controlled-Z gates, and nothing
else is inserted (`Account`). The MOVEs in front of one instruction are pairwise different, so no
MOVE is made twice in a row.
-/

namespace StarQpu

variable {a : DynamicArchitecture} {b b₁ b₂ b' : ResonatorBank} {c c' : Circuit} {i j : Instruction}
  {existing : Option ExistingMoves} {h q r moved : String} {qubits : Locus}
  {source source' out out' lookahead : List Instruction} {moves : List (String × String)}

namespace ResonatorBank

/-! ### The load of a bank -/

/-- The number of states that resonators hold. -/
def load (b : ResonatorBank) : Nat := b.resonators.countP fun t => t.holder ≠ t.name

/-- Every MOVE that gives a state back lowers the load by one. -/
theorem length_occupied_add_load (b : ResonatorBank) (scope : Option (List String)) :
    (b.occupied scope).length + (b.emptied scope).load = b.load := by
  rw [load, load, occupied, emptied, List.length_filterMap_eq_countP, List.countP_map]
  induction b.resonators with
  | nil => rfl
  | cons t rest ih =>
      -- a resonator in the scope is given back or empty, any other one keeps what it holds
      rw [List.countP_cons, List.countP_cons, List.countP_cons, ← ih]
      by_cases hscope : scope.all (·.contains t.name) = true <;>
        by_cases hempty : t.holder = t.name <;>
        simp only [Function.comp_apply, hscope, hempty] <;> simp <;> omega

theorem load_eq_length_occupied (b : ResonatorBank) : b.load = (b.occupied none).length := by
  rw [load, occupied, List.length_filterMap_eq_countP]
  refine List.countP_congr fun t _ => ?_
  simp

theorem AtRest.load_eq_zero (rest : b.AtRest) (nodup : b.names.Nodup) : b.load = 0 := by
  rw [load_eq_length_occupied, rest.occupied_eq_nil nodup, List.length_nil]

theorem emptied_singleton : b.emptied (some [r]) = b.setHolder r r := by
  rw [← emptied_cons, emptied_nil]

theorem occupied_singleton (nodup : b.names.Nodup) (hr : b.holder? r = some h) :
    b.occupied (some [r]) = if h = r then [] else [(h, r)] := by
  have hmem : ∀ m, m ∈ b.occupied (some [r]) ↔ m = (h, r) ∧ h ≠ r := by
    intro m
    obtain ⟨q, s⟩ := m
    rw [mem_occupied_iff nodup]
    simp only [Option.all_some, List.contains_iff_mem, List.mem_singleton, Prod.mk.injEq]
    constructor
    · rintro ⟨hs, hne, rfl⟩
      rw [hr, Option.some.injEq] at hs
      exact ⟨⟨hs.symm, rfl⟩, hs ▸ hne⟩
    · rintro ⟨⟨rfl, rfl⟩, hne⟩
      exact ⟨hr, hne, rfl⟩
  have distinct : (b.occupied (some [r])).Nodup := (occupied_distinct nodup _).of_map
  by_cases hempty : h = r
  · rw [if_pos hempty]
    exact List.eq_nil_iff_forall_not_mem.2 fun m hm => ((hmem m).1 hm).2 hempty
  · rw [if_neg hempty, ← List.perm_singleton]
    refine (List.perm_ext_iff_of_nodup distinct (List.nodup_singleton _)).2 fun m => ?_
    rw [hmem, List.mem_singleton]
    exact and_iff_left hempty

/-- What a resonator counts for. -/
theorem load_eq (nodup : b.names.Nodup) (hr : b.holder? r = some h) :
    b.load = (b.setHolder r r).load + if h = r then 0 else 1 := by
  have hload := length_occupied_add_load b (some [r])
  rw [occupied_singleton nodup hr, emptied_singleton] at hload
  by_cases hempty : h = r
  · simp [hempty] at hload ⊢
    omega
  · simp [hempty] at hload ⊢
    omega

/-- A resonator with a state of another component in it. -/
theorem load_setHolder (nodup : b.names.Nodup) (hr : b.holder? r = some h) (hne : q ≠ r) :
    (b.setHolder r q).load = (b.setHolder r r).load + 1 := by
  have hq : (b.setHolder r q).holder? r = some q := by
    rw [holder?_setHolder, if_pos rfl, hr, Option.map_some]
  rw [load_eq (names_setHolder.symm ▸ nodup) hq, setHolder_setHolder, if_neg hne]

theorem length_plan (hr : b.holder? r = some h) (hne : h ≠ q) :
    (b.plan q r).length = if h = r then 1 else 2 := by
  rw [plan, hr]
  by_cases hempty : h = r <;> simp [hne, hempty]

/-- At most one state is fetched, and every other MOVE gives one back. -/
theorem length_fetching_add_load (hb : b.Separated) (hmoved : moved ∈ b.qubitsOf r) :
    ∃ k ≤ 1, (b.fetching moved r).length + (b.setHolder r moved).load = b.load + 2 * k := by
  obtain ⟨h, hr⟩ := tracks_iff.1 (tracks_of_mem_qubitsOf hmoved)
  rw [fetching]
  by_cases hheld : b.holder? r = some moved
  · rw [if_pos hheld, setHolder_eq_self hb.nodup hheld]
    exact ⟨0, by omega, by simp⟩
  · have hother : h ≠ moved := by
      rintro rfl
      exact hheld hr
    have hbefore := load_eq hb.nodup hr
    have hafter := load_setHolder hb.nodup hr (hb.ne_of_mem_qubitsOf hmoved)
    -- one MOVE into an empty resonator, two MOVEs past the state that is there
    rw [if_neg hheld, length_plan hr hother, hafter, hbefore]
    refine ⟨1, by omega, ?_⟩
    split <;> omega

/-! ### No MOVE twice -/

theorem mem_plan {m : String × String} (hm : m ∈ b.plan q r) : m.2 = r := by
  unfold plan at hm
  split at hm
  next =>
      split at hm
      next =>
          simp only [List.mem_cons, List.not_mem_nil, or_false] at hm
          rcases hm with rfl | rfl <;> rfl
      next => rw [List.mem_singleton.1 hm]
  next => rw [List.mem_singleton.1 hm]

theorem nodup_plan (b : ResonatorBank) (q r : String) : (b.plan q r).Nodup := by
  unfold plan
  split
  next =>
      split
      next h => simp [h.1]
      next => exact List.nodup_singleton _
  next => exact List.nodup_singleton _

/-- The MOVEs for a gate are pairwise different: each resonator in the surplus gives one state back,
and the resonator of the gate is another one. -/
theorem nodup_rerouting (nodup : b.names.Nodup) (qubits : Locus) (r moved : String) :
    (b.rerouting qubits r moved).Nodup := by
  have distinct : (b.occupied (some (b.surplus qubits r))).Nodup :=
    (occupied_distinct nodup _).of_map
  rw [rerouting, fetching]
  split
  next => simpa using distinct
  next =>
      refine List.nodup_append.2 ⟨distinct, nodup_plan _ moved r, ?_⟩
      rintro ⟨q, s⟩ hback m hinto rfl
      obtain ⟨-, -, hscope⟩ := (mem_occupied_iff nodup).1 hback
      rw [Option.all_some, List.contains_iff_mem, mem_surplus_iff] at hscope
      exact hscope.2 (mem_plan hinto)

end ResonatorBank

namespace RoutingContext

variable {x : RoutingContext}

/-! ### The MOVEs in front of an instruction -/

section Planned

variable (hb : b.Separated)
include hb

/-- For a controlled-Z at most one state is fetched, and for another instruction none. -/
theorem length_planned_add_load (x : RoutingContext) (i : Instruction)
    (lookahead : List Instruction) :
    ∃ k ≤ [i].countP (·.isCz), (x.planned b i lookahead).length +
      (b.applyAll (x.planned b i lookahead)).2.load = b.load + 2 * k := by
  rcases x.planned_cases b i lookahead with
    ⟨-, hplanned⟩ | ⟨-, hplanned⟩ | ⟨hcz, r, moved, j, hpair, hplanned⟩
  · rw [hplanned, ResonatorBank.applyAll_occupied hb,
      ResonatorBank.length_occupied_add_load]
    exact ⟨0, Nat.zero_le _, rfl⟩
  · rw [hplanned, ResonatorBank.applyAll_nil]
    exact ⟨0, Nat.zero_le _, by simp⟩
  · obtain ⟨hsource, hmoved, -⟩ := mem_of_usablePair? hb.nodup hpair
    have hlocus := ResonatorBank.mem_of_mem_sources hb.nodup hsource
    have hback := b.length_occupied_add_load (some (b.surplus (x.locus i) r))
    obtain ⟨k, hk, hinto⟩ := ResonatorBank.length_fetching_add_load
      (ResonatorBank.Separated.emptied hb (some (b.surplus (x.locus i) r)))
      (by rw [ResonatorBank.qubitsOf_emptied]; exact hmoved)
    rw [hplanned, ResonatorBank.applyAll_rerouting hb hlocus hmoved, ResonatorBank.rerouting,
      List.length_append, ResonatorBank.rerouted]
    refine ⟨k, by simpa [hcz] using hk, ?_⟩
    dsimp only
    omega

theorem nodup_planned (x : RoutingContext) (i : Instruction) (lookahead : List Instruction) :
    (x.planned b i lookahead).Nodup := by
  rcases x.planned_cases b i lookahead with
    ⟨-, hplanned⟩ | ⟨-, hplanned⟩ | ⟨-, r, moved, j, -, hplanned⟩
  · rw [hplanned]
    exact (ResonatorBank.occupied_distinct hb.nodup _).of_map
  · rw [hplanned]
    exact List.nodup_nil
  · rw [hplanned]
    exact ResonatorBank.nodup_rerouting hb.nodup _ r moved

end Planned

end RoutingContext

/-! ### Lists of MOVEs -/

/-- The second instruction does not make the MOVE of the first one again. -/
def Differs (i j : Instruction) : Prop := i.isMove = true → j.action ≠ i.action

theorem differs_of_not_move (hi : i.isMove = false) (j : Instruction) : Differs i j := by
  intro hmove
  simp [hi] at hmove

theorem differs_from_not_move (i : Instruction) (hj : j.isMove = false) : Differs i j := by
  intro hmove heq
  obtain ⟨q, r, haction⟩ := Instruction.isMove_iff.1 hmove
  exact Instruction.isMove_eq_false_iff.1 hj q r (heq.trans haction)

namespace ResonatorBank

variable {names : Table String String}

theorem isMove_of_mem_moveInstructions (hi : i ∈ moveInstructions names moves) :
    i.isMove = true := by
  obtain ⟨m, -, rfl⟩ := List.mem_map.1 hi
  rfl

theorem length_moveInstructions (names : Table String String) (moves : List (String × String)) :
    (moveInstructions names moves).length = moves.length := by
  rw [moveInstructions, List.length_map]

theorem countP_isMove_moveInstructions (names : Table String String)
    (moves : List (String × String)) :
    (moveInstructions names moves).countP (·.isMove) = moves.length := by
  rw [List.countP_eq_length.2 fun i hi => isMove_of_mem_moveInstructions hi,
    length_moveInstructions]

/-- Different MOVEs are different instructions, as long as names are not changed. -/
theorem isChain_moveInstructions (distinct : moves.Nodup) :
    (moveInstructions (RoutingContext.ofMapping a none).names moves).IsChain Differs := by
  refine (List.pairwise_map.2 (List.Pairwise.imp ?_ distinct)).isChain
  rintro ⟨q, r⟩ ⟨q', r'⟩ hne - heq
  have plain : ∀ s, renamed (RoutingContext.ofMapping a none).names s = s :=
    RoutingContext.logical_plain
  simp only [Instruction.move, plain, Action.move.injEq] at heq
  exact hne (by rw [heq.1, heq.2])

end ResonatorBank

/-! ### The account of a run -/

/-- What the instructions `out` cost that the router writes for `source`, from one bank to
another. -/
structure Account (b b' : ResonatorBank) (source out : List Instruction) : Prop where
  /-- Every state that is fetched is fetched for a controlled-Z, and costs one MOVE in and one
  out. -/
  fetched : ∃ k ≤ source.countP (·.isCz), out.countP (·.isMove) + b'.load = b.load + 2 * k
  /-- MOVEs are all that is inserted. -/
  length : out.length = source.length + out.countP (·.isMove)
  differs : out.IsChain Differs
  /-- After its MOVEs every instruction is written. -/
  ending : ∀ i ∈ out.getLast?, i.isMove = false

namespace Account

theorem nil (b : ResonatorBank) : Account b b [] [] where
  fetched := ⟨0, by simp⟩
  length := rfl
  differs := .nil
  ending := by simp

theorem append (first : Account b b₁ source out) (second : Account b₁ b' source' out') :
    Account b b' (source ++ source') (out ++ out') where
  fetched := by
    obtain ⟨k, hk, hfirst⟩ := first.fetched
    obtain ⟨m, hm, hsecond⟩ := second.fetched
    rw [List.countP_append, List.countP_append]
    exact ⟨k + m, by omega, by omega⟩
  length := by
    have hfirst := first.length
    have hsecond := second.length
    simp only [List.length_append, List.countP_append]
    omega
  differs := by
    refine List.isChain_append.2 ⟨first.differs, second.differs, fun i hi j _ => ?_⟩
    exact differs_of_not_move (first.ending i hi) j
  ending := by
    intro i hi
    rw [List.getLast?_append, Option.mem_def, Option.or_eq_some_iff] at hi
    rcases hi with hi | ⟨-, hi⟩
    · exact second.ending i hi
    · exact first.ending i hi

end Account

namespace RoutingContext

/-- One instruction and the MOVEs in front of it. -/
theorem account_of_route (hb : b.Separated) (hmove : i.isMove = false)
    (h : (ofMapping a none).route b i ((ofMapping a none).locus i) lookahead = .ok (out, b')) :
    Account b b' [i] out := by
  obtain ⟨j, hj, rfl, rfl⟩ := route_eq_ok_of_not_move hb hmove h
  have hother := not_isMove_of_written hb hmove hj
  have hmoves := ResonatorBank.countP_isMove_moveInstructions (ofMapping a none).names
    ((ofMapping a none).planned b i lookahead)
  obtain ⟨k, hk, hload⟩ := length_planned_add_load hb (ofMapping a none) i lookahead
  refine ⟨⟨k, hk, ?_⟩, ?_, ?_, ?_⟩
  · rw [List.countP_append, hmoves]
    simpa [hother] using hload
  · rw [List.length_append, List.countP_append, ResonatorBank.length_moveInstructions, hmoves]
    simp [hother]
    omega
  · refine List.isChain_append.2 ⟨ResonatorBank.isChain_moveInstructions
      (nodup_planned hb _ i lookahead), .singleton j, fun m _ l hl => ?_⟩
    obtain rfl : j = l := by simpa using hl
    exact differs_from_not_move m hother
  · simpa using hother

/-- A list without MOVEs. -/
theorem account_of_routeAll (hb : b.Separated) (noMoves : ∀ i ∈ source, i.isMove = false)
    (h : (ofMapping a none).routeAll b source
      (source.map (·.mapQubits (renamed (ofMapping a none).mapping))) = .ok (out, b')) :
    Account b b' source out := by
  induction source generalizing b out with
  | nil =>
      rw [List.map_nil, routeAll_nil] at h
      obtain ⟨rfl, rfl⟩ : [] = out ∧ b = b' := by simpa using h
      exact .nil b
  | cons i rest ih =>
      rw [List.forall_mem_cons] at noMoves
      obtain ⟨first, next, more, hfirst, hmore, rfl⟩ := routeAll_cons_eq_ok_iff.1 h
      obtain ⟨-, -, -, hnext⟩ := route_eq_ok_of_not_move hb noMoves.1 hfirst
      have hseparated : next.Separated := hnext ▸ separated_planned hb i _
      exact (account_of_route hb noMoves.1 hfirst).append (ih hseparated noMoves.2 hmore)

end RoutingContext

/-! ### The whole circuit -/

/-- What a list costs from empty resonators to empty resonators. -/
structure Costs (source out : List Instruction) : Prop where
  paired : ∃ k ≤ source.countP (·.isCz), out.countP (·.isMove) = 2 * k
  length : out.length = source.length + out.countP (·.isMove)
  differs : out.IsChain Differs

/-- A list without MOVEs that stays as it is costs nothing. -/
theorem Costs.self (noMoves : ∀ i ∈ source, i.isMove = false) : Costs source source := by
  have hzero : source.countP (·.isMove) = 0 := by
    simpa [List.countP_eq_zero] using noMoves
  refine ⟨⟨0, Nat.zero_le _, hzero⟩, by omega, ?_⟩
  refine List.Pairwise.isChain (List.pairwise_of_forall_mem_list fun i hi j _ => ?_)
  exact differs_of_not_move (noMoves i hi) j

/-- With the states given back that are left at the end. -/
theorem Account.costs (account : Account b b' source out) (hload : b.load = 0)
    (nodup : b'.names.Nodup) : Costs source
      (out ++ ResonatorBank.moveInstructions (RoutingContext.ofMapping a none).names
        (b'.occupied none)) := by
  have hmoves := ResonatorBank.countP_isMove_moveInstructions
    (RoutingContext.ofMapping a none).names (b'.occupied none)
  obtain ⟨k, hk, hfetched⟩ := account.fetched
  rw [hload, b'.load_eq_length_occupied] at hfetched
  refine ⟨⟨k, hk, ?_⟩, ?_, ?_⟩
  · rw [List.countP_append, hmoves]
    omega
  · rw [List.length_append, List.countP_append, ResonatorBank.length_moveInstructions, hmoves,
      account.length]
    omega
  · refine List.isChain_append.2 ⟨account.differs, ResonatorBank.isChain_moveInstructions
      (ResonatorBank.occupied_distinct nodup _).of_map, fun i hi j _ => ?_⟩
    exact differs_of_not_move (account.ending i hi) j

theorem costs_of_insertMoves (checked : a.check = .ok ()) (moves : a.MovesIntoResonators)
    (noMoves : c.containsMoves = false)
    (h : (insertMoves c a existing none).result = .ok c') :
    Costs c.instructions c'.instructions := by
  have hother := Circuit.containsMoves_eq_false_iff.1 noMoves
  cases hsupport : (ResonatorBank.ofArchitecture a).supportsMove with
  | false =>
      rw [result_insertMoves_of_not_supportsMove noMoves hsupport, Except.ok.injEq] at h
      subst h
      exact .self hother
  | true =>
      have hb := (ResonatorBank.serves_ofArchitecture checked moves).toSeparated
      rw [result_insertMoves noMoves hsupport, bind_eq_ok_iff] at h
      obtain ⟨out, hinsert, h⟩ := h
      obtain ⟨-, rfl⟩ := Circuit.withBody_eq_ok_iff.1 h
      obtain ⟨hmapped, first, b, hrouted, rfl⟩ :=
        (RoutingContext.insertInto_eq_ok_iff hb).1 hinsert
      have hlast := (RoutingContext.routes_of_routeAll hb hmapped hrouted).separated hb
      exact (RoutingContext.account_of_routeAll hb hother hrouted).costs
        ((ResonatorBank.atRest_ofArchitecture a).load_eq_zero hb.nodup) hlast.nodup

/-- **What insertion costs.** A circuit without MOVEs gets an even number of MOVEs, at most two for
each of its controlled-Z gates, and nothing else; and no MOVE is made twice in a row. -/
theorem insertMoves_cost (checked : a.check = .ok ()) (moves : a.MovesIntoResonators)
    (noMoves : c.containsMoves = false)
    (h : (insertMoves c a existing none).result = .ok c') :
    Even (c'.instructions.countP (·.isMove)) ∧
      c'.instructions.countP (·.isMove) ≤ 2 * c.instructions.countP (·.isCz) ∧
      c'.instructions.length ≤ c.instructions.length + 2 * c.instructions.countP (·.isCz) ∧
      c'.instructions.IsChain Differs := by
  obtain ⟨⟨k, hk, hpaired⟩, hlength, hdiffers⟩ := costs_of_insertMoves checked moves noMoves h
  refine ⟨⟨k, by omega⟩, by omega, by omega, hdiffers⟩

theorem insertMoves_cost_chain :
    Even ((routedChainOn "QB1").instructions.countP (·.isMove)) ∧
      (routedChainOn "QB1").instructions.countP (·.isMove) ≤
        2 * (chainOn "QB1").instructions.countP (·.isCz) ∧
      (routedChainOn "QB1").instructions.length ≤
        (chainOn "QB1").instructions.length + 2 * (chainOn "QB1").instructions.countP (·.isCz) ∧
      (routedChainOn "QB1").instructions.IsChain Differs := by
  have hrouted : (insertMoves (chainOn "QB1") (starArchitecture 3) none none).result =
      .ok (routedChainOn "QB1") := by cbv
  exact insertMoves_cost (check_star 3) (movesIntoResonators_star 3) (by cbv) hrouted

end StarQpu
