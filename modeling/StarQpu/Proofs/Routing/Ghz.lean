import StarQpu.Proofs.Routing.Clash
import StarQpu.Proofs.Routing.Hub

/-!
# StarQpu.Proofs.Routing.Ghz

**A GHZ circuit takes one sandwich.** All its gates act on its first qubit, so the state of this
qubit is the one to move: at the first gate it has at least as many gates to come as the other one
(`czScore_le`), and then nothing but the measurement at the end needs it outside. So it enters the
resonator in front of the first gate, stays there for all others (`Yields.steps`) and leaves it for
the measurement. Removing the MOVEs puts it back into every gate, as the second component.
-/

namespace StarQpu

variable {n : Nat} {first target h r : String} {targets qubits : List String}
  {b' : ResonatorBank} {i : Instruction} {source out : List Instruction} {angle phase : Angle}

/-- A controlled-Z with its components the other way round; another instruction as it is. -/
def turned (i : Instruction) : Instruction :=
  match i.action with
  | .cz p q => { i with action := .cz q p }
  | _ => i

/-- The instructions of a GHZ state on a star: the resonator stands for the first qubit in all
gates. -/
def routedGhz (first target : String) (targets : List String) : List Instruction :=
  [⟨.prx first quarter quarter, none⟩, ⟨.prx target quarter quarter, none⟩,
      .move first starResonator, .cz target starResonator,
      ⟨.prx target backQuarter quarter, none⟩] ++
    ((targets.flatMap (ghzStep starResonator)).map turned ++
      [.move first starResonator, .measure (first :: target :: targets) "m"])

/-! ### Routing -/

namespace RoutingContext

/-- The turn behind a gate ends the gates to come on its second qubit. -/
theorem czScore_le : ResonatorBank.czScore target
      (.cz first target :: ⟨.prx target angle phase, none⟩ :: source) ≤
    ResonatorBank.czScore first (.cz first target :: out) := by
  have hone : ResonatorBank.czScore target (⟨.prx target angle phase, none⟩ :: source) = 0 := by
    simp [ResonatorBank.czScore, Instruction.qubits, Action.qubits, Instruction.isCz]
  rw [czScore_cons_of_isCz (i := .cz first target) rfl,
    czScore_cons_of_isCz (i := .cz first target) rfl, if_pos, if_pos, hone]
  · exact Nat.succ_le_succ (Nat.zero_le _)
  · exact List.mem_cons_self
  · exact List.mem_cons_of_mem _ List.mem_cons_self

/-- The state stays in the resonator over all further steps. -/
theorem Yields.steps (hqubits : ∀ q, q ∈ qubits ↔ q ∈ qubitNames n)
    (hfirst : first ∈ qubitNames n) (htargets : ∀ t ∈ targets, t ∈ qubitNames n)
    (hnew : first ∉ targets)
    (more : Yields (starArchitecture n) (.hub qubits first) source out b') :
    Yields (starArchitecture n) (.hub qubits first) (targets.flatMap (ghzStep first) ++ source)
      ((targets.flatMap (ghzStep starResonator)).map turned ++ out) b' := by
  -- the bank is the same in front of every step
  induction targets with
  | nil => exact more
  | cons target rest ih =>
      rw [List.forall_mem_cons] at htargets
      rw [List.mem_cons, not_or] at hnew
      rw [List.flatMap_cons, List.flatMap_cons, List.map_append, List.append_assoc,
        List.append_assoc]
      exact .rotation htargets.1 hnew.1
        (.gate hqubits hfirst htargets.1 hnew.1
          (.rotation htargets.1 hnew.1 (ih htargets.2 hnew.2)))

/-- **The router takes one sandwich.** -/
theorem yields_ghz (hqubits : ∀ q, q ∈ qubits ↔ q ∈ qubitNames n)
    (hmem : ∀ q ∈ first :: target :: targets, q ∈ qubitNames n) (hnew : first ∉ target :: targets) :
    Yields (starArchitecture n) (.hub qubits starResonator)
      (ghzInstructions (first :: target :: targets)) (routedGhz first target targets)
      (.hub qubits starResonator) := by
  rw [List.forall_mem_cons, List.forall_mem_cons] at hmem
  rw [List.mem_cons, not_or] at hnew
  obtain ⟨hfirst, htarget, htargets⟩ := hmem
  have hlast : Yields (starArchitecture n) (.hub qubits first)
      [.measure (first :: target :: targets) "m"]
      [.move first starResonator, .measure (first :: target :: targets) "m"]
      (.hub qubits starResonator) :=
    .ending hqubits hfirst rfl rfl List.mem_cons_self routeAll_nil
  rw [ghzInstructions, List.flatMap_cons, List.cons_append, List.append_assoc]
  exact .rotation hfirst (ne_starResonator hfirst).symm
    (.rotation htarget (ne_starResonator htarget).symm
      (.firstGate hqubits hfirst htarget hnew.1 czScore_le
        (.rotation htarget hnew.1 (.steps hqubits hfirst htargets hnew.2 hlast))))

end RoutingContext

/-! ### Removal -/

theorem Clears.steps (htargets : ∀ t ∈ targets, t ≠ starResonator) (hh : h ≠ starResonator)
    (more : Clears (.hub qubits h) source out) :
    Clears (.hub qubits h) ((targets.flatMap (ghzStep starResonator)).map turned ++ source)
      ((targets.flatMap (ghzStep h)).map turned ++ out) := by
  induction targets with
  | nil => exact more
  | cons target rest ih =>
      rw [List.forall_mem_cons] at htargets
      have hqubits : ∀ q ∈ [target], q ≠ starResonator := List.forall_mem_singleton.2 htargets.1
      rw [List.flatMap_cons, List.flatMap_cons, List.map_append, List.map_append,
        List.append_assoc, List.append_assoc]
      exact .keep rfl hqubits (.gate htargets.1 hh (.keep rfl hqubits (ih htargets.2)))

/-- The turned instructions, one after the other. -/
theorem map_turned_ghzInstructions (first target : String) (targets : List String) :
    (ghzInstructions (first :: target :: targets)).map turned =
      ⟨.prx first quarter quarter, none⟩ :: ⟨.prx target quarter quarter, none⟩ ::
        .cz target first :: ⟨.prx target backQuarter quarter, none⟩ ::
        ((targets.flatMap (ghzStep first)).map turned ++
          [.measure (first :: target :: targets) "m"]) := by
  rw [ghzInstructions, List.flatMap_cons, List.cons_append, List.append_assoc, List.map_cons,
    List.map_append, List.map_append]
  rfl

/-- **Removing the sandwich** leaves the gates turned round. -/
theorem clears_routedGhz (hfree : ∀ q ∈ first :: target :: targets, q ≠ starResonator) :
    Clears (.hub [first] starResonator) (routedGhz first target targets)
      ((ghzInstructions (first :: target :: targets)).map turned) := by
  have hlist := List.forall_mem_cons.1 hfree
  have hrest := List.forall_mem_cons.1 hlist.2
  have hfirst : ∀ q ∈ [first], q ≠ starResonator := List.forall_mem_singleton.2 hlist.1
  have htarget : ∀ q ∈ [target], q ≠ starResonator := List.forall_mem_singleton.2 hrest.1
  have apart : starResonator ∉ [first] := fun h => hfirst _ h rfl
  have hlast := Clears.move (ResonatorBank.applied?_hub_out List.mem_cons_self apart)
    (Clears.keep (i := .measure (first :: target :: targets) "m") rfl hfree clears_nil)
  have hsteps := Clears.steps hrest.2 hlist.1 hlast
  have hgate := Clears.gate hrest.1 hlist.1
    (.keep (i := ⟨.prx target backQuarter quarter, none⟩) rfl htarget hsteps)
  rw [map_turned_ghzInstructions]
  exact .keep rfl hfirst (.keep rfl htarget
    (.move (ResonatorBank.applied?_hub_in List.mem_cons_self apart) hgate))

/-! ### What is in the routed circuit -/

theorem not_isMove_of_mem_steps (targets : List String) :
    ∀ i ∈ (targets.flatMap (ghzStep r)).map turned, i.isMove = false := by
  simp only [List.mem_map, List.mem_flatMap, forall_exists_index, and_imp]
  rintro _ j t - hj rfl
  simp only [ghzStep, List.mem_cons, List.not_mem_nil, or_false] at hj
  rcases hj with rfl | rfl | rfl <;> rfl

theorem filter_isCz_steps (targets : List String) :
    ((targets.flatMap (ghzStep r)).map turned).filter (·.isCz) = targets.map (.cz · r) := by
  induction targets with
  | nil => rfl
  | cons t rest ih =>
      rw [List.flatMap_cons, List.map_append, List.filter_append, ih]
      rfl

theorem length_flatMap_ghzStep (targets : List String) :
    (targets.flatMap (ghzStep r)).length = 3 * targets.length := by
  simp [List.length_flatMap, ghzStep, Nat.mul_comm]

theorem length_routedGhz (first target : String) (targets : List String) :
    (routedGhz first target targets).length = 3 * (targets.length + 2) + 1 := by
  simp only [routedGhz, List.length_cons, List.length_append, List.length_map,
    length_flatMap_ghzStep, List.length_nil]
  omega

theorem filter_isMove_routedGhz (first target : String) (targets : List String) :
    (routedGhz first target targets).filter (·.isMove) =
      [.move first starResonator, .move first starResonator] := by
  have hsteps : ((targets.flatMap (ghzStep starResonator)).map turned).filter (·.isMove) = [] :=
    List.filter_eq_nil_iff.2 fun i hi => by simp [not_isMove_of_mem_steps targets i hi]
  rw [routedGhz, List.filter_append, List.filter_append, hsteps]
  rfl

theorem filter_isCz_routedGhz (first target : String) (targets : List String) :
    (routedGhz first target targets).filter (·.isCz) =
      (target :: targets).map (.cz · starResonator) := by
  rw [routedGhz, List.filter_append, List.filter_append, filter_isCz_steps]
  exact congrArg (List.cons _) (List.append_nil _)

/-- The bank of the MOVEs of the sandwich. -/
theorem ofInstructions_routedGhz (first target : String) (targets : List String) :
    ResonatorBank.ofInstructions (routedGhz first target targets) =
      .hub [first] starResonator := by
  have hsteps : ((targets.flatMap (ghzStep starResonator)).map turned).filterMap
      ResonatorBank.pairOfMove? = [] := by
    refine List.filterMap_eq_nil_iff.2 fun i hi => ?_
    refine Option.eq_none_iff_forall_ne_some.2 fun pair h => ?_
    obtain ⟨q, haction, -⟩ := ResonatorBank.pairOfMove?_eq_some_iff.1 h
    exact Instruction.isMove_eq_false_iff.1 (not_isMove_of_mem_steps targets i hi) _ _ haction
  rw [ResonatorBank.ofInstructions, routedGhz, List.filterMap_append, List.filterMap_append, hsteps]
  show ResonatorBank.ofPairs [(starResonator, [first]), (starResonator, [first])] = _
  simp [ResonatorBank.ofPairs, ResonatorBank.addTo, ResonatorBank.addMissing, ResonatorBank.hub]

/-! ### The circuit -/

/-- The circuit has no MOVE and stays on its qubits. -/
theorem of_mem_ghzInstructions (hi : i ∈ ghzInstructions (first :: targets)) :
    i.isMove = false ∧ ∀ q ∈ i.qubits, q ∈ first :: targets := by
  rw [ghzInstructions, List.cons_append, List.mem_cons, List.mem_append, List.mem_singleton] at hi
  rcases hi with rfl | hi | rfl
  · exact ⟨rfl, List.forall_mem_singleton.2 List.mem_cons_self⟩
  · obtain ⟨t, ht, hstep⟩ := List.mem_flatMap.1 hi
    have htarget : t ∈ first :: targets := List.mem_cons_of_mem first ht
    simp only [ghzStep, List.mem_cons, List.not_mem_nil, or_false] at hstep
    rcases hstep with rfl | rfl | rfl
    · exact ⟨rfl, List.forall_mem_singleton.2 htarget⟩
    · exact ⟨rfl, List.forall_mem_cons.2 ⟨List.mem_cons_self, List.forall_mem_singleton.2 htarget⟩⟩
    · exact ⟨rfl, List.forall_mem_singleton.2 htarget⟩
  · exact ⟨rfl, fun _ hq => hq⟩

/-- The MOVEs that a GHZ circuit on qubits of the star gets. -/
theorem exists_insertMoves_ghz {c : Circuit}
    (hbody : c.instructions = ghzInstructions (first :: target :: targets))
    (hmem : ∀ q ∈ first :: target :: targets, q ∈ qubitNames n)
    (hnew : first ∉ target :: targets) (existing : Option ExistingMoves) :
    ∃ c', (insertMoves c (starArchitecture n) existing none).result = .ok c' ∧
      c'.name = c.name ∧ c'.metadata = c.metadata ∧
      c'.instructions = routedGhz first target targets := by
  obtain ⟨qubits, hbank, hqubits⟩ := exists_hub_star n
  have hfirst := hmem first List.mem_cons_self
  have noMoves : c.containsMoves = false := Circuit.containsMoves_eq_false_iff.2 fun i hi =>
    (of_mem_ghzInstructions (hbody ▸ hi)).1
  have checked := check_star n
  have moves := movesIntoResonators_star n
  have hsupport : (ResonatorBank.ofArchitecture (starArchitecture n)).supportsMove = true := by
    rw [hbank]
    exact ResonatorBank.supportsMove_of_mem_qubitsOf
      (ResonatorBank.mem_qubitsOf_hub_iff.2 ⟨rfl, (hqubits first).2 hfirst⟩)
  have hmapped : ∀ i ∈ c.instructions,
      (RoutingContext.ofMapping (starArchitecture n) none).Mapped i := by
    intro i hi
    rw [hbody] at hi
    exact RoutingContext.mapped_plain_iff.2 fun q hq =>
      DynamicArchitecture.hasComponent_of_isQubit
        (isQubit_star_iff.2 (hmem q ((of_mem_ghzInstructions hi).2 q hq)))
  have hrouted := RoutingContext.yields_ghz hqubits hmem hnew
  rw [RoutingContext.Yields, ← hbank, ← hbody] at hrouted
  obtain ⟨c', hresult, hout⟩ := exists_insertMoves_of_routeAll checked moves noMoves hsupport
    hmapped hrouted existing
  rw [(ResonatorBank.atRest_ofArchitecture _).occupied_eq_nil
    (ResonatorBank.serves_ofArchitecture checked moves).nodup] at hout
  rcases routes_of_insertMoves checked moves noMoves hresult with
    ⟨hnone, -⟩ | ⟨hname, hmetadata, -⟩
  · rw [hsupport] at hnone
    exact absurd hnone (by decide)
  · exact ⟨c', hresult, hname, hmetadata, hout.trans (List.append_nil _)⟩

/-- What is left when they are removed. -/
theorem exists_removeMoves_routedGhz {c : Circuit}
    (hbody : c.instructions = routedGhz first target targets)
    (hfree : ∀ q ∈ first :: target :: targets, q ≠ starResonator) :
    ∃ d, (removeMoves c).result = .ok d ∧ d.name = c.name ∧ d.metadata = c.metadata ∧
      d.instructions = (ghzInstructions (first :: target :: targets)).map turned := by
  have hclear := clears_routedGhz hfree c.name
  rw [← ofInstructions_routedGhz first target targets, ← hbody] at hclear
  have hsome : (ghzInstructions (first :: target :: targets)).map turned ≠ [] := by
    rw [map_turned_ghzInstructions]
    exact List.cons_ne_nil _ _
  refine ⟨{ c with instructions := _, instructions_ne_nil := hsome }, ?_, rfl, rfl, rfl⟩
  rw [removeMoves_result_of_removeFrom hclear hsome]
  exact Circuit.withBody_eq_ok_iff.2 ⟨hsome, rfl⟩

theorem qubitNames_add_two (n : Nat) : qubitNames (n + 2) =
    "QB1" :: "QB2" :: (List.range' 3 n).map fun k => s!"QB{k}" := by
  rw [qubitNames_eq]
  rfl

theorem exists_ghzCircuit (hn : n ≠ 0) :
    ∃ c, ghzCircuit n = .ok c ∧ c.instructions = ghzInstructions (qubitNames n) := by
  obtain ⟨m, rfl⟩ := Nat.exists_eq_succ_of_ne_zero hn
  have hname : s!"ghz_{m + 1}" ≠ "" := by
    show "ghz_" ++ toString (m + 1) ≠ ""
    simp
  have hsome : ghzInstructions (qubitNames (m + 1)) ≠ [] := by
    simp [qubitNames_eq, List.range'_succ, ghzInstructions]
  refine ⟨⟨_, _, none, hname, hsome⟩, ?_, rfl⟩
  rw [ghzCircuit, if_neg hn, Circuit.build, dif_neg hname, dif_neg hsome]
  rfl

/-- A circuit on the star with one sandwich around the gates between the first of `n` qubits and the
others. -/
structure SingleSandwich (n : Nat) (c : Circuit) : Prop where
  length : c.instructions.length = 3 * n + 1
  moves : c.instructions.filter (·.isMove) = [.move "QB1" "CR1", .move "QB1" "CR1"]
  gates : c.instructions.filter (·.isCz) =
    (List.range' 2 (n - 1)).map fun k => .cz s!"QB{k}" "CR1"
  /-- The state enters directly in front of the first gate. -/
  enters : ∃ front rest, c.instructions =
    front ++ .move "QB1" "CR1" :: .cz "QB2" "CR1" :: rest ∧ ∀ i ∈ front, i.isCz = false
  /-- The state leaves directly in front of the measurement. -/
  leaves : ∃ front, c.instructions = front ++ [.move "QB1" "CR1", .measure (qubitNames n) "m"]

theorem singleSandwich_of_routedGhz {c : Circuit}
    (hbody : c.instructions = routedGhz "QB1" "QB2" ((List.range' 3 n).map fun k => s!"QB{k}")) :
    SingleSandwich (n + 2) c where
  length := by rw [hbody, length_routedGhz, List.length_map, List.length_range']
  moves := by
    rw [hbody, filter_isMove_routedGhz]
    rfl
  gates := by
    rw [hbody, filter_isCz_routedGhz, List.map_cons, List.map_map]
    rfl
  enters := by
    refine ⟨[⟨.prx "QB1" quarter quarter, none⟩, ⟨.prx "QB2" quarter quarter, none⟩], _, hbody, ?_⟩
    decide
  leaves := by
    rw [hbody, routedGhz, ← List.append_assoc, qubitNames_add_two]
    exact ⟨_, rfl⟩

/-- **Routing a GHZ circuit costs exactly one sandwich**, on a star of any size, and removing it
gives the circuit back with every gate turned round. -/
theorem ghz_single_sandwich (hn : 2 ≤ n) : ∃ c c' d : Circuit, ghzCircuit n = .ok c ∧
    (insertMoves c (starArchitecture n) none none).result = .ok c' ∧ SingleSandwich n c' ∧
    (removeMoves c').result = .ok d ∧ d.name = c.name ∧ d.metadata = c.metadata ∧
    d.instructions = c.instructions.map turned := by
  obtain ⟨m, rfl⟩ := Nat.exists_eq_add_of_le' hn
  have hnames := qubitNames_add_two m
  have hnodup := nodup_qubitNames (m + 2)
  obtain ⟨c, hc, hbody⟩ := exists_ghzCircuit (n := m + 2) (Nat.succ_ne_zero _)
  rw [hnames] at hbody hnodup
  have hmem : ∀ q ∈ "QB1" :: "QB2" :: (List.range' 3 m).map fun k => s!"QB{k}",
      q ∈ qubitNames (m + 2) := fun q hq => hnames ▸ hq
  obtain ⟨c', hinsert, hname, hmetadata, hrouted⟩ :=
    exists_insertMoves_ghz hbody hmem (List.nodup_cons.1 hnodup).1 none
  obtain ⟨d, hremove, hname', hmetadata', hcleared⟩ := exists_removeMoves_routedGhz hrouted
    fun q hq => ne_starResonator (hmem q hq)
  refine ⟨c, c', d, hc, hinsert, singleSandwich_of_routedGhz hrouted, hremove,
    hname'.trans hname, hmetadata'.trans hmetadata, ?_⟩
  rw [hcleared, hbody]

/-- Two qubits have one gate each, so they are equally good candidates, and the first one is
taken. -/
theorem ghz_single_sandwich_bell : ∃ c c' d : Circuit, 2 ≤ 2 ∧ ghzCircuit 2 = .ok c ∧
    (insertMoves c (starArchitecture 2) none none).result = .ok c' ∧ SingleSandwich 2 c' ∧
    (removeMoves c').result = .ok d ∧ d.instructions = [⟨.prx "QB1" quarter quarter, none⟩,
      ⟨.prx "QB2" quarter quarter, none⟩, .cz "QB2" "QB1",
      ⟨.prx "QB2" backQuarter quarter, none⟩, .measure ["QB1", "QB2"] "m"] := by
  obtain ⟨c, c', d, hc, hinsert, hsandwich, hremove, -, -, hd⟩ :=
    ghz_single_sandwich (n := 2) (by decide)
  refine ⟨c, c', d, by decide, hc, hinsert, hsandwich, hremove, hd.trans ?_⟩
  obtain ⟨c₂, hc₂, hbody⟩ := exists_ghzCircuit (n := 2) (by decide)
  obtain rfl := Except.ok.inj (hc.symm.trans hc₂)
  rw [hbody]
  rfl

end StarQpu
