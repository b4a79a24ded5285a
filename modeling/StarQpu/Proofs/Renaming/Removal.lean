import StarQpu.Proofs.Removal

/-!
# StarQpu.Proofs.Renaming.Removal

**Removal does not look at names.** It only compares them: which resonator a MOVE belongs to, whose
state is where, whether an instruction has changed. So an injective renaming `g` of the components
passes through it. The bank of the renamed instructions is the renamed bank
(`ofInstructions_mapNames`), a MOVE leads from renamed banks to renamed banks (`applied?_mapNames`),
and the removal of the renamed circuit is the renamed removal (`removeMoves_mapQubits`). No name
appears that was not there before (`forall_of_removeMoves`).
-/

namespace StarQpu

variable {g : String → String} {b b' : ResonatorBank} {i : Instruction} {q r h : String}
  {l out : List Instruction}

/-- The circuit on renamed components. -/
def Circuit.mapQubits (g : String → String) (c : Circuit) : Circuit where
  name := c.name
  instructions := c.instructions.map (·.mapQubits g)
  metadata := c.metadata
  name_ne_empty := c.name_ne_empty
  instructions_ne_nil := by simpa using c.instructions_ne_nil

theorem Circuit.mapQubits_congr {f : String → String} {c : Circuit}
    (h : ∀ i ∈ c.instructions, ∀ q ∈ i.qubits, f q = g q) : c.mapQubits f = c.mapQubits g := by
  simp only [mapQubits, mk.injEq, true_and, and_true]
  exact List.map_congr_left fun i hi => Instruction.mapQubits_congr (h i hi)

@[simp] theorem Circuit.containsMoves_mapQubits (g : String → String) (c : Circuit) :
    (c.mapQubits g).containsMoves = c.containsMoves := by
  simp [containsMoves, mapQubits, List.any_map, Function.comp_def]

theorem Circuit.withBody_mapQubits (g : String → String) (c : Circuit) (l : List Instruction) :
    (c.mapQubits g).withBody (l.map (·.mapQubits g)) =
      (c.withBody l).map (Circuit.mapQubits g) := by
  unfold withBody withInstructions
  by_cases h : l = []
  · simp [h, Except.mapError, Except.map]
  · simp [h, Except.mapError, Except.map, mapQubits]

/-! ### Renamed banks -/

/-- The resonator under a new name, with new names for all that it knows. -/
def Resonator.mapNames (g : String → String) (t : Resonator) : Resonator :=
  ⟨g t.name, t.qubits.map g, g t.holder⟩

namespace ResonatorBank

/-- The bank on renamed components. -/
def mapNames (g : String → String) (b : ResonatorBank) : ResonatorBank :=
  ⟨b.resonators.map (·.mapNames g)⟩

section Setup

variable (injective : Function.Injective g)
include injective

theorem contains_map (l : List String) (q : String) : (l.map g).contains (g q) = l.contains q := by
  simp [injective.eq_iff]

theorem addMissing_map (known extra : List String) :
    addMissing (known.map g) (extra.map g) = (addMissing known extra).map g := by
  induction extra generalizing known with
  | nil => rfl
  | cons q rest ih =>
      have hstep : (if (known.map g).contains (g q) then known.map g else known.map g ++ [g q]) =
          (if known.contains q then known else known ++ [q]).map g := by
        rw [contains_map injective]
        cases known.contains q <;> simp
      rw [List.map_cons, addMissing, hstep, ih]
      rfl

theorem addTo_map (name : String) (qubits : List String) (rs : List Resonator) :
    addTo (g name) (qubits.map g) (rs.map (·.mapNames g)) =
      (addTo name qubits rs).map (·.mapNames g) := by
  induction rs with
  | nil => rfl
  | cons t rest ih =>
      rw [List.map_cons, addTo, addTo]
      by_cases ht : t.name = name
      · simp [Resonator.mapNames, ht, addMissing_map injective]
      · have hne : (t.mapNames g).name ≠ g name := fun heq => ht (injective heq)
        rw [if_neg hne, if_neg ht, ih, List.map_cons]

theorem ofPairs_map (pairs : List (String × List String)) :
    ofPairs (pairs.map fun p => (g p.1, p.2.map g)) = (ofPairs pairs).mapNames g := by
  have hfold : ∀ rs : List Resonator,
      (pairs.map fun p => (g p.1, p.2.map g)).foldl (fun rs p => addTo p.1 p.2 rs)
          (rs.map (·.mapNames g)) =
        (pairs.foldl (fun rs p => addTo p.1 p.2 rs) rs).map (·.mapNames g) := by
    -- for any resonators: each pair adds to those that the pairs before it made
    induction pairs with
    | nil => exact fun _ => rfl
    | cons p rest ih =>
        intro rs
        rw [List.map_cons, List.foldl_cons, List.foldl_cons, addTo_map injective, ih]
  exact congrArg ResonatorBank.mk (hfold [])

theorem ofInstructions_mapNames (l : List Instruction) :
    ofInstructions (l.map (·.mapQubits g)) = (ofInstructions l).mapNames g := by
  have hpair : ∀ i : Instruction,
      pairOfMove? (i.mapQubits g) = (pairOfMove? i).map fun p => (g p.1, p.2.map g) := by
    intro i
    obtain ⟨action, implementation⟩ := i
    cases action <;> rfl
  rw [ofInstructions, ofInstructions, ← ofPairs_map injective, List.map_filterMap,
    List.filterMap_map]
  congr 2
  funext i
  exact hpair i

end Setup

/-! ### Renamed answers -/

section Answers

variable (injective : Function.Injective g)
include injective

theorem find?_mapNames : (b.mapNames g).find? (g r) = (b.find? r).map (·.mapNames g) := by
  have hname : (fun x : Resonator => decide (x.name = g r)) ∘ Resonator.mapNames g =
      fun x : Resonator => decide (x.name = r) :=
    funext fun x => decide_eq_decide.2 injective.eq_iff
  rw [find?, mapNames, List.find?_map, hname, find?]

theorem holder?_mapNames : (b.mapNames g).holder? (g r) = (b.holder? r).map g := by
  rw [holder?, find?_mapNames injective, holder?, Option.map_map, Option.map_map]
  rfl

theorem resolve_mapNames : (b.mapNames g).resolve (g r) = g (b.resolve r) := by
  rw [resolve, resolve, holder?_mapNames injective]
  cases b.holder? r <;> rfl

theorem setHolder_mapNames :
    (b.mapNames g).setHolder (g r) (g h) = (b.setHolder r h).mapNames g := by
  unfold setHolder mapNames
  rw [List.map_map, List.map_map]
  congr 1
  refine List.map_congr_left fun t _ => ?_
  by_cases ht : t.name = r
  · simp [Resonator.mapNames, ht]
  · simp [Resonator.mapNames, ht, injective.eq_iff]

theorem allows_mapNames : (b.mapNames g).allows (g q) (g r) = b.allows q r := by
  have helsewhere : (b.mapNames g).heldElsewhere (g q) (g r) = b.heldElsewhere q r := by
    simp [heldElsewhere, mapNames, List.any_map, Function.comp_def, Resonator.mapNames,
      injective.eq_iff]
  rw [allows, find?_mapNames injective, helsewhere, allows]
  cases b.find? r with
  | none => rfl
  | some t => simp [Resonator.mapNames, injective.eq_iff]

/-- A MOVE leads from renamed banks to renamed banks. -/
theorem applied?_mapNames :
    (b.mapNames g).applied? (g q) (g r) = (b.applied? q r).map (·.mapNames g) := by
  have hempty : (b.mapNames g).holder? (g r) = some (g r) ↔ b.holder? r = some r := by
    rw [holder?_mapNames injective, Option.map_eq_some_iff]
    simp [injective.eq_iff]
  rw [applied?, allows_mapNames injective, applied?]
  cases b.allows q r with
  | false => rfl
  | true =>
      by_cases hr : b.holder? r = some r
      · simp [hempty, hr, setHolder_mapNames injective]
      · simp [hempty, hr, setHolder_mapNames injective]

theorem apply_mapNames :
    (b.mapNames g).apply (g q) (g r) = (b.apply q r).map (·.mapNames g) := by
  rw [apply, applied?_mapNames injective, apply]
  cases b.applied? q r <;> rfl

theorem resolveInstruction_mapNames :
    resolveInstruction (b.mapNames g) (i.mapQubits g) = (resolveInstruction b i).mapQubits g := by
  have hlocus : (i.mapQubits g).qubits.map (b.mapNames g).resolve = (i.mapQubits g).qubits ↔
      i.qubits.map b.resolve = i.qubits := by
    have hmap : (i.qubits.map g).map (b.mapNames g).resolve = (i.qubits.map b.resolve).map g := by
      simp [resolve_mapNames injective]
    rw [Instruction.qubits_mapQubits, hmap, injective.list_map.eq_iff]
  have hresolved : (i.mapQubits g).mapQubits (b.mapNames g).resolve =
      (i.mapQubits b.resolve).mapQubits g := by
    rw [Instruction.mapQubits_mapQubits, Instruction.mapQubits_mapQubits]
    exact Instruction.mapQubits_congr fun q _ => resolve_mapNames injective
  unfold resolveInstruction
  by_cases hsame : i.qubits.map b.resolve = i.qubits
  · rw [if_pos (hlocus.2 hsame), if_pos hsame]
  · rw [if_neg (mt hlocus.1 hsame), if_neg hsame, hresolved]
    rfl

end Answers

end ResonatorBank

/-! ### Renamed removals -/

section Removals

variable (injective : Function.Injective g)
include injective

theorem removeFrom_mapNames (circuit : String) :
    (removeFrom circuit (b.mapNames g) (l.map (·.mapQubits g))).result =
      (removeFrom circuit b l).result.map (List.map (·.mapQubits g)) := by
  -- on the instructions, each from the bank that the MOVEs before it lead to
  induction l generalizing b with
  | nil => rfl
  | cons i rest ih =>
      rw [List.map_cons]
      cases hmove : i.isMove with
      | true =>
          obtain ⟨q, r, haction⟩ := Instruction.isMove_iff.1 hmove
          rw [removeFrom_result_move circuit (Instruction.mapQubits_of_move haction g),
            removeFrom_result_move circuit haction, ResonatorBank.apply_mapNames injective]
          cases b.apply q r with
          | error e => rfl
          | ok next => exact ih
      | false =>
          rw [removeFrom_result_other circuit (by simpa using hmove),
            removeFrom_result_other circuit hmove, ih,
            ResonatorBank.resolveInstruction_mapNames injective]
          cases (removeFrom circuit b rest).result <;> rfl

/-- **Removal commutes with renaming.** -/
theorem removeMoves_mapQubits (c : Circuit) :
    (removeMoves (c.mapQubits g)).result = (removeMoves c).result.map (Circuit.mapQubits g) := by
  have hremove :
      (removeFrom c.name (.ofCircuit (c.mapQubits g)) (c.mapQubits g).instructions).result =
      (removeFrom c.name (.ofCircuit c) c.instructions).result.map (List.map (·.mapQubits g)) := by
    have hbank : ResonatorBank.ofCircuit (c.mapQubits g) = (ResonatorBank.ofCircuit c).mapNames g :=
      ResonatorBank.ofInstructions_mapNames injective c.instructions
    rw [hbank]
    exact removeFrom_mapNames injective c.name
  rw [removeMoves, Logged.result_bind, removeMoves, Logged.result_bind,
    show (c.mapQubits g).name = c.name from rfl, hremove]
  cases (removeFrom c.name (.ofCircuit c) c.instructions).result with
  | error e => rfl
  | ok out =>
      cases out with
      | nil => rfl
      | cons i rest => exact Circuit.withBody_mapQubits g c (i :: rest)

end Removals

/-! ### The names of a removal -/

section Names

variable {P : String → Prop}

theorem ResonatorBank.HeldFor.resolve (hb : b.HeldFor fun q _ => P q) (hr : P r) :
    P (b.resolve r) := by
  cases hheld : b.holder? r with
  | none =>
      rw [ResonatorBank.resolve, hheld]
      exact hr
  | some h =>
      rw [ResonatorBank.resolve_of_holder? hheld]
      by_cases hself : h = r
      · exact hself ▸ hr
      · exact hb r h hheld hself

theorem forall_of_removeFrom {circuit : String} (hnames : ∀ i ∈ l, ∀ q ∈ i.qubits, P q)
    (hb : b.HeldFor fun q _ => P q) (hout : (removeFrom circuit b l).result = .ok out) :
    ∀ i ∈ out, ∀ q ∈ i.qubits, P q := by
  induction l generalizing b out with
  | nil =>
      obtain rfl : [] = out := Except.ok.inj hout
      simp
  | cons i rest ih =>
      rw [List.forall_mem_cons] at hnames
      cases hmove : i.isMove with
      | true =>
          obtain ⟨q, r, haction⟩ := Instruction.isMove_iff.1 hmove
          rw [removeFrom_result_move circuit haction, bind_eq_ok_iff] at hout
          obtain ⟨next, happly, hrest⟩ := hout
          have hq : P q := hnames.1 q (by simp [Instruction.qubits, haction, Action.qubits])
          exact ih hnames.2
            (hb.applied (ResonatorBank.apply_eq_ok_iff.1 happly) fun _ => hq) hrest
      | false =>
          rw [removeFrom_result_other circuit hmove, bind_eq_ok_iff] at hout
          obtain ⟨more, hrest, hout⟩ := hout
          rw [← Except.ok.inj hout, List.forall_mem_cons]
          refine ⟨fun c hc => ?_, ih hnames.2 hb hrest⟩
          unfold resolveInstruction at hc
          split at hc
          next => exact hnames.1 c hc
          next =>
              obtain ⟨q, hq, rfl⟩ := List.mem_map.1 ((Instruction.qubits_mapQubits _ i) ▸ hc)
              exact hb.resolve (hnames.1 q hq)

/-- Whatever holds of all names of a circuit holds of the names of its removal. -/
theorem forall_of_removeMoves {c d : Circuit} (hnames : ∀ i ∈ c.instructions, ∀ q ∈ i.qubits, P q)
    (h : (removeMoves c).result = .ok d) : ∀ i ∈ d.instructions, ∀ q ∈ i.qubits, P q := by
  obtain ⟨out, hremove, hbody⟩ := removeMoves_result_eq_ok h
  obtain ⟨-, rfl⟩ := Circuit.withBody_eq_ok_iff.1 hbody
  have hrest : (ResonatorBank.ofCircuit c).AtRest := fun _ _ => ResonatorBank.holder?_ofInstructions
  exact forall_of_removeFrom hnames hrest.heldFor hremove

end Names

end StarQpu
