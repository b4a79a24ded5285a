import StarQpu.Proofs.Routing.Following
import StarQpu.Proofs.Routing.RoundTrip

/-!
# StarQpu.Proofs.Routing.Writing

**What the router writes, on any architecture.** `Routes` says more about a run of the router, but
only where every MOVE goes from a qubit into a resonator. Without that, giving back or fetching may
fail; if the router succeeds all the same, it has made allowed MOVEs of states of components, kept
instructions, and put controlled-Z gates in the place of others. `Writes` is such a run. Its bank
stays `Within` the components (`Writes.within`) and follows what is written in physical names
(`Writes.follows`), and what is written embeds the source (`Writes.embeds`). So every circuit with
MOVEs inserted embeds the circuit they were inserted into and has a legal run of MOVEs
(`insertMoves_embeds`).
-/

namespace StarQpu

variable {a : DynamicArchitecture} {mapping : Option QubitMapping} {b b₁ b₂ b' : ResonatorBank}
  {i j : Instruction} {q r moved : String}
  {l l' source source' out out' lookahead : List Instruction}

/-! ### Banks that hold states of components -/

namespace ResonatorBank

/-- What stays true of a bank of the architecture as long as states of components are moved. -/
structure Within (b : ResonatorBank) (a : DynamicArchitecture) : Prop extends Sound b where
  tracks_eq : b.tracks = a.isResonator
  held : b.HeldFor fun q _ => a.hasComponent q = true

theorem within_ofArchitecture (a : DynamicArchitecture) : (ofArchitecture a).Within a where
  toSound := sound_ofPairs _
  tracks_eq := tracks_ofArchitecture a
  held := (atRest_ofArchitecture a).heldFor

/-- Emptied resonators hold no state that is not wanted. -/
theorem HeldFor.emptied {wanted : String → String → Prop} (h : b.HeldFor wanted)
    (scope : Option (List String)) : (b.emptied scope).HeldFor wanted := by
  intro s q hs hne
  rw [holder?_emptied] at hs
  split at hs
  next =>
      obtain ⟨p, -, rfl⟩ := Option.map_eq_some_iff.1 hs
      exact absurd rfl hne
  next => exact h s q hs hne

/-- A state that has to leave for another one is the one that is held. -/
theorem HeldFor.plan {wanted : String → Prop} (h : b.HeldFor fun q _ => wanted q)
    (hmoved : wanted moved) : ∀ m ∈ b.plan moved r, wanted m.1 := by
  unfold ResonatorBank.plan
  cases hr : b.holder? r with
  | none => simpa using hmoved
  | some p =>
      by_cases hp : p ≠ moved ∧ p ≠ r
      · simpa [hp] using ⟨h r p hr hp.2, hmoved⟩
      · simpa [hp] using hmoved

namespace Within

variable (hb : b.Within a)
include hb

theorem applied (hq : a.hasComponent q = true) (applied : b.applied? q r = some b₁) :
    b₁.Within a where
  toSound := hb.toSound.applied applied
  tracks_eq := (tracks_applied applied).trans hb.tracks_eq
  held := hb.held.applied applied fun _ => hq

theorem isResonator_of_mem (hq : q ∈ b.qubitsOf r) : a.isResonator r = true := by
  rw [← hb.tracks_eq]
  exact tracks_of_mem_qubitsOf hq

theorem hasComponent_of_applied (applied : b.applied? q r = some b₁) : a.hasComponent r = true :=
  DynamicArchitecture.hasComponent_of_isResonator
    (hb.isResonator_of_mem (mem_qubitsOf_of_allows (applied?_eq_some_iff.1 applied).1))

theorem components_occupied (scope : Option (List String)) :
    ∀ m ∈ b.occupied scope, a.hasComponent m.1 = true := by
  intro m hm
  obtain ⟨hheld, hne, -⟩ := (mem_occupied_iff hb.nodup).1 hm
  exact hb.held _ _ hheld hne

theorem components_rerouting (qubits : Locus) (hmoved : a.hasComponent moved = true) :
    ∀ m ∈ b.rerouting qubits r moved, a.hasComponent m.1 = true := by
  intro m hm
  rcases List.mem_append.1 hm with hm | hm
  · exact hb.components_occupied _ m hm
  · unfold fetching at hm
    split at hm
    next => exact absurd hm List.not_mem_nil
    next => exact (hb.held.emptied _).plan hmoved m hm

theorem follow (hi : ∀ q ∈ i.qubits, a.hasComponent q = true) (followed : b.follow i = .ok b₁) :
    b₁.Within a := by
  rcases RoutingContext.follow_eq_ok_iff.1 followed with ⟨q, r, haction, applied⟩ | ⟨-, rfl⟩
  · exact hb.applied (hi q (by simp [Instruction.qubits, haction, Action.qubits])) applied
  · exact hb

end Within

/-- One instruction that is followed, in front of a list that is. -/
theorem Follows.cons (followed : b.follow i = .ok b₁) (rest : b₁.Follows l b') :
    b.Follows (i :: l) b' := by
  rcases RoutingContext.follow_eq_ok_iff.1 followed with ⟨q, r, haction, applied⟩ | ⟨hother, rfl⟩
  · exact .move haction applied rest
  · exact .other hother rest

end ResonatorBank

/-! ### Embeddings -/

/-- The second list is the first one with MOVEs inserted and controlled-Z gates replaced by others:
every instruction of the first has its match in the second, in the same order. -/
inductive Embeds : List Instruction → List Instruction → Prop where
  | nil : Embeds [] []
  /-- A MOVE without a match. -/
  | inserted {i : Instruction} {l l' : List Instruction} (moves : i.isMove = true)
      (rest : Embeds l l') : Embeds l (i :: l')
  /-- Two instructions that match. -/
  | matched {i j : Instruction} {l l' : List Instruction}
      (same : i = j ∨ i.isCz = true ∧ j.isCz = true) (rest : Embeds l l') :
      Embeds (i :: l) (j :: l')

namespace Embeds

/-- The MOVEs of the first list survive unchanged and in order. -/
theorem moves_sublist (embeds : Embeds l l') :
    (l.filter (·.isMove)).Sublist (l'.filter (·.isMove)) := by
  induction embeds with
  | nil => exact .slnil
  | inserted moves _ ih => simpa [moves] using ih.cons _
  | @matched i j _ _ same _ ih =>
      rcases same with rfl | ⟨hi, hj⟩
      · cases hmove : i.isMove <;> simpa [hmove] using ih
      · simpa [Instruction.not_isMove_of_isCz hi, Instruction.not_isMove_of_isCz hj] using ih

end Embeds

/-! ### Runs that write -/

theorem ResonatorBank.Within.kept (hb : b.Within a) (fits : (mapping.getD .empty).Fits a)
    (mapped : (RoutingContext.ofMapping a mapping).Mapped i)
    (followed : b.follow (i.mapQubits (renamed (RoutingContext.ofMapping a mapping).mapping)) =
      .ok b₁) : b₁.Within a := by
  refine hb.follow (fun q hq => ?_) followed
  rw [Instruction.qubits_mapQubits] at hq
  exact RoutingContext.hasComponent_of_mem_locus fits mapped hq

namespace RoutingContext

variable {x : RoutingContext}

/-- A run of the router over the instructions `source` that writes `out`. -/
inductive Writes (x : RoutingContext) : ResonatorBank → List Instruction → List Instruction →
    ResonatorBank → Prop where
  | done (b : ResonatorBank) : Writes x b [] [] b
  /-- The router moves the state of a component. -/
  | move {b b₁ b' : ResonatorBank} {q r : String} {source out : List Instruction}
      (applied : b.applied? q r = some b₁) (component : x.architecture.hasComponent q = true)
      (rest : Writes x b₁ source out b') :
      Writes x b source (.move (x.logical q) (x.logical r) :: out) b'
  /-- An instruction stays, and the bank follows it. -/
  | keep {b b₁ b' : ResonatorBank} {i : Instruction} {source out : List Instruction}
      (mapped : x.Mapped i) (followed : b.follow (i.mapQubits (renamed x.mapping)) = .ok b₁)
      (rest : Writes x b₁ source out b') : Writes x b (i :: source) (i :: out) b'
  /-- A controlled-Z that can run takes the place of another one. -/
  | reroute {b b' : ResonatorBank} {i j : Instruction} {source out : List Instruction}
      (mapped : x.Mapped i) (cz : i.isCz = true) (replacement : j.isCz = true)
      (valid : x.validate j = .ok ()) (rest : Writes x b source out b') :
      Writes x b (i :: source) (j :: out) b'

namespace Writes

theorem append (run : x.Writes b source out b₁) (run' : x.Writes b₁ source' out' b₂) :
    x.Writes b (source ++ source') (out ++ out') b₂ := by
  induction run with
  | done => exact run'
  | move applied component _ ih => exact .move applied component (ih run')
  | keep mapped followed _ ih => exact .keep mapped followed (ih run')
  | reroute mapped cz replacement valid _ ih => exact .reroute mapped cz replacement valid (ih run')

theorem embeds (run : x.Writes b source out b') : Embeds source out := by
  induction run with
  | done => exact .nil
  | move _ _ _ ih => exact .inserted rfl ih
  | keep _ _ _ ih => exact .matched (Or.inl rfl) ih
  | reroute _ cz replacement _ _ ih => exact .matched (Or.inr ⟨cz, replacement⟩) ih

/-- MOVEs of states of components, one after the other. -/
theorem moving {moves : List (String × String)} (hrun : b.applyAll moves = (true, b₁))
    (components : ∀ m ∈ moves, x.architecture.hasComponent m.1 = true)
    (rest : x.Writes b₁ source out b') :
    x.Writes b source (ResonatorBank.moveInstructions x.names moves ++ out) b' := by
  induction moves generalizing b with
  | nil =>
      obtain rfl : b = b₁ := by simpa using hrun
      exact rest
  | cons move more ih =>
      obtain ⟨q, r⟩ := move
      obtain ⟨next, happly, hmore⟩ := ResonatorBank.applyAll_cons_iff.1 hrun
      rw [List.forall_mem_cons] at components
      exact .move happly components.1 (ih hmore components.2)

section Fitting

variable (fits : (mapping.getD .empty).Fits a)
include fits

theorem within (run : (ofMapping a mapping).Writes b source out b') (hb : b.Within a) :
    b'.Within a := by
  induction run with
  | done => exact hb
  | move applied component _ ih => exact ih (hb.applied component applied)
  | keep mapped followed _ ih => exact ih (hb.kept fits mapped followed)
  | reroute _ _ _ _ _ ih => exact ih hb

/-- Everything that is written has physical names. -/
theorem mapped (run : (ofMapping a mapping).Writes b source out b') (hb : b.Within a) :
    ∀ i ∈ out, (ofMapping a mapping).Mapped i := by
  induction run with
  | done => simp
  | move applied component _ ih =>
      refine List.forall_mem_cons.2 ⟨?_, ih (hb.applied component applied)⟩
      intro c hc
      have hr := hb.hasComponent_of_applied applied
      rcases List.mem_pair.1 hc with rfl | rfl
      · exact (renamed_logical fits component).1
      · exact (renamed_logical fits hr).1
  | keep mapped followed rest ih =>
      exact List.forall_mem_cons.2 ⟨mapped, ih (hb.kept fits mapped followed)⟩
  | reroute _ _ _ valid _ ih =>
      exact List.forall_mem_cons.2 ⟨(validateInstruction_some_eq_ok_iff.1 valid).1, ih hb⟩

/-- The bank follows what is written in physical names. -/
theorem follows (run : (ofMapping a mapping).Writes b source out b') (hb : b.Within a) :
    b.Follows (out.map (·.mapQubits (renamed (ofMapping a mapping).mapping))) b' := by
  induction run with
  | done => exact .done _
  | move applied component _ ih =>
      refine .move (Instruction.mapQubits_of_move rfl _) ?_ (ih (hb.applied component applied))
      rw [(renamed_logical fits component).2,
        (renamed_logical fits (hb.hasComponent_of_applied applied)).2]
      exact applied
  | keep mapped followed _ ih => exact .cons followed (ih (hb.kept fits mapped followed))
  | reroute _ _ replacement _ _ ih =>
      refine .other ?_ (ih hb)
      simpa using Instruction.not_isMove_of_isCz replacement

end Fitting

end Writes

/-! ### From the router to what it writes -/

section Fitting

variable (fits : (mapping.getD .empty).Fits a)
include fits

theorem writes_of_throughResonator (hb : b.Within a) (hmapped : (ofMapping a mapping).Mapped i)
    (hcz : i.isCz = true)
    (h : (ofMapping a mapping).throughResonator b ((ofMapping a mapping).locus i) lookahead =
      .ok (out, b')) : (ofMapping a mapping).Writes b [i] out b' := by
  obtain ⟨r, moved, j, hpair, hrun, rfl⟩ := (throughResonator_eq_ok_iff hb.nodup).1 h
  obtain ⟨hsource, -, husable⟩ := mem_of_usablePair? hb.nodup hpair
  have hmoved := hasComponent_of_mem_locus fits hmapped
    (ResonatorBank.mem_of_mem_sources hb.nodup hsource)
  exact .moving hrun (hb.components_rerouting _ hmoved)
    (.reroute hmapped hcz husable.isCz husable.2 (.done _))

theorem writes_of_route (hb : b.Within a) (hmapped : (ofMapping a mapping).Mapped i)
    (h : (ofMapping a mapping).route b i ((ofMapping a mapping).locus i) lookahead =
      .ok (out, b')) : (ofMapping a mapping).Writes b [i] out b' := by
  rcases route_eq_ok_iff.1 h with
    ⟨-, -, hmove, back, hback, rfl⟩ | ⟨-, -, hfollow, rfl⟩ | ⟨hcz, -, hthrough⟩
  · obtain ⟨hrun, rfl⟩ := (giveBack_eq_ok_iff hb.nodup).1 hback
    refine .moving hrun (hb.components_occupied _) (.keep hmapped ?_ (.done _))
    exact follow_of_not_move (by simpa using hmove)
  · exact .keep hmapped hfollow (.done _)
  · exact writes_of_throughResonator fits hb hmapped hcz hthrough

theorem writes_of_routeAll (hb : b.Within a)
    (hmapped : ∀ i ∈ source, (ofMapping a mapping).Mapped i)
    (h : (ofMapping a mapping).routeAll b source
      (source.map (·.mapQubits (renamed (ofMapping a mapping).mapping))) = .ok (out, b')) :
    (ofMapping a mapping).Writes b source out b' := by
  induction source generalizing b out with
  | nil =>
      obtain ⟨rfl, rfl⟩ : [] = out ∧ b = b' := by simpa [routeAll_nil] using h
      exact .done b
  | cons i rest ih =>
      rw [List.forall_mem_cons] at hmapped
      obtain ⟨first, next, more, hfirst, hmore, rfl⟩ := routeAll_cons_eq_ok_iff.1 h
      have run := writes_of_route fits hb hmapped.1 hfirst
      exact run.append (ih (run.within fits hb) hmapped.2 hmore)

/-- A successful insertion is a run, and the MOVEs that give back the states that it leaves in
resonators. -/
theorem insertInto_eq_ok_iff_applyAll : (ofMapping a mapping).insertInto source = .ok out ↔
    (∀ i ∈ source, (ofMapping a mapping).Mapped i) ∧ ∃ first b b',
      (ofMapping a mapping).routeAll (.ofArchitecture a) source
          (source.map (·.mapQubits (renamed (ofMapping a mapping).mapping))) = .ok (first, b) ∧
        b.applyAll (b.occupied none) = (true, b') ∧
        out = first ++ ResonatorBank.moveInstructions (ofMapping a mapping).names
          (b.occupied none) := by
  simp only [insertInto_eq, bind_eq_ok_iff, physicalAll_eq_ok_iff, Prod.exists]
  constructor
  · intro h
    obtain ⟨physical, ⟨hmapped, rfl⟩, first, b, hrouted, back, b', hback, hout⟩ := h
    have hb := (writes_of_routeAll fits (ResonatorBank.within_ofArchitecture a) hmapped
      hrouted).within fits (ResonatorBank.within_ofArchitecture a)
    obtain ⟨hrun, rfl⟩ := (giveBack_eq_ok_iff hb.nodup).1 hback
    exact ⟨hmapped, first, b, b', hrouted, hrun, (Except.ok.inj hout).symm⟩
  · intro h
    obtain ⟨hmapped, first, b, b', hrouted, hrun, rfl⟩ := h
    have hb := (writes_of_routeAll fits (ResonatorBank.within_ofArchitecture a) hmapped
      hrouted).within fits (ResonatorBank.within_ofArchitecture a)
    exact ⟨_, ⟨hmapped, rfl⟩, first, b, hrouted, _, b',
      (giveBack_eq_ok_iff hb.nodup).2 ⟨hrun, rfl⟩, rfl⟩

/-- What is written in a successful insertion ends with empty resonators. -/
theorem writes_of_insertInto (h : (ofMapping a mapping).insertInto source = .ok out) :
    ∃ b', (ofMapping a mapping).Writes (.ofArchitecture a) source out b' ∧
      ∀ r, a.isResonator r = true → b'.holder? r = some r := by
  obtain ⟨hmapped, first, b, b', hrouted, hrun, rfl⟩ := (insertInto_eq_ok_iff_applyAll fits).1 h
  have run := writes_of_routeAll fits (ResonatorBank.within_ofArchitecture a) hmapped hrouted
  have hb := run.within fits (ResonatorBank.within_ofArchitecture a)
  have whole := run.append (.moving hrun (hb.components_occupied none) (.done _))
  rw [List.append_nil, List.append_nil] at whole
  refine ⟨b', whole, fun r hr => ?_⟩
  obtain rfl := ResonatorBank.eq_emptied_of_applyAll_occupied hb.nodup none hrun
  rw [← hb.tracks_eq] at hr
  obtain ⟨h, hheld⟩ := ResonatorBank.tracks_iff.1 hr
  rw [ResonatorBank.holder?_emptied_all, hheld, Option.map_some]

end Fitting

end RoutingContext

/-! ### Circuits with MOVEs inserted -/

/-- The circuit into which MOVEs are inserted: the circuit itself if its MOVEs stay, or else its
removal. -/
def startingCircuit (c : Circuit) : Option ExistingMoves → Except RoutingError Circuit
  | some .keep => .ok c
  | some .trust => .ok c
  | _ => (removeMoves c).result

theorem startingCircuit_of_insertionSource {x : RoutingContext} {c s : Circuit}
    {existing : Option ExistingMoves} (h : (insertionSource x c existing).result = .ok s) :
    startingCircuit c existing = .ok s := by
  cases existing with
  | none => exact h
  | some e =>
      cases e with
      | keep => exact congrArg Except.ok (insertionSource_keep_eq_ok_iff.1 h).2.symm
      | trust => exact h
      | remove => exact h

/-- **Insertion embeds its source.** On an architecture with a MOVE into a resonator, whatever comes
out of insertion is its source with MOVEs inserted and controlled-Z gates replaced, so the MOVEs of
the source survive unchanged and in order. In physical names the bank of the architecture allows all
its MOVEs, and every resonator holds its own state at the end. -/
theorem insertMoves_embeds {c c' : Circuit} {existing : Option ExistingMoves}
    (resonator : a.isResonator r = true) (moves : [q, r] ∈ a.moveLoci)
    (fits : (mapping.getD .empty).Fits a)
    (h : (insertMoves c a existing mapping).result = .ok c') :
    ∃ s, startingCircuit c existing = .ok s ∧ c'.name = s.name ∧ c'.metadata = s.metadata ∧
      Embeds s.instructions c'.instructions ∧
      (s.instructions.filter (·.isMove)).Sublist (c'.instructions.filter (·.isMove)) ∧
      ∃ physical b', (RoutingContext.ofMapping a mapping).physicalAll c'.instructions =
          .ok physical ∧
        (ResonatorBank.ofArchitecture a).Follows physical b' ∧
        ∀ t, a.isResonator t = true → b'.holder? t = some t := by
  have hsupport : (ResonatorBank.ofArchitecture a).supportsMove = true :=
    ResonatorBank.supportsMove_of_mem_qubitsOf
      (ResonatorBank.mem_qubitsOf_ofArchitecture_iff.2 ⟨resonator, moves⟩)
  rw [result_insertMoves_of_supportsMove hsupport, bind_eq_ok_iff] at h
  obtain ⟨s, hsource, h⟩ := h
  obtain ⟨out, hinsert, h⟩ := bind_eq_ok_iff.1 h
  obtain ⟨-, rfl⟩ := Circuit.withBody_eq_ok_iff.1 h
  obtain ⟨b', run, hempty⟩ := RoutingContext.writes_of_insertInto fits hinsert
  have hb := ResonatorBank.within_ofArchitecture a
  have hphysical := RoutingContext.physicalAll_eq_ok_iff.2 ⟨run.mapped fits hb, rfl⟩
  exact ⟨s, startingCircuit_of_insertionSource hsource, rfl, rfl, run.embeds,
    run.embeds.moves_sublist, _, b', hphysical, run.follows fits hb, hempty⟩

/-- A state is left in the resonator for a gate that cannot run as it stands. -/
def openSandwich : Circuit where
  name := "open"
  instructions := [.move "A" "CR1", .cz "QB2" "CR1", .cz "A" "QB3", .cz "QB2" "QB3"]
  name_ne_empty := by decide
  instructions_ne_nil := List.cons_ne_nil _ _

/-- The router uses the state where it is and makes it leave for another one. -/
def routedOpenSandwich : Circuit where
  name := "open"
  instructions := [.move "A" "CR1", .cz "QB2" "CR1", .cz "QB3" "CR1", .move "A" "CR1",
    .move "QB2" "CR1", .cz "QB3" "CR1", .move "QB2" "CR1"]
  name_ne_empty := by decide
  instructions_ne_nil := List.cons_ne_nil _ _

theorem insertMoves_embeds_openSandwich :
    (insertMoves openSandwich (starArchitecture 3) (some .trust) (some renamedStar)).result =
        .ok routedOpenSandwich ∧
      Embeds openSandwich.instructions routedOpenSandwich.instructions ∧
      ∃ physical b', (RoutingContext.ofMapping (starArchitecture 3)
          (some renamedStar)).physicalAll routedOpenSandwich.instructions = .ok physical ∧
        (ResonatorBank.ofArchitecture (starArchitecture 3)).Follows physical b' ∧
        ∀ t, (starArchitecture 3).isResonator t = true → b'.holder? t = some t := by
  have hrouted : (insertMoves openSandwich (starArchitecture 3) (some .trust)
      (some renamedStar)).result = .ok routedOpenSandwich := by cbv
  have hfits : ((some renamedStar).getD .empty).Fits (starArchitecture 3) := fits_renamedStar
  have hmove : ["QB1", starResonator] ∈ (starArchitecture 3).moveLoci := by
    rw [DynamicArchitecture.moveLoci_eq, mem_calibrated_star_iff]
    exact Or.inl ⟨Or.inr rfl, "QB1", by decide +kernel, rfl⟩
  obtain ⟨s, hs, -, -, hembeds, -, hrun⟩ := insertMoves_embeds (isResonator_star_iff.2 rfl) hmove
    hfits hrouted
  obtain rfl : openSandwich = s := Except.ok.inj hs
  exact ⟨hrouted, hembeds, hrun⟩

end StarQpu
