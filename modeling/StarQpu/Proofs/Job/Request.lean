import Mathlib.Data.List.Nodup
import StarQpu.Job.Request
import StarQpu.Proofs.Renaming.Validation

/-!
# StarQpu.Proofs.Job.Request

**A prepared request is sound as it is sent.** Preparation checks the options, the mapping and the
circuits as the caller wrote them, and sends other data: the open options filled in, the mapping as
a list, the circuits on logical names. Whoever receives the request reads the mapping off the list
and runs the circuits on physical names. They are valid there (`prepare_sound`), also where a
logical name is the physical name of another component.
-/

namespace StarQpu

variable {a : DynamicArchitecture} {m : QubitMapping} {c : Circuit} {circuits : List Circuit}
  {o : SubmitOptions} {r : RunRequest} {q : String} {index : Nat}

/-! ### The checks -/

theorem Circuit.mem_allQubits_iff :
    q ∈ c.allQubits ↔ ∃ i ∈ c.instructions, q ∈ i.qubits := by
  rw [allQubits, Table.mem_keys_iff, Table.contains_iff, ← List.mem_flatMap]
  constructor
  · intro h
    obtain ⟨u, hget⟩ := h
    obtain ⟨p, hp, heq⟩ := List.mem_map.1 (Table.mem_of_get?_ofList hget)
    obtain ⟨rfl, -⟩ := Prod.mk.inj heq
    exact hp
  · intro h
    exact ⟨(), Table.get?_ofList_of_mem (fun u _ => rfl) (List.mem_map.2 ⟨q, h, rfl⟩)⟩

namespace SubmitOptions

theorem injective_iff : injective m = true ↔ m.Injective := by
  have hentries : m.entries.Nodup := m.ordered.imp fun {e e'} hlt heq => by simp [heq] at hlt
  rw [injective, decide_eq_true_eq, Table.values, List.nodup_map_iff_inj_on hentries]
  constructor
  · intro h l l' p hl hl'
    exact congrArg Prod.fst
      (h (l, p) (Table.mem_entries_iff.2 hl) (l', p) (Table.mem_entries_iff.2 hl') rfl)
  · intro h e he e' he' heq
    obtain ⟨l, p⟩ := e
    obtain ⟨l', p'⟩ := e'
    obtain rfl : p = p' := heq
    rw [h (Table.mem_entries_iff.1 he) (Table.mem_entries_iff.1 he')]

theorem missing?_eq_none_iff : missing? m index circuits = none ↔
    ∀ c ∈ circuits, ∀ i ∈ c.instructions, ∀ q ∈ i.qubits, m.contains q = true := by
  induction circuits generalizing index with
  | nil => simp [missing?]
  | cons c rest ih =>
      have hfilter : c.allQubits.filter (fun q => !m.contains q) = [] ↔
          ∀ i ∈ c.instructions, ∀ q ∈ i.qubits, m.contains q = true := by
        rw [List.filter_eq_nil_iff]
        constructor
        · intro h i hi q hq
          simpa using h q (Circuit.mem_allQubits_iff.2 ⟨i, hi, hq⟩)
        · intro h q hq
          obtain ⟨i, hi, hq⟩ := Circuit.mem_allQubits_iff.1 hq
          simp [h i hi q hq]
      rw [missing?, List.forall_mem_cons, ← hfilter, ← @ih (index + 1)]
      cases c.allQubits.filter fun q => !m.contains q with
      | nil => simp
      | cons q qs => simp

theorem check_eq_ok_iff : o.check circuits = .ok () ↔
    0 < o.shots ∧ o.compilation.check = .ok () ∧ ∀ m, o.qubitMapping = some m →
      m.Injective ∧ ∀ c ∈ circuits, ∀ i ∈ c.instructions, ∀ q ∈ i.qubits, m.contains q = true := by
  rw [check]
  by_cases hshots : o.shots = 0
  · simp [hshots, throw, throwThe, MonadExceptOf.throw, bind, Except.bind]
  · rw [if_neg hshots]
    dsimp only
    rw [check_do_eq_ok_iff]
    refine Iff.trans (and_congr_right fun _ => ?_) (and_iff_right (Nat.pos_of_ne_zero hshots)).symm
    cases o.qubitMapping with
    | none => simp [pure, Except.pure]
    | some m =>
        simp only [Option.some.injEq, forall_eq', ← @missing?_eq_none_iff _ _ 0,
          ← injective_iff]
        cases injective m with
        | false => simp [throw, throwThe, MonadExceptOf.throw]
        | true =>
            cases missing? m 0 circuits <;>
              simp [throw, throwThe, MonadExceptOf.throw, pure, Except.pure]

/-- The request that is sent under the options. -/
def request (circuits : List Circuit) (o : SubmitOptions) : RunRequest where
  circuits
  customSettings := o.customSettings
  calibrationSetId := o.calibrationSetId
  qubitMapping := o.qubitMapping.map listMapping
  shots := o.shots
  maxDurationOverT2 := o.compilation.maxDurationOverT2
  heralding := o.compilation.heraldingMode
  moveValidation := o.compilation.validationMode
  frameTracking := o.compilation.trackingMode

end SubmitOptions

/-- A request is prepared exactly if the options and the circuits pass their checks. -/
theorem RunRequest.prepare_eq_ok_iff : (prepare circuits a o).result = .ok r ↔
    o.check circuits = .ok () ∧
      validateCircuits a circuits o.qubitMapping o.compilation.validationMode = .ok () ∧
      r = o.request circuits := by
  rw [prepare, Logged.result_bind]
  show (o.check circuits >>= _) = .ok r ↔ _
  rw [check_do_eq_ok_iff, Logged.result_bind]
  refine and_congr_right fun _ => ?_
  have hlogged : (Logged.tellAll (o.compilation.ignoredWarnings a.supportsMove circuits) :
      Logged ClientError Unit).result = .ok () := rfl
  rw [hlogged]
  cases validateCircuits a circuits o.qubitMapping o.compilation.validationMode with
  | error v => simp [Except.bind]
  | ok u => simp [Except.bind, SubmitOptions.request, @eq_comm _ r]

/-! ### The mapping of a request -/

/-- The entries of the list as pairs. -/
def SingleQubitMapping.pair (e : SingleQubitMapping) : String × String :=
  (e.logicalName, e.physicalName)

/-- The physical name that a list of mappings gives to a name, or the name itself. -/
def physicalName (entries : List SingleQubitMapping) (q : String) : String :=
  ((entries.map (·.pair)).lookup q).getD q

theorem map_pair_listMapping (m : QubitMapping) : (listMapping m).map (·.pair) = m.entries := by
  rw [listMapping, List.map_map]
  exact List.map_id _

theorem physicalName_listMapping (m : QubitMapping) : physicalName (listMapping m) = renamed m := by
  funext q
  rw [physicalName, map_pair_listMapping]
  rfl

/-- The circuits of a request under the physical names. -/
def RunRequest.physicalCircuits (r : RunRequest) : List Circuit :=
  match r.qubitMapping with
  | none => r.circuits
  | some entries => r.circuits.map (·.mapQubits (physicalName entries))

/-- A list of mappings that names each component once, and all components of the circuits. -/
structure Serializes (entries : List SingleQubitMapping) (circuits : List Circuit) : Prop where
  ascending : entries.Pairwise fun e e' => e.logicalName < e'.logicalName
  distinct : (entries.map (·.physicalName)).Nodup
  covers : ∀ c ∈ circuits, ∀ i ∈ c.instructions, ∀ q ∈ i.qubits,
    q ∈ entries.map (·.logicalName)

theorem serializes_listMapping (injective : m.Injective)
    (covered : ∀ c ∈ circuits, ∀ i ∈ c.instructions, ∀ q ∈ i.qubits, m.contains q = true) :
    Serializes (listMapping m) circuits where
  ascending := by
    rw [listMapping, List.pairwise_map]
    exact m.ordered.imp fun hlt => compareOfLessAndEq_eq_lt.1 hlt
  distinct := by
    have hvalues : (listMapping m).map (·.physicalName) = m.values := by
      rw [listMapping, List.map_map]
      rfl
    rw [hvalues]
    simpa [SubmitOptions.injective] using SubmitOptions.injective_iff.2 injective
  covers := by
    intro c hc i hi q hq
    have hkeys : (listMapping m).map (·.logicalName) = m.keys := by
      rw [listMapping, List.map_map]
      rfl
    rw [hkeys]
    exact Table.mem_keys_iff.2 (covered c hc i hi q hq)

/-! ### Sound requests -/

/-- What the receiver of a request relies on. -/
structure RunRequest.SoundOn (r : RunRequest) (a : DynamicArchitecture) : Prop where
  shots : 0 < r.shots
  mapping : ∀ entries, r.qubitMapping = some entries → Serializes entries r.circuits
  valid : validateCircuits a r.physicalCircuits none r.moveValidation = .ok ()

/-- **A prepared request is sound as it is sent.** It has the given circuits and asks for at least
one shot. Its list of mappings, if there is one, is in ascending order, names each component once
and has all names of the circuits; and under the names of the list the circuits are valid without
any mapping. -/
theorem RunRequest.prepare_sound (moves : a.MovesIntoResonators)
    (prepared : (prepare circuits a o).result = .ok r) :
    r.circuits = circuits ∧ r.SoundOn a := by
  obtain ⟨hcheck, hvalid, rfl⟩ := prepare_eq_ok_iff.1 prepared
  obtain ⟨hshots, -, hmapping⟩ := SubmitOptions.check_eq_ok_iff.1 hcheck
  refine ⟨rfl, hshots, fun entries hentries => ?_, ?_⟩
  · obtain ⟨m, hm, rfl⟩ := Option.map_eq_some_iff.1 hentries
    exact serializes_listMapping (hmapping m hm).1 (hmapping m hm).2
  · show validateCircuits a (o.request circuits).physicalCircuits none
      o.compilation.validationMode = .ok ()
    rw [physicalCircuits, SubmitOptions.request]
    cases hm : o.qubitMapping with
    | none =>
        rw [hm] at hvalid
        exact hvalid
    | some m =>
        rw [hm] at hvalid
        simp only [Option.map_some, physicalName_listMapping]
        exact (validateCircuits_mapQubits_iff moves (hmapping m hm).1 (hmapping m hm).2).2 hvalid

/-- A sandwich in which the qubit and the resonator are called by each other's names, and the other
qubit by the name of one that is not used. -/
def sandwichUnderOtherNames : Circuit where
  name := "c"
  instructions := [.move "CR1" "QB1", .cz "QB3" "QB1", .move "CR1" "QB1"]
  name_ne_empty := by decide
  instructions_ne_nil := List.cons_ne_nil _ _

/-- The options with these names. -/
def optionsWithOtherNames : SubmitOptions where
  qubitMapping := some (.ofList [("CR1", "QB1"), ("QB1", "CR1"), ("QB3", "QB2")])
  shots := 100

/-- The request for the sandwich. -/
def requestUnderOtherNames : RunRequest where
  circuits := [sandwichUnderOtherNames]
  qubitMapping := some [⟨"CR1", "QB1"⟩, ⟨"QB1", "CR1"⟩, ⟨"QB3", "QB2"⟩]
  shots := 100

theorem RunRequest.prepare_sound_other_names :
    (prepare [sandwichUnderOtherNames] (starArchitecture 3) optionsWithOtherNames).result =
        .ok requestUnderOtherNames ∧
      requestUnderOtherNames.SoundOn (starArchitecture 3) ∧
      requestUnderOtherNames.physicalCircuits.map (·.instructions) =
        [[.move "QB1" "CR1", .cz "QB2" "CR1", .move "QB1" "CR1"]] := by
  have hprepared :
      (prepare [sandwichUnderOtherNames] (starArchitecture 3) optionsWithOtherNames).result =
        .ok requestUnderOtherNames := by cbv
  obtain ⟨-, hsound⟩ :=
    prepare_sound (movesIntoResonators_star 3) hprepared
  exact ⟨hprepared, hsound, by decide +kernel⟩

end StarQpu
