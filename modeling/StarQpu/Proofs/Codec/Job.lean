import StarQpu.Codec.Job
import StarQpu.Proofs.Codec.Architecture
import StarQpu.Proofs.Codec.Circuit

/-!
# StarQpu.Proofs.Codec.Job

**Requests, results and options are read as they were written.** What a document gives to a request
is within the bounds of its numbers and holds circuits that can be built again
(`RunRequest.Readable`); a result holds such a request. With that, every format of the library
settles: whatever was accepted is written in a form that gives the same value again
(`decoders_normalize`).
-/

namespace StarQpu

open Decoder

/-! ### Modes -/

theorem Status.reads (s : Status) : Reads Status.decoder (.str s.name) s :=
  reads_variant (by cases s <;> rfl)

theorem HeraldingMode.reads (m : HeraldingMode) : Reads HeraldingMode.decoder (.str m.name) m :=
  reads_variant (by cases m <;> rfl)

theorem FrameTracking.reads (m : FrameTracking) : Reads FrameTracking.decoder (.str m.name) m :=
  reads_variant (by cases m <;> rfl)

theorem MoveValidation.reads (m : MoveValidation) : Reads MoveValidation.decoder (.str m.name) m :=
  reads_variant (by cases m <;> rfl)

theorem ofBinary64_ne_null {x : Binary64} (h : x.isFinite = true) : Json.ofBinary64 x ≠ .null := by
  simp [Json.ofBinary64, h]

/-! ### Options -/

namespace CompilationOptions

theorem slots_independent : Independent slots where
  distinct := by simp [slots]
  commute := by simp [slots]

theorem finite_of_gives {c : CompilationOptions} (h : Gives decoder c) :
    ∀ x, c.maxDurationOverT2 = some x → x.isFinite = true := by
  obtain ⟨o, s, r, hr, hbuild⟩ := exists_record_of_gives h
  have hduration : ∀ v, r.maxDuration = some v → Gives (option binary64) v :=
    gives_record Fields.maxDuration hr rfl (by simp [slots])
  cases hbuild
  intro x hx
  exact gives_binary64 (gives_option (gives_of_getD hduration hx))

theorem meetsAll {c : CompilationOptions}
    (h : ∀ x, c.maxDurationOverT2 = some x → x.isFinite = true) : MeetsAll slots
    [("max_circuit_duration_over_t2", some ((binary64Json c.maxDurationOverT2).getD .null)),
      ("heralding_mode", some ((c.heralding.map fun m => Json.str m.name).getD .null)),
      ("move_gate_validation", some ((c.moveValidation.map fun m => Json.str m.name).getD .null)),
      ("move_gate_frame_tracking",
        some ((c.frameTracking.map fun m => Json.str m.name).getD .null))]
    {} ⟨some c.maxDurationOverT2, some c.heralding, some c.moveValidation, some c.frameTracking⟩ :=
  .cons (meets_slot rfl (reads_orNull (fun x hx => reads_binary64 (h x hx))
    fun x hx => ofBinary64_ne_null (h x hx))) <|
  .cons (meets_slot rfl (reads_orNull (fun m _ => m.reads) nofun)) <|
  .cons (meets_slot rfl (reads_orNull (fun m _ => m.reads) nofun)) <|
  .cons (meets_slot rfl (reads_orNull (fun m _ => m.reads) nofun)) .nil

theorem settles : Settles decoder toJson :=
  fun _ h => reads_build slots_independent (meetsAll (finite_of_gives h)) rfl

end CompilationOptions

/-! ### Requests -/

theorem SingleQubitMapping.reads (e : SingleQubitMapping) : Reads decoder e.toJson e :=
  reads_build ⟨by simp, by simp⟩
    (.cons (meets_slot rfl (reads_string e.logicalName)) <|
    .cons (meets_slot rfl (reads_string e.physicalName)) .nil) rfl

namespace RunRequest

/-- Can every part of the request be read back? -/
structure Readable (r : RunRequest) : Prop where
  circuits : ∀ c ∈ r.circuits, c.Readable
  customSettings : ∀ j, r.customSettings = some j → j.IsCanonical ∧ j ≠ .null
  shots : (r.shots : Int) ≤ twoTo 32 - 1
  maxDuration : ∀ x, r.maxDurationOverT2 = some x → x.isFinite = true

theorem gives_shots {n : Nat} (h : Gives shotsDecoder n) : (n : Int) ≤ twoTo 32 - 1 := by
  obtain ⟨o, s, h⟩ := h
  obtain ⟨m, hm, rfl⟩ := map_eq_ok_iff.1 h
  obtain ⟨hlow, hhigh⟩ := gives_integer ⟨o, s, hm⟩
  rwa [Int.toNat_of_nonneg hlow]

theorem reads_shots {n : Nat} (h : (n : Int) ≤ twoTo 32 - 1) :
    Reads shotsDecoder (.num (.int n)) n :=
  fun order => map_eq_ok_iff.2 ⟨n, reads_integer ⟨Int.natCast_nonneg n, h⟩ order, rfl⟩

theorem slots_independent : Independent slots where
  distinct := by simp [slots]
  commute := by simp [slots]

theorem readable_of_gives {q : RunRequest} (h : Gives decoder q) : q.Readable := by
  obtain ⟨o, s, r, hr, hbuild⟩ := exists_record_of_gives h
  have hcircuits : ∀ cs, r.circuits = some cs → Gives (list Circuit.decoder) cs :=
    gives_record Fields.circuits hr rfl (by simp [slots])
  have hsettings : ∀ v, r.customSettings = some v → Gives (option json) v :=
    gives_record Fields.customSettings hr rfl (by simp [slots])
  have hshots : ∀ n, r.shots = some n → Gives shotsDecoder n :=
    gives_record Fields.shots hr rfl (by simp [slots])
  have hduration : ∀ v, r.maxDuration = some v → Gives (option binary64) v :=
    gives_record Fields.maxDuration hr rfl (by simp [slots])
  obtain ⟨circuits, hrequired, hbuild⟩ := do_eq_ok_iff.1 hbuild
  obtain ⟨shots, hrequired', hbuild⟩ := do_eq_ok_iff.1 hbuild
  cases hbuild
  constructor
  · intro c hc
    exact Circuit.readable_of_gives
      (gives_list (hcircuits circuits (required_eq_ok_iff.1 hrequired)) c hc)
  · intro j hj
    exact gives_option_json (gives_of_getD hsettings hj)
  · exact gives_shots (hshots shots (required_eq_ok_iff.1 hrequired'))
  · intro x hx
    exact gives_binary64 (gives_option (gives_of_getD hduration hx))

theorem meetsAll {q : RunRequest} (h : q.Readable) : MeetsAll slots
    [("circuits", some (.arr (q.circuits.map Circuit.toJson))),
      ("custom_settings", q.customSettings.map id),
      ("calibration_set_id", q.calibrationSetId.map Uuid.toJson),
      ("qubit_mapping", q.qubitMapping.map fun es => .arr (es.map SingleQubitMapping.toJson)),
      ("shots", some (.num (.int q.shots))),
      ("max_circuit_duration_over_t2", binary64Json q.maxDurationOverT2),
      ("heralding_mode", some (.str q.heralding.name)),
      ("move_validation_mode", some (.str q.moveValidation.name)),
      ("move_gate_frame_tracking_mode", some (.str q.frameTracking.name))]
    {} {
      circuits := some q.circuits
      customSettings := q.customSettings.map some
      calibrationSetId := q.calibrationSetId.map some
      qubitMapping := q.qubitMapping.map some
      shots := some q.shots
      maxDuration := q.maxDurationOverT2.map some
      heralding := some q.heralding
      moveValidation := some q.moveValidation
      frameTracking := some q.frameTracking } :=
  .cons (meets_slot rfl (reads_list fun c hc => Circuit.reads_of_readable (h.circuits c hc))) <|
  .cons (meets_option (fun r v => { r with customSettings := v }) rfl rfl (fun _ => rfl)
    (fun j hj => reads_json (h.customSettings j hj).1) fun j hj => (h.customSettings j hj).2) <|
  .cons (meets_option (fun r v => { r with calibrationSetId := v }) rfl rfl (fun _ => rfl)
    (fun u _ => reads_uuid u) nofun) <|
  .cons (meets_option (fun r v => { r with qubitMapping := v }) rfl rfl (fun _ => rfl)
    (fun _ _ => reads_list fun e _ => e.reads) nofun) <|
  .cons (meets_slot rfl (reads_shots h.shots)) <|
  .cons (meets_option (fun r v => { r with maxDuration := v }) rfl rfl (fun _ => rfl)
    (fun x hx => reads_binary64 (h.maxDuration x hx))
    fun x hx => ofBinary64_ne_null (h.maxDuration x hx)) <|
  .cons (meets_slot rfl q.heralding.reads) <|
  .cons (meets_slot rfl q.moveValidation.reads) <|
  .cons (meets_slot rfl q.frameTracking.reads) .nil

theorem reads_of_readable {q : RunRequest} (h : q.Readable) : Reads decoder q.toJson q := by
  have hmeets := meetsAll h
  rw [Option.map_id] at hmeets
  refine reads_build slots_independent hmeets ?_
  simp only [required, getD_map_some, Option.getD_some]
  rfl

theorem settles : Settles decoder toJson :=
  fun _ h => reads_of_readable (readable_of_gives h)

end RunRequest

/-! ### Results -/

namespace Metadata

theorem slots_independent : Independent slots where
  distinct := by simp [slots]
  commute := by simp [slots]

theorem readable_of_gives {m : Metadata} (h : Gives decoder m) : m.request.Readable := by
  obtain ⟨o, s, r, hr, hbuild⟩ := exists_record_of_gives h
  have hrequest : ∀ q, r.request = some q → Gives RunRequest.decoder q :=
    gives_record Fields.request hr rfl (by simp [slots])
  obtain ⟨request, hrequired, hbuild⟩ := do_eq_ok_iff.1 hbuild
  cases hbuild
  exact RunRequest.readable_of_gives (hrequest request (required_eq_ok_iff.1 hrequired))

theorem meetsAll {m : Metadata} (h : m.request.Readable) : MeetsAll slots
    [("calibration_set_id", m.calibrationSetId.map Uuid.toJson),
      ("request", some m.request.toJson),
      ("cocos_version", m.cocosVersion.map .str),
      ("timestamps", m.timestamps.map (.ofTable .str))]
    {} ⟨m.calibrationSetId.map some, some m.request, m.cocosVersion.map some,
      m.timestamps.map some⟩ :=
  .cons (meets_option (fun r v => { r with calibrationSetId := v }) rfl rfl (fun _ => rfl)
    (fun u _ => reads_uuid u) nofun) <|
  .cons (meets_slot rfl (RunRequest.reads_of_readable h)) <|
  .cons (meets_option (fun r v => { r with cocosVersion := v }) rfl rfl (fun _ => rfl)
    (fun t _ => reads_string t) nofun) <|
  .cons (meets_option (fun r v => { r with timestamps := v }) rfl rfl (fun _ => rfl)
    (fun _ _ => reads_table fun t _ => reads_string t) nofun) .nil

theorem reads_of_readable {m : Metadata} (h : m.request.Readable) :
    Reads decoder m.toJson m := by
  refine reads_build slots_independent (meetsAll h) ?_
  simp only [required, getD_map_some]
  rfl

end Metadata

/-- The outcomes of a circuit are written as the integers that they were read from. -/
theorem CircuitResults.settles : Settles decoder toJson :=
  Settles.table <| Settles.list <| Settles.list fun _ h => reads_integer (gives_integer h)

namespace RunResult

theorem slots_independent : Independent slots where
  distinct := by simp [slots]
  commute := by simp [slots]

/-- Can every part of the result be read back? -/
structure Readable (q : RunResult) : Prop where
  measurements : ∀ cs, q.measurements = some cs → Gives (list CircuitResults.decoder) cs
  request : q.metadata.request.Readable

theorem readable_of_gives {q : RunResult} (h : Gives decoder q) : q.Readable := by
  obtain ⟨o, s, r, hr, hbuild⟩ := exists_record_of_gives h
  have hmeasurements : ∀ v, r.measurements = some v →
      Gives (option (list CircuitResults.decoder)) v :=
    gives_record Fields.measurements hr rfl (by simp [slots])
  have hmetadata : ∀ m, r.metadata = some m → Gives Metadata.decoder m :=
    gives_record Fields.metadata hr rfl (by simp [slots])
  obtain ⟨status, -, hbuild⟩ := do_eq_ok_iff.1 hbuild
  obtain ⟨metadata, hrequired, hbuild⟩ := do_eq_ok_iff.1 hbuild
  cases hbuild
  constructor
  · intro cs hcs
    exact gives_option (gives_of_getD hmeasurements hcs)
  · exact Metadata.readable_of_gives (hmetadata metadata (required_eq_ok_iff.1 hrequired))

theorem meetsAll {q : RunResult} (h : q.Readable) : MeetsAll slots
    [("status", some (.str q.status.name)),
      ("measurements", q.measurements.map fun cs => .arr (cs.map CircuitResults.toJson)),
      ("message", q.message.map .str),
      ("metadata", some q.metadata.toJson),
      ("warnings", q.warnings.map .ofStrings)]
    {} ⟨some q.status, q.measurements.map some, q.message.map some, some q.metadata,
      q.warnings.map some⟩ :=
  .cons (meets_slot rfl q.status.reads) <|
  .cons (meets_option (fun r v => { r with measurements := v }) rfl rfl (fun _ => rfl)
    (fun cs hcs => CircuitResults.settles.list cs (h.measurements cs hcs)) nofun) <|
  .cons (meets_option (fun r v => { r with message := v }) rfl rfl (fun _ => rfl)
    (fun t _ => reads_string t) nofun) <|
  .cons (meets_slot rfl (Metadata.reads_of_readable h.request)) <|
  .cons (meets_option (fun r v => { r with warnings := v }) rfl rfl (fun _ => rfl)
    (fun _ _ => reads_list fun t _ => reads_string t) nofun) .nil

theorem settles : Settles decoder toJson := by
  intro q h
  refine reads_build slots_independent (meetsAll (readable_of_gives h)) ?_
  simp only [required, getD_map_some]
  rfl

end RunResult

namespace RunStatus

theorem slots_independent : Independent slots where
  distinct := by simp [slots]
  commute := by simp [slots]

theorem meetsAll (q : RunStatus) : MeetsAll slots
    [("status", some (.str q.status.name)), ("message", q.message.map .str),
      ("warnings", q.warnings.map .ofStrings)]
    {} ⟨some q.status, q.message.map some, q.warnings.map some⟩ :=
  .cons (meets_slot rfl q.status.reads) <|
  .cons (meets_option (fun r v => { r with message := v }) rfl rfl (fun _ => rfl)
    (fun t _ => reads_string t) nofun) <|
  .cons (meets_option (fun r v => { r with warnings := v }) rfl rfl (fun _ => rfl)
    (fun _ _ => reads_list fun t _ => reads_string t) nofun) .nil

theorem settles : Settles decoder toJson := by
  intro q _
  refine reads_build slots_independent (meetsAll q) ?_
  simp only [required, getD_map_some]
  rfl

end RunStatus

/-! ### All formats -/

namespace Decoder

variable {α : Type} {d : Decoder α} {encode : α → Json}

/-- Whatever the decoder accepts is written in a form that it reads as the same value, with the
fields of objects as they are written and with their names in order. -/
def Normalizes (d : Decoder α) (encode : α → Json) : Prop := ∀ v x, d.ofValue v = .ok x →
  d.ofValue (encode x) = .ok x ∧ d.ofValue (encode x).canonical = .ok x

theorem Settles.normalizes (h : Settles d encode) : Normalizes d encode := by
  intro v x hx
  have hread := h x ⟨.value, v.toSource, hx⟩
  exact ⟨hread .written, hread .sorted⟩

end Decoder

/-- Decoding normalizes once and for all: in each format, whatever spelling of a value was accepted,
the form in which the value is written gives the same value. -/
theorem decoders_normalize :
    Normalizes Instruction.decoder Instruction.toJson ∧
    Normalizes Circuit.decoder Circuit.toJson ∧
    Normalizes DynamicArchitecture.decoder DynamicArchitecture.toJson ∧
    Normalizes StaticArchitecture.decoder StaticArchitecture.toJson ∧
    Normalizes CompilationOptions.decoder CompilationOptions.toJson ∧
    Normalizes RunRequest.decoder RunRequest.toJson ∧
    Normalizes RunStatus.decoder RunStatus.toJson ∧
    Normalizes RunResult.decoder RunResult.toJson :=
  ⟨Instruction.settles.normalizes, Circuit.settles.normalizes,
    DynamicArchitecture.settles.normalizes, StaticArchitecture.settles.normalizes,
    CompilationOptions.settles.normalizes, RunRequest.settles.normalizes,
    RunStatus.settles.normalizes, RunResult.settles.normalizes⟩

/-- A description by names, one of them an old one, given as the list of its fields. -/
def describedByNames : Json :=
  .arr [.str "Star", .ofStrings ["phased_rx", "cz"], .ofStrings ["QB1", "QB2"],
    .arr [.ofStrings ["QB1", "QB2"]]]

/-- The same description by current names and loci. -/
def describedByLoci : StaticArchitecture where
  name := "Star"
  operations := .ofList [("cz", [["QB1", "QB2"]]), ("prx", [["QB1"], ["QB2"]])]
  qubits := ["QB1", "QB2"]
  connectivity := [["QB1", "QB2"]]

theorem decoders_normalize_describedByNames :
    StaticArchitecture.decoder.ofValue describedByNames = .ok describedByLoci ∧
      StaticArchitecture.decoder.ofValue describedByLoci.toJson = .ok describedByLoci := by
  have hread : StaticArchitecture.decoder.ofValue describedByNames = .ok describedByLoci := by rfl
  exact ⟨hread, (decoders_normalize.2.2.2.1 describedByNames describedByLoci hread).1⟩

end StarQpu
