import StarQpu.Codec.Architecture
import StarQpu.Proofs.Codec.Record
import StarQpu.Proofs.Locus.Key

/-!
# StarQpu.Proofs.Codec.Architecture

**Architectures are read as they were written.** The overrides of a gate are written under the keys
that they were read from, since the loci of different keys are different (`overrides_perm`,
`locusKeys_exact`). A static description may be given with old names or without loci; it is written
with current names and with loci, and both stay as they are from there on (`table_byLoci`).
-/

namespace StarQpu

open Decoder

theorem reads_loci (loci : List Locus) : Reads lociDecoder (lociJson loci) loci :=
  reads_list fun _ _ => reads_list fun t _ => reads_string t

/-! ### Gates -/

namespace GateInfo

theorem reads_implementation (loci : List Locus) :
    Reads implementationDecoder (.obj [("loci", lociJson loci)]) loci :=
  reads_build ⟨by simp, by simp⟩ (.cons (meets_slot rfl (reads_loci loci)) .nil) rfl

/-- No two keys are read as one locus. -/
theorem nodup_overridesOfKeys (t : Table String String) :
    ((t.entries.map fun e => (Locus.ofKey e.1, e.2)).map (·.1)).Nodup := by
  have hkeys := t.nodup_keys.map Locus.ofKey_injective
  rw [List.map_map] at hkeys ⊢
  exact hkeys

/-- Overrides by locus are written as the overrides by key that they were read from. -/
theorem overrides_perm (t : Table String String) :
    ((overridesOfKeys t).entries.map fun e => (Locus.key e.1, e.2)).Perm t.entries := by
  let byLocus := t.entries.map fun e => (Locus.ofKey e.1, e.2)
  have hbyKey : byLocus.map (fun e => (Locus.key e.1, e.2)) = t.entries := by
    simp [byLocus, Function.comp_def, Locus.key_ofKey]
  rw [← hbyKey]
  exact (Table.entries_ofList_perm (nodup_overridesOfKeys t)).map _

/-- What is filed under a key is filed under its locus. -/
theorem get?_overridesOfKeys (t : Table String String) (key : String) :
    (overridesOfKeys t).get? (Locus.ofKey key) = t.get? key := by
  refine Option.ext fun implementation => ?_
  rw [overridesOfKeys, Table.get?_ofList_iff (nodup_overridesOfKeys t), ← Table.mem_entries_iff]
  simp [Locus.ofKey_injective.eq_iff]

theorem size_overridesOfKeys (t : Table String String) : (overridesOfKeys t).size = t.size := by
  have hperm := (overrides_perm t).length_eq
  rwa [List.length_map] at hperm

theorem reads_overrides (t : Table String String) :
    Reads (table string) (overridesJson (overridesOfKeys t)) t := by
  have hperm := overrides_perm t
  have distinct := (hperm.map (·.1)).nodup_iff.2 t.nodup_keys
  have hread := reads_table_ofList distinct fun e _ => reads_string e.2
  rw [Table.ofList_eq_of_perm hperm, List.map_map] at hread
  exact hread

theorem slots_independent : Independent slots where
  distinct := by simp [slots]
  commute := by simp [slots]

section Reading

variable (implementations : Table String (List Locus)) (defaultImplementation : String)

/-- A gate is read from its three fields, the overrides by their keys. -/
theorem reads_gate {overrides : Json} {t : Table String String}
    (h : Reads (table string) overrides t) :
    Reads decoder
      (.obj [("implementations",
          .ofTable (fun loci => .obj [("loci", lociJson loci)]) implementations),
        ("default_implementation", .str defaultImplementation),
        ("override_default_implementation", overrides)])
      ⟨implementations, defaultImplementation, overridesOfKeys t⟩ :=
  reads_build slots_independent
    (.cons (meets_slot rfl (reads_table fun loci _ => reads_implementation loci)) <|
    .cons (meets_slot rfl (reads_string defaultImplementation)) <|
    .cons (meets_slot rfl h) .nil) rfl

end Reading

theorem settles : Settles decoder toJson := by
  intro g h
  obtain ⟨o, s, r, -, hbuild⟩ := exists_record_of_gives h
  obtain ⟨implementations, -, hbuild⟩ := do_eq_ok_iff.1 hbuild
  obtain ⟨defaultImplementation, -, hbuild⟩ := do_eq_ok_iff.1 hbuild
  cases hbuild
  exact reads_gate implementations defaultImplementation (reads_overrides _)

/-- **Locus keys are exact.** A key is the key of the locus that it is read as, so no two keys are
read as one locus, and the overrides of a gate are all there once they are read, each for the locus
of its key. A locus is read as it was written exactly if it is not the one that consists of an empty
name, none of its names has two underscores in a row, and none but the last ends in one. -/
theorem locusKeys_exact :
    (∀ key, Locus.key (Locus.ofKey key) = key) ∧ Function.Injective Locus.ofKey ∧
      (∀ (implementations : Table String (List Locus)) (defaultImplementation : String)
        (t : Table String String), ∃ overrides : Table Locus String,
          Reads decoder
            (.obj [("implementations",
                .ofTable (fun loci => .obj [("loci", lociJson loci)]) implementations),
              ("default_implementation", .str defaultImplementation),
              ("override_default_implementation", .ofTable .str t)])
            ⟨implementations, defaultImplementation, overrides⟩ ∧
          overrides.size = t.size ∧ ∀ key, overrides.get? (Locus.ofKey key) = t.get? key) ∧
      ∀ l : Locus, Locus.ofKey (Locus.key l) = l ↔
        l ≠ [""] ∧ (∀ name ∈ l, ¬ ['_', '_'] <:+: name.toList) ∧
          ∀ name ∈ l.dropLast, ¬ ['_'] <:+ name.toList := by
  refine ⟨Locus.key_ofKey, Locus.ofKey_injective, fun implementations defaultImplementation t => ?_,
    fun l => ?_⟩
  · have hread : Reads (table string) (.ofTable .str t) t := reads_table fun v _ => reads_string v
    exact ⟨overridesOfKeys t, reads_gate implementations defaultImplementation hread,
      size_overridesOfKeys t, get?_overridesOfKeys t⟩
  · rw [Locus.ofKey_key_iff, Locus.cuttable_map_toList_iff]

example : Locus.ofKey (Locus.key ["A_", "B"]) = ["A", "_B"] := by decide +kernel

end GateInfo

/-! ### Calibrated views -/

namespace DynamicArchitecture

theorem slots_independent : Independent slots where
  distinct := by simp [slots]
  commute := by simp [slots]

theorem settles : Settles decoder toJson := by
  intro a h
  obtain ⟨o, s, r, hr, hbuild⟩ := exists_record_of_gives h
  have hgates : ∀ t, r.gates = some t → Gives (table GateInfo.decoder) t :=
    gives_record Fields.gates hr rfl (by simp [slots])
  obtain ⟨calibrationSetId, -, hbuild⟩ := do_eq_ok_iff.1 hbuild
  obtain ⟨qubits, -, hbuild⟩ := do_eq_ok_iff.1 hbuild
  obtain ⟨resonators, -, hbuild⟩ := do_eq_ok_iff.1 hbuild
  obtain ⟨gates, hrequired, hbuild⟩ := do_eq_ok_iff.1 hbuild
  cases hbuild
  have hgiven := hgates gates (required_eq_ok_iff.1 hrequired)
  exact reads_build slots_independent
    (.cons (meets_slot rfl (reads_uuid calibrationSetId)) <|
    .cons (meets_slot rfl (reads_list fun t _ => reads_string t)) <|
    .cons (meets_slot rfl (reads_list fun t _ => reads_string t)) <|
    .cons (meets_slot rfl (GateInfo.settles.table gates hgiven)) .nil) rfl

end DynamicArchitecture

/-! ### Static descriptions -/

/-- A current name is its own current name. -/
theorem currentName_currentName (name : String) :
    currentName (currentName name) = currentName name := by
  have hrows : ∀ op ∈ Operation.table, currentName op.currentName = op.currentName := by decide
  cases hfound : Operation.find? name with
  | none => simp [currentName, hfound]
  | some op =>
      have hname : op.name = name := by simpa using List.find?_some hfound
      have hcurrent : currentName name = op.currentName := by
        rw [currentName, hfound, Operation.currentName, hname]
      rw [hcurrent]
      exact hrows op (List.mem_of_find?_eq_some hfound)

namespace StaticArchitecture

/-- A table of operations is listed under current names. -/
theorem currentName_of_mem_table {l : OperationList} {qubits : List String}
    {connectivity : List Locus} {e : String × List Locus}
    (h : e ∈ (l.table qubits connectivity).entries) : currentName e.1 = e.1 := by
  obtain ⟨current, loci⟩ := e
  cases l with
  | byLoci t =>
      have hlisted := Table.mem_of_get?_ofList (Table.mem_entries_iff.1 h)
      obtain ⟨e', -, heq⟩ := List.mem_map.1 hlisted
      have hname : currentName e'.1 = current := congrArg Prod.fst heq
      rw [← hname, currentName_currentName]
  | byName names =>
      have hlisted := Table.mem_of_get?_ofList (Table.mem_entries_iff.1 h)
      obtain ⟨name, -, heq⟩ := List.mem_map.1 hlisted
      have hname : currentName name = current := congrArg Prod.fst heq
      rw [← hname, currentName_currentName]

/-- A table under current names is listed as it is. -/
theorem table_byLoci {t : OperationTable} (h : ∀ e ∈ t.entries, currentName e.1 = e.1)
    (qubits : List String) (connectivity : List Locus) :
    (OperationList.byLoci t).table qubits connectivity = t := by
  have hsame : (t.entries.map fun e => (currentName e.1, e.2)) = t.entries := by
    refine (List.map_congr_left (g := id) fun e he => ?_).trans (List.map_id _)
    exact Prod.ext (h e he) rfl
  show Table.ofList (t.entries.map fun e => (currentName e.1, e.2)) = t
  rw [hsame, Table.ofList_eq_of_perm (.refl _)]

theorem reads_operations (t : OperationTable) :
    Reads OperationList.decoder (.ofTable lociJson t) (.byLoci t) := by
  intro order
  have hread := reads_table (fun loci _ => reads_loci loci) order (t := t)
  rw [ofValue] at hread
  rw [ofValue, OperationList.decoder, Json.toJson_toSource, hread]

theorem slots_independent : Independent slots where
  distinct := by simp [slots]
  commute := by simp [slots]

theorem settles : Settles decoder toJson := by
  intro a h
  obtain ⟨o, s, r, -, hbuild⟩ := exists_record_of_gives h
  obtain ⟨name, -, hbuild⟩ := do_eq_ok_iff.1 hbuild
  obtain ⟨operations, -, hbuild⟩ := do_eq_ok_iff.1 hbuild
  obtain ⟨qubits, -, hbuild⟩ := do_eq_ok_iff.1 hbuild
  obtain ⟨connectivity, -, hbuild⟩ := do_eq_ok_iff.1 hbuild
  rw [liftBuild_eq_ok_iff, build] at hbuild
  split at hbuild
  · cases hbuild
  · next hname =>
      cases hbuild
      have hcurrent := fun e => @currentName_of_mem_table operations qubits connectivity e
      refine reads_build slots_independent
        (.cons (meets_slot rfl (reads_string name)) <|
        .cons (meets_slot rfl (reads_operations _)) <|
        .cons (meets_slot rfl (reads_list fun t _ => reads_string t)) <|
        .cons (meets_slot rfl (reads_loci connectivity)) .nil) ?_
      refine liftBuild_eq_ok_iff.2 ?_
      rw [build, if_neg hname, table_byLoci hcurrent]

end StaticArchitecture

end StarQpu
