import StarQpu.Proofs.Job.Request

/-!
# StarQpu.Proofs.Job.Tracking

**Requests whose frames cannot be tracked.** Full tracking relies on validated MOVEs, so the options
are checked for the two modes that must not meet. But an open option takes part in that check as no
mode at all, and the request is built from the modes that are filled in later: full tracking is what
an open option stands for. So a caller who switches the validation off and says nothing about
tracking gets the request that the check is there to prevent (`untrackable_iff`), and nobody else
does.
-/

namespace StarQpu

variable {a : DynamicArchitecture} {circuits : List Circuit} {o : SubmitOptions} {r : RunRequest}

namespace CompilationOptions

variable {c : CompilationOptions}

theorem check_eq_ok_iff : c.check = .ok () ↔
    ¬ (c.frameTracking = some .full ∧ c.moveValidation = some .unchecked) := by
  unfold check
  split
  · next h => simp [h]
  · next h => simp [h]

theorem validationMode_eq_unchecked_iff :
    c.validationMode = .unchecked ↔ c.moveValidation = some .unchecked := by
  unfold validationMode
  cases c.moveValidation with
  | none => simp
  | some mode => simp

theorem trackingMode_eq_full_iff :
    c.trackingMode = .full ↔ c.frameTracking = none ∨ c.frameTracking = some .full := by
  unfold trackingMode
  cases c.frameTracking with
  | none => simp
  | some mode => simp

/-- What the check says of options that are filled in is what it says of the modes. -/
theorem check_filled_eq_ok_iff :
    c.filled.check = .ok () ↔ ¬ (c.trackingMode = .full ∧ c.validationMode = .unchecked) := by
  rw [check_eq_ok_iff]
  simp [filled]

end CompilationOptions

namespace RunRequest

/-- Does the request ask for full tracking of frames that no validation backs? -/
def Untrackable (r : RunRequest) : Prop :=
  r.frameTracking = .full ∧ r.moveValidation = .unchecked

theorem untrackable_request_iff :
    (o.request circuits).Untrackable ↔ o.compilation.filled.check ≠ .ok () := by
  rw [Ne, CompilationOptions.check_filled_eq_ok_iff, not_not]
  rfl

/-- **The forbidden combination comes from an open option.** A prepared request has it exactly if
the validation was switched off and the tracking left open; the same check on the options that are
filled in would have found it. -/
theorem untrackable_iff (prepared : (prepare circuits a o).result = .ok r) :
    (r.Untrackable ↔
      o.compilation.moveValidation = some .unchecked ∧ o.compilation.frameTracking = none) ∧
    (r.Untrackable ↔ o.compilation.filled.check ≠ .ok ()) := by
  obtain ⟨hcheck, -, rfl⟩ := prepare_eq_ok_iff.1 prepared
  obtain ⟨-, hcompilation, -⟩ := SubmitOptions.check_eq_ok_iff.1 hcheck
  refine ⟨?_, untrackable_request_iff⟩
  have hforbidden := CompilationOptions.check_eq_ok_iff.1 hcompilation
  show o.compilation.trackingMode = .full ∧ o.compilation.validationMode = .unchecked ↔ _
  rw [CompilationOptions.trackingMode_eq_full_iff,
    CompilationOptions.validationMode_eq_unchecked_iff]
  constructor
  · intro h
    obtain ⟨hopen | hfull, hoff⟩ := h
    · exact ⟨hoff, hopen⟩
    · exact absurd ⟨hfull, hoff⟩ hforbidden
  · intro h
    exact ⟨Or.inl h.2, h.1⟩

/-- A circuit with a sandwich, so that both modes matter. -/
def sandwichOnStar : Circuit where
  name := "tracked"
  instructions := [.move "QB1" "CR1", .cz "QB2" "CR1", .move "QB1" "CR1"]
  name_ne_empty := by decide
  instructions_ne_nil := List.cons_ne_nil _ _

/-- No validation, and no word about tracking. -/
def optionsWithoutValidation : SubmitOptions where
  compilation := { moveValidation := some .unchecked }

theorem result_prepare_sandwichOnStar :
    (prepare [sandwichOnStar] (starArchitecture 2) optionsWithoutValidation).result =
      .ok (optionsWithoutValidation.request [sandwichOnStar]) := by
  cbv

theorem untrackable_iff_sandwichOnStar :
    (prepare [sandwichOnStar] (starArchitecture 2) optionsWithoutValidation).result =
        .ok (optionsWithoutValidation.request [sandwichOnStar]) ∧
      (optionsWithoutValidation.request [sandwichOnStar]).Untrackable :=
  ⟨result_prepare_sandwichOnStar,
    (untrackable_iff result_prepare_sandwichOnStar).1.2 ⟨rfl, rfl⟩⟩

/-- The check does not keep every request trackable. -/
theorem exists_untrackable_request : ¬ ∀ circuits a o r,
    (prepare circuits a o).result = .ok r → ¬ r.Untrackable := by
  intro h
  exact h [sandwichOnStar] (starArchitecture 2) optionsWithoutValidation _
    result_prepare_sandwichOnStar ⟨rfl, rfl⟩

end RunRequest

end StarQpu
