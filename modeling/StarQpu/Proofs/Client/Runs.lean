import StarQpu.Client.Session
import StarQpu.Proofs.Interaction

/-!
# StarQpu.Proofs.Client.Runs

**Whole runs.** A session is asked one thing after the other, each at a time of its own. A turn is
one request with its reply and the sessions around it. A property of a turn that depends on the
turns before it holds along every run as soon as some invariant gives it in one step
(`allConform_turns`).
-/

namespace StarQpu.Session

variable {ρ α : Type}

/-- The session at some time. -/
def atTime (s : Session) (time : Duration) : Session := { s with clock := time }

/-- A request at some time. -/
structure Visit (ρ : Type) where
  time : Duration
  request : ρ

/-- A request with its reply, and the session at the time of the request and after it. -/
structure Turn (ρ α : Type) where
  request : ρ
  before : Session
  reply : Except ClientError α
  after : Session

/-- Serves a request at its time. -/
def turn (serve : ρ → Interaction Session α) (s : Session) (v : Visit ρ) : Turn ρ α :=
  let before := s.atTime v.time
  let outcome := (serve v.request).run before
  ⟨v.request, before, outcome.1.result, outcome.2⟩

/-- Serves requests one after the other. -/
def turns (serve : ρ → Interaction Session α) : Session → List (Visit ρ) → List (Turn ρ α)
  | _, [] => []
  | s, v :: rest => turn serve s v :: turns serve (turn serve s v).after rest

theorem turn_of_ofExcept {serve : ρ → Interaction Session α} {s s' : Session} {v : Visit ρ}
    {reply : Except ClientError α} {log : List Event}
    (h : serve v.request ⟨s.atTime v.time, []⟩ = Interaction.ofExcept reply ⟨s', log⟩) :
    turn serve s v = ⟨v.request, s.atTime v.time, reply, s'⟩ := by
  unfold turn
  dsimp only
  rw [Interaction.run_of_ofExcept h]

/-- Does every turn do what the turns before it say? -/
def AllConform (Conforms : List (Turn ρ α) → Turn ρ α → Prop) :
    List (Turn ρ α) → List (Turn ρ α) → Prop
  | _, [] => True
  | past, t :: later => Conforms past t ∧ AllConform Conforms (past ++ [t]) later

/-- What an invariant gives in one step holds along every run. -/
theorem allConform_turns {serve : ρ → Interaction Session α}
    {Conforms : List (Turn ρ α) → Turn ρ α → Prop} (Standing : List (Turn ρ α) → Session → Prop)
    (hstep : ∀ past s v, Standing past s →
      Conforms past (turn serve s v) ∧
        Standing (past ++ [turn serve s v]) (turn serve s v).after)
    {past : List (Turn ρ α)} {s : Session} (h : Standing past s) (visits : List (Visit ρ)) :
    AllConform Conforms past (turns serve s visits) := by
  induction visits generalizing past s with
  | nil => trivial
  | cons v later ih =>
      obtain ⟨hconforms, hstanding⟩ := hstep past s v h
      exact ⟨hconforms, ih hstanding⟩

end StarQpu.Session
