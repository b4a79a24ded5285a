import Mathlib.Algebra.Order.Floor.Div
import StarQpu.Job.Client
import StarQpu.Proofs.Interaction

/-!
# StarQpu.Proofs.Job.Waiting

**Waiting, question by question.** A job is described by what it answers: to each question about its
status, and to the one for its result. A client that only lets time pass between two questions asks
at the start and then after each interval, as long as the answers say that the job is pending
(`waitUntil_add`), and logs each of these; it stops at the first answer that does not, or when the
time is up. Since every interval takes time, the time is up after the timeout divided by the
interval, rounded up, and the bound on the number of questions is never what ends the waiting
(`WaitsExactly`).
-/

namespace StarQpu

/-! ### A job and its answers -/

/-- A call of a client that waits for a job. -/
inductive WaitingCall where
  | status
  | result
  deriving DecidableEq

/-- The time that has passed for a client, and its calls with their times. -/
structure CallLog where
  clock : Duration
  calls : List (Duration × WaitingCall) := []

namespace CallLog

/-- Keeps a call. -/
def keep (l : CallLog) (call : WaitingCall) : CallLog :=
  { l with calls := l.calls ++ [(l.clock, call)] }

/-- Lets time pass. -/
def pass (l : CallLog) (span : Duration) : CallLog :=
  { l with clock := ⟨l.clock.nanoseconds + span.nanoseconds⟩ }

/-- How often the status was asked for. -/
def questions (l : CallLog) : Nat := l.calls.countP (·.2 = .status)

end CallLog

/-- A job that waiting is about. -/
structure AnsweringJob where
  /-- The answers to the questions about its status, one after the other. -/
  answers : Nat → Except ClientError RunStatus
  /-- The answer to the question for its result. -/
  outcome : Logged ClientError RunResult
  /-- The time between two questions. -/
  interval : Duration

namespace AnsweringJob

variable (j : AnsweringJob)

/-- A client of the job. Time passes in the pauses only, and nothing but waiting is possible. -/
def client : JobClient CallLog where
  architecture _ := throw .network
  submit _ := throw .network
  status _ := do
    let l ← Interaction.state
    Interaction.update (·.keep .status)
    Interaction.ofExcept (j.answers l.questions)
  result _ := do
    Interaction.update (·.keep .result)
    Interaction.ofLogged j.outcome
  pause := Interaction.update (·.pass j.interval)
  clock l := l.clock
  patience _ := 0

/-- The time when `k` intervals have passed. -/
def time (start : Duration) (k : Nat) : Duration :=
  ⟨start.nanoseconds + k * j.interval.nanoseconds⟩

/-- The first `k` questions: one at the start and one after each interval. -/
def asked (start : Duration) (k : Nat) : List (Duration × WaitingCall) :=
  (List.range k).map fun i => (j.time start i, .status)

/-- What is logged when the first `k` answers have not said what was waited for. -/
def reported (job : Uuid) (k : Nat) : List Event :=
  (List.range k).filterMap fun i =>
    (j.answers i).toOption.map fun answer => JobClient.pendingEvent job answer.status

/-- After `k` questions, each with a pause behind it. -/
def paused (start : Duration) (k : Nat) : CallLog := ⟨j.time start k, j.asked start k⟩

/-- After `k` pauses and one question more than that. -/
def answered (start : Duration) (k : Nat) : CallLog := ⟨j.time start k, j.asked start (k + 1)⟩

variable {j} {start timeout : Duration} {job : Uuid} {goal pending : Status → Bool}
  {late e : ClientError} {answer : RunStatus} {deadline fuel k n : Nat} {log : List Event}

theorem asked_succ : j.asked start (k + 1) = j.asked start k ++ [(j.time start k, .status)] := by
  rw [asked, List.range_succ, List.map_append]
  rfl

theorem reported_succ (h : j.answers k = .ok answer) :
    j.reported job (k + 1) =
      j.reported job k ++ [JobClient.pendingEvent job answer.status] := by
  rw [reported, List.range_succ, List.filterMap_append]
  simp [reported, h, Except.toOption]

theorem countP_asked : (j.asked start k).countP (·.2 = .status) = k := by
  simp [asked, List.countP_map, Function.comp_def]

/-! ### One question -/

theorem status_apply : j.client.status job ⟨j.paused start k, log⟩ =
    Interaction.ofExcept (j.answers k) ⟨j.answered start k, log⟩ := by
  have hquestions : (j.paused start k).questions = k := countP_asked
  have hkeep : (j.paused start k).keep .status = j.answered start k := by
    rw [answered, asked_succ]
    rfl
  change Interaction.ofExcept (j.answers (j.paused start k).questions)
    ⟨(j.paused start k).keep .status, log⟩ = _
  rw [hquestions, hkeep]

theorem pause_apply : j.client.pause ⟨j.answered start k, log⟩ =
    .ok () ⟨j.paused start (k + 1), log⟩ := by
  have hpass : (j.answered start k).pass j.interval = j.paused start (k + 1) := by
    simp only [CallLog.pass, answered, paused, time, Nat.succ_mul, Nat.add_assoc]
  rw [← hpass]
  rfl

theorem result_apply : j.client.result job ⟨j.answered start k, log⟩ =
    Interaction.ofLogged j.outcome ⟨(j.answered start k).keep .result, log⟩ := rfl

/-- When the time is up, no question is asked. -/
theorem waitUntil_of_late (hlate : deadline ≤ (j.time start k).nanoseconds) :
    j.client.waitUntil job goal late deadline fuel ⟨j.paused start k, log⟩ =
      .error late ⟨j.paused start k, log⟩ := by
  cases fuel with
  | zero => rfl
  | succ fuel =>
      rw [JobClient.waitUntil, Interaction.state_bind_apply]
      exact congrFun (if_neg (Nat.not_lt.2 hlate)) _

/-- What follows a question depends on its answer. -/
theorem waitUntil_succ (hearly : (j.time start k).nanoseconds < deadline) :
    j.client.waitUntil job goal late deadline (fuel + 1) ⟨j.paused start k, log⟩ =
      match j.answers k with
      | .error e => .error e ⟨j.answered start k, log⟩
      | .ok answer =>
        if goal answer.status then
          Interaction.ofLogged j.outcome ⟨(j.answered start k).keep .result, log⟩
        else
          j.client.waitUntil job goal late deadline fuel
            ⟨j.paused start (k + 1), log ++ [JobClient.pendingEvent job answer.status]⟩ := by
  have hclock : (j.client.clock (j.paused start k)).nanoseconds < deadline := hearly
  rw [JobClient.waitUntil, Interaction.state_bind_apply]
  simp only [if_pos hclock]
  rw [Interaction.bind_apply, status_apply]
  cases j.answers k with
  | error e => rfl
  | ok answer =>
      change (if goal answer.status then j.client.result job else _) ⟨j.answered start k, log⟩ =
        if goal answer.status then _ else _
      split
      next => exact result_apply
      next => rw [Interaction.tell_bind_apply, Interaction.bind_of_ok pause_apply]

/-! ### All questions -/

/-- The answer to question `k` says that the job is still pending, in the sense that matters. -/
def Pending (j : AnsweringJob) (pending : Status → Bool) (k : Nat) : Prop :=
  ∃ answer, j.answers k = .ok answer ∧ pending answer.status = true

/-- **As long as the job is pending and there is time**, one question follows another. -/
theorem waitUntil_add (hgoal : ∀ s, goal s = !pending s)
    (hearly : ∀ i < n, (j.time start i).nanoseconds < deadline)
    (hpending : ∀ i < n, j.Pending pending i) :
    j.client.waitUntil job goal late deadline (fuel + n) ⟨j.paused start 0, log⟩ =
      j.client.waitUntil job goal late deadline fuel
        ⟨j.paused start n, log ++ j.reported job n⟩ := by
  induction n generalizing fuel with
  | zero => rw [reported, List.range_zero, List.filterMap_nil, List.append_nil, Nat.add_zero]
  | succ n ih =>
      obtain ⟨answer, hanswer, hstill⟩ := hpending n (Nat.lt_succ_self n)
      have hgo : ¬ goal answer.status = true := by simp [hgoal, hstill]
      have hsteps := @ih (fuel + 1) (fun i hi => hearly i (Nat.lt_succ_of_lt hi))
        fun i hi => hpending i (Nat.lt_succ_of_lt hi)
      rw [show fuel + (n + 1) = fuel + 1 + n by omega, hsteps,
        waitUntil_succ (hearly n (Nat.lt_succ_self n)), hanswer, reported_succ hanswer,
        ← List.append_assoc]
      exact if_neg hgo

/-- All there is to say about waiting for a job with time for `n` questions. -/
structure WaitsExactly (j : AnsweringJob) (job : Uuid) (pending : Status → Bool)
    (late : ClientError) (start : Duration) (n : Nat) (x : Interaction CallLog RunResult) :
    Prop where
  /-- The first answer that is an error is the last one. -/
  fails : ∀ k < n, (∀ i < k, j.Pending pending i) → ∀ e, j.answers k = .error e →
    x.run ⟨start, []⟩ = (⟨j.reported job k, .error e⟩, j.answered start k)
  /-- After the first answer that the job is not pending its result is asked for, once. -/
  fetches : ∀ k < n, (∀ i < k, j.Pending pending i) → ∀ answer, j.answers k = .ok answer →
    pending answer.status = false →
    x.run ⟨start, []⟩ = (⟨j.reported job k ++ j.outcome.log, j.outcome.result⟩,
      (j.answered start k).keep .result)
  /-- If all answers are that it is pending, the result is not asked for. -/
  expires : (∀ i < n, j.Pending pending i) →
    x.run ⟨start, []⟩ = (⟨j.reported job n, .error late⟩, j.paused start n)

theorem waitFor_apply : j.client.waitFor job goal late timeout ⟨⟨start, []⟩, log⟩ =
    j.client.waitUntil job goal late (start.nanoseconds + timeout.nanoseconds)
      (timeout.nanoseconds + 1) ⟨j.paused start 0, log⟩ := by
  have hfirst : j.paused start 0 = ⟨start, []⟩ := by simp [paused, time, asked]
  rw [hfirst, JobClient.waitFor, Interaction.state_bind_apply]
  rfl

theorem lt_ceilDiv_iff {t p : Nat} (hp : 0 < p) : k < t ⌈/⌉ p ↔ k * p < t := by
  rw [← Nat.not_le, ceilDiv_le_iff_le_mul hp, Nat.not_le, Nat.mul_comm]

section Waiting

variable (hgoal : ∀ s, goal s = !pending s) (hinterval : 0 < j.interval.nanoseconds)
include hgoal hinterval

/-- Waiting gets to question `k` if the job is pending until then, and may go on from there. -/
theorem waitFor_reaches (hk : k ≤ timeout.nanoseconds ⌈/⌉ j.interval.nanoseconds)
    (hpending : ∀ i < k, j.Pending pending i) :
    j.client.waitFor job goal late timeout ⟨⟨start, []⟩, log⟩ =
      j.client.waitUntil job goal late (start.nanoseconds + timeout.nanoseconds)
        (timeout.nanoseconds - k + 1) ⟨j.paused start k, log ++ j.reported job k⟩ := by
  -- every interval takes a nanosecond at least, so the questions are never too many
  have hfew : k ≤ timeout.nanoseconds := by
    refine Nat.le_trans hk ((ceilDiv_le_iff_le_mul hinterval).2 ?_)
    exact Nat.le_mul_of_pos_left _ hinterval
  have hearly : ∀ i < k,
      (j.time start i).nanoseconds < start.nanoseconds + timeout.nanoseconds := fun i hi =>
    Nat.add_lt_add_left ((lt_ceilDiv_iff hinterval).1 (Nat.lt_of_lt_of_le hi hk)) _
  rw [waitFor_apply, show timeout.nanoseconds + 1 = timeout.nanoseconds - k + 1 + k by omega,
    waitUntil_add hgoal hearly hpending]

theorem waitFor_waitsExactly (start : Duration) (job : Uuid) (late : ClientError)
    (timeout : Duration) :
    j.WaitsExactly job pending late start (timeout.nanoseconds ⌈/⌉ j.interval.nanoseconds)
      (j.client.waitFor job goal late timeout) := by
  have hquestion : ∀ k < timeout.nanoseconds ⌈/⌉ j.interval.nanoseconds,
      (j.time start k).nanoseconds < start.nanoseconds + timeout.nanoseconds := fun k hk =>
    Nat.add_lt_add_left ((lt_ceilDiv_iff hinterval).1 hk) _
  refine ⟨fun k hk hpending e he => ?_, fun k hk hpending answer hanswer hdone => ?_,
    fun hpending => ?_⟩
  · refine Interaction.run_of_ofExcept (t := ⟨_, _⟩) ?_
    rw [waitFor_reaches hgoal hinterval (Nat.le_of_lt hk) hpending,
      waitUntil_succ (hquestion k hk), he]
    rfl
  · refine Interaction.run_of_ofLogged (t := ⟨_, _⟩) ?_
    have hgo : goal answer.status = true := by simp [hgoal, hdone]
    rw [waitFor_reaches hgoal hinterval (Nat.le_of_lt hk) hpending,
      waitUntil_succ (hquestion k hk), hanswer]
    exact if_pos hgo
  · refine Interaction.run_of_ofExcept (t := ⟨_, _⟩) ?_
    rw [waitFor_reaches hgoal hinterval (Nat.le_refl _) hpending, waitUntil_of_late]
    · rfl
    · exact Nat.add_le_add_left (Nat.not_lt.1 fun h =>
        Nat.lt_irrefl _ ((lt_ceilDiv_iff hinterval).2 h)) _

end Waiting

/-! ### How many questions -/

/-- The questions end with the first answer that the job is not pending. -/
theorem WaitsExactly.questions_of_stop {x : Interaction CallLog RunResult}
    (h : j.WaitsExactly job pending late start n x) (hk : k < n)
    (hpending : ∀ i < k, j.Pending pending i) (hstop : ¬ j.Pending pending k) :
    (x.run ⟨start, []⟩).2.questions = k + 1 := by
  cases hanswer : j.answers k with
  | error e =>
      rw [h.fails k hk hpending e hanswer]
      exact countP_asked
  | ok answer =>
      have hdone : pending answer.status = false := by
        rw [← Bool.not_eq_true]
        exact fun hstill => hstop ⟨answer, hanswer, hstill⟩
      rw [h.fetches k hk hpending answer hanswer hdone]
      simp [CallLog.questions, CallLog.keep, answered, countP_asked]

theorem WaitsExactly.questions_of_pending {x : Interaction CallLog RunResult}
    (h : j.WaitsExactly job pending late start n x) (hpending : ∀ i < n, j.Pending pending i) :
    (x.run ⟨start, []⟩).2.questions = n := by
  rw [h.expires hpending]
  exact countP_asked

/-- The job is pending for all `n` questions, or there is a first one for which it is not. -/
theorem pending_or_stops (j : AnsweringJob) (pending : Status → Bool) (n : Nat) :
    (∀ i < n, j.Pending pending i) ∨
      ∃ k < n, (∀ i < k, j.Pending pending i) ∧ ¬ j.Pending pending k := by
  induction n with
  | zero => exact Or.inl fun i hi => absurd hi (Nat.not_lt_zero i)
  | succ n ih =>
      rcases ih with hall | ⟨k, hk, hstop⟩
      · by_cases hn : j.Pending pending n
        · refine Or.inl fun i hi => ?_
          rcases Nat.lt_succ_iff_lt_or_eq.1 hi with hi | rfl
          · exact hall i hi
          · exact hn
        · exact Or.inr ⟨n, Nat.lt_succ_self n, hall, hn⟩
      · exact Or.inr ⟨k, Nat.lt_succ_of_lt hk, hstop⟩

/-- Whoever waits for less asks no more questions. -/
theorem WaitsExactly.questions_le {pending' : Status → Bool} {late' : ClientError}
    {x y : Interaction CallLog RunResult} (hx : j.WaitsExactly job pending late start n x)
    (hy : j.WaitsExactly job pending' late' start n y)
    (hless : ∀ s, pending s = true → pending' s = true) :
    (x.run ⟨start, []⟩).2.questions ≤ (y.run ⟨start, []⟩).2.questions := by
  have hlonger : ∀ {k}, j.Pending pending k → j.Pending pending' k := fun ⟨answer, hanswer, hp⟩ =>
    ⟨answer, hanswer, hless _ hp⟩
  rcases j.pending_or_stops pending n with hall | ⟨k, hk, hpending, hstop⟩
  · rw [hx.questions_of_pending hall, hy.questions_of_pending fun i hi => hlonger (hall i hi)]
  · rw [hx.questions_of_stop hk hpending hstop]
    rcases j.pending_or_stops pending' n with hall' | ⟨k', hk', hpending', hstop'⟩
    · rw [hy.questions_of_pending hall']
      exact hk
    · rw [hy.questions_of_stop hk' hpending' hstop']
      -- the one who waits for more cannot stop first
      exact Nat.succ_le_succ (Nat.not_lt.1 fun hlt => hstop' (hlonger (hpending k' hlt)))

theorem ceilDiv_milliseconds {p : Nat} (hp : 0 < p) (t : Nat) :
    (Duration.ofMilliseconds t).nanoseconds ⌈/⌉ (Duration.ofMilliseconds p).nanoseconds =
      t ⌈/⌉ p := by
  refine eq_of_forall_lt_iff fun k => ?_
  have hinterval : 0 < (Duration.ofMilliseconds p).nanoseconds := Nat.mul_pos hp (by decide)
  rw [lt_ceilDiv_iff hinterval, lt_ceilDiv_iff hp, Duration.ofMilliseconds, Duration.ofMilliseconds,
    ← Nat.mul_assoc]
  exact Nat.mul_lt_mul_right (by decide)

/-- A job that is compiled by the third question and ready by the fifth, with a second between
two. -/
def compiledJob : AnsweringJob where
  answers k := .ok (.plain
    (if k < 2 then .pendingCompilation else if k < 4 then .pendingExecution else .ready))
  outcome := pure
    { status := .pendingExecution, metadata := { request := { circuits := [], shots := 1 } } }
  interval := .ofMilliseconds 1000

end AnsweringJob

end StarQpu
