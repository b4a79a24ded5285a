import Mathlib.Data.List.Forall2
import StarQpu.Client.Api
import StarQpu.Proofs.Auth.Lasting
import StarQpu.Proofs.Auth.Token

/-!
# StarQpu.Proofs.Client.Repetition

**Answers 502 do not show.** A request that is answered 502 is sent again as it is, so it takes all
such answers that come next and then one that is different (`persist_of_delivers`). Two servers
whose answers differ only in additional answers 502 (`Padded`) therefore give the same replies to
the same requests, and what is left of their answers differs in the same way. So two runs of a
client, one on each server, agree turn by turn on all that the client learns and remembers
(`turns_padded`).
-/

namespace StarQpu

open Http (Answer Exchange SentRequest exchanges nextReply?)

namespace Http

/-! ### Answers 502 -/

/-- Is the answer 502? -/
def Answer.isRejection : Answer → Bool
  | .reply r => r.status = 502
  | .drop => false

/-- The number of answers 502 before the first other one. -/
def rejections : List Answer → Nat
  | [] => 0
  | answer :: later => if answer.isRejection then rejections later + 1 else 0

/-- Was the answer 502? -/
def Exchange.IsRejected (e : Exchange) : Prop := ∃ reply, e.reply = some reply ∧ reply.status = 502

/-- Is it one request, sent once and again after each answer 502? -/
def Persists (r : SentRequest) (es : List Exchange) : Prop :=
  ∃ rejected last, es = rejected ++ [last] ∧ (∀ e ∈ es, e.request = r) ∧
    (∀ e ∈ rejected, e.IsRejected) ∧ ¬ last.IsRejected

variable {script script' : List Answer}

theorem rejections_le_length (script : List Answer) : rejections script ≤ script.length := by
  induction script with
  | nil => exact Nat.le_refl 0
  | cons answer later ih =>
      rw [rejections]
      split
      · exact Nat.succ_le_succ ih
      · exact Nat.zero_le _

/-- The next answer is 502 exactly if the client gets a reply 502. -/
theorem isRejected_iff (r : SentRequest) :
    Exchange.IsRejected ⟨r, nextReply? script⟩ ↔ 0 < rejections script := by
  unfold Exchange.IsRejected
  cases script with
  | nil => simp [nextReply?, exhausted, rejections]
  | cons answer later =>
      cases answer with
      | drop => simp [nextReply?, Answer.reply?, rejections, Answer.isRejection]
      | reply reply =>
          by_cases hstatus : reply.status = 502
          · simp [nextReply?, Answer.reply?, rejections, Answer.isRejection, hstatus,
              Reply.isFinal, Reply.isInterim]
          · simp only [rejections, Answer.isRejection, hstatus, decide_false]
            simp only [nextReply?, Answer.reply?]
            split
            · simp [hstatus]
            · simp

theorem rejections_tail (h : 0 < rejections script) :
    rejections script = rejections script.tail + 1 := by
  cases script with
  | nil => simp [rejections] at h
  | cons answer later =>
      by_cases hanswer : answer.isRejection
      · rw [rejections, if_pos hanswer]
        rfl
      · simp [rejections, hanswer] at h

theorem rejections_drop (script : List Answer) :
    rejections (script.drop (rejections script)) = 0 := by
  induction script with
  | nil => rfl
  | cons answer later ih =>
      rw [rejections]
      split
      · exact ih
      · next hanswer => simp [rejections, hanswer]

/-- A request that is sent once more than there are answers 502 takes all of them and the next
one. -/
theorem exchanges_replicate (script : List Answer) (r : SentRequest) : ∃ rejected,
    exchanges script (List.replicate (rejections script + 1) r) =
      rejected ++ [⟨r, nextReply? (script.drop (rejections script))⟩] ∧
    ∀ e ∈ rejected, e.request = r ∧ e.IsRejected := by
  induction script with
  | nil => exact ⟨[], rfl, by simp⟩
  | cons answer later ih =>
      by_cases hanswer : answer.isRejection
      · obtain ⟨rejected, hes, hrejected⟩ := ih
        have hfirst : Exchange.IsRejected ⟨r, nextReply? (answer :: later)⟩ := by
          simp [isRejected_iff, rejections, hanswer]
        refine ⟨⟨r, nextReply? (answer :: later)⟩ :: rejected, ?_, ?_⟩
        · rw [rejections, if_pos hanswer, List.replicate_succ, exchanges_cons, List.tail_cons, hes]
          rfl
        · exact List.forall_mem_cons.2 ⟨⟨rfl, hfirst⟩, hrejected⟩
      · rw [rejections, if_neg hanswer]
        exact ⟨[], rfl, by simp⟩

theorem persists_exchanges (script : List Answer) (r : SentRequest) :
    Persists r (exchanges script (List.replicate (rejections script + 1) r)) := by
  obtain ⟨rejected, hes, hrejected⟩ := exchanges_replicate script r
  rw [hes]
  refine ⟨rejected, _, rfl, ?_, fun e he => (hrejected e he).2, ?_⟩
  · intro e he
    rcases List.mem_append.1 he with he | he
    · exact (hrejected e he).1
    · rw [List.mem_singleton.1 he]
  · rw [isRejected_iff, rejections_drop]
    exact Nat.lt_irrefl 0

/-- Is the second list of answers the first one with answers 502 put in, anywhere? -/
inductive Padded : List Answer → List Answer → Prop where
  | nil : Padded [] []
  | keep {script script' : List Answer} (answer : Answer) (h : Padded script script') :
      Padded (answer :: script) (answer :: script')
  | reject {script script' : List Answer} (body : String) (h : Padded script script') :
      Padded script (.reply ⟨502, body⟩ :: script')

/-- Behind the answers 502 at the front, additional answers 502 stand behind the next answer. -/
theorem Padded.drop_rejections (h : Padded script script') :
    nextReply? (script.drop (rejections script)) = nextReply? (script'.drop (rejections script')) ∧
      Padded (script.drop (rejections script + 1)) (script'.drop (rejections script' + 1)) := by
  induction h with
  | nil => exact ⟨rfl, .nil⟩
  | @keep script script' answer h ih =>
      by_cases hanswer : answer.isRejection
      · rw [rejections, rejections, if_pos hanswer, if_pos hanswer]
        exact ih
      · rw [rejections, rejections, if_neg hanswer, if_neg hanswer]
        exact ⟨rfl, h⟩
  | @reject script script' body h ih =>
      rw [rejections.eq_def (.reply ⟨502, body⟩ :: script')]
      exact ih

end Http

/-! ### Requests that are repeated -/

namespace ApiClient

variable {c : ApiClient} {s : Session} {r : Http.Request} {path : String}

/-- The session after a request was sent and sent again so many times. -/
def persisted (c : ApiClient) (s : Session) (r : SentRequest) (repetitions : Nat) : Session :=
  { s.sending (List.replicate (repetitions + 1) r) with
    clock := ⟨s.clock.nanoseconds + repetitions * c.config.pollInterval.nanoseconds⟩ }

theorem persisted_zero (c : ApiClient) (s : Session) (r : SentRequest) :
    c.persisted s r 0 = s.sending [r] := by
  simp [persisted, Session.sending]

theorem persisted_succ (c : ApiClient) (s : Session) (r : SentRequest) (repetitions : Nat) :
    c.persisted s r (repetitions + 1) =
      c.persisted ((s.sending [r]).later c.config.pollInterval) r repetitions := by
  unfold persisted
  rw [List.replicate_succ, ← List.singleton_append, Session.sending_append]
  simp [Session.later, Session.sending, Nat.add_mul, Nat.add_assoc, Nat.add_comm]

theorem attempt_apply (r : Http.Request) (s : Session) (log : List Event) :
    attempt r ⟨s, log⟩ = exchange r ⟨s, log ++ [sendingEvent r]⟩ := rfl

theorem attempt_of_delivers (h : s.network.Delivers r path) (log : List Event) :
    attempt r ⟨s, log⟩ = Interaction.ofExcept (received (nextReply? s.network.script))
      ⟨s.sending [r.sentTo path], log ++ [sendingEvent r]⟩ := by
  rw [attempt_apply, exchange_of_delivers h]

theorem attempt_of_reply {reply : Http.Reply} (h : s.network.Delivers r path)
    (hreply : nextReply? s.network.script = some reply) (log : List Event) :
    attempt r ⟨s, log⟩ = .ok reply ⟨s.sending [r.sentTo path], log ++ [sendingEvent r]⟩ := by
  rw [attempt_apply, exchange_of_reply h hreply]

theorem attempt_of_not_delivers (h : ∀ path, ¬ s.network.Delivers r path) (log : List Event) :
    attempt r ⟨s, log⟩ = Interaction.ofExcept (.error .network) ⟨s, log ++ [sendingEvent r]⟩ :=
  exchange_of_not_delivers h _

theorem persist_of_rejected {reply : Http.Reply} {u : Traced Session} {t : Traced Session}
    (hattempt : attempt r t = .ok reply u) (hstatus : reply.status = 502) (retries : Nat) :
    ∃ log, c.persist r (retries + 1) t =
      c.persist r retries ⟨u.state.later c.config.pollInterval, log⟩ := by
  rw [persist, Interaction.bind_of_ok hattempt, if_pos hstatus]
  exact ⟨_, rfl⟩

/-- Without an answer 502 a request is sent once. -/
theorem persist_of_not_rejected {result : Except ClientError Http.Reply} {t u : Traced Session}
    (hattempt : attempt r t = Interaction.ofExcept result u)
    (hresult : ∀ reply, result = .ok reply → reply.status ≠ 502) (retries : Nat) :
    c.persist r retries t = Interaction.ofExcept result u := by
  cases retries with
  | zero => exact hattempt
  | succ retries =>
      cases result with
      | error e => exact Interaction.bind_of_error hattempt
      | ok reply =>
          rw [persist, Interaction.bind_of_ok hattempt, if_neg (hresult reply rfl)]
          rfl

/-- A request takes all answers 502 that come next, and then one more. -/
theorem persist_of_delivers (h : s.network.Delivers r path) {retries : Nat}
    (hretries : Http.rejections s.network.script ≤ retries) (log : List Event) : ∃ log',
      c.persist r retries ⟨s, log⟩ =
        Interaction.ofExcept
          (received (nextReply? (s.network.script.drop (Http.rejections s.network.script))))
          ⟨c.persisted s (r.sentTo path) (Http.rejections s.network.script), log'⟩ := by
  generalize hcount : Http.rejections s.network.script = count at *
  induction count generalizing s retries log with
  | zero =>
      have hresult (reply : Http.Reply)
          (hreply : received (nextReply? s.network.script) = .ok reply) : reply.status ≠ 502 := by
        intro hstatus
        have hpos : 0 < Http.rejections s.network.script := by
          refine (Http.isRejected_iff (r.sentTo path)).1 ⟨reply, ?_, hstatus⟩
          exact received_eq_ok_iff.1 hreply
        omega
      refine ⟨log ++ [sendingEvent r], ?_⟩
      rw [persist_of_not_rejected (attempt_of_delivers h log) hresult, persisted_zero,
        List.drop_zero]
  | succ count ih =>
      have hpos : 0 < Http.rejections s.network.script := by omega
      obtain ⟨reply, hreply, hstatus⟩ := (Http.isRejected_iff (r.sentTo path)).2 hpos
      obtain ⟨retries, rfl⟩ : ∃ n, retries = n + 1 := ⟨retries - 1, by omega⟩
      obtain ⟨log', hpersist⟩ :=
        persist_of_rejected (c := c) (attempt_of_reply h hreply log) hstatus retries
      let next := (s.sending [r.sentTo path]).later c.config.pollInterval
      have hscript : next.network.script = s.network.script.tail := List.drop_one
      have hcount' : Http.rejections next.network.script = count := by
        rw [hscript]
        have := Http.rejections_tail hpos
        omega
      obtain ⟨log'', hnext⟩ :=
        ih (s := next) (h.sending _) log' hcount' (Nat.le_of_succ_le_succ hretries)
      refine ⟨log'', ?_⟩
      rw [hpersist, hnext, hscript, List.drop_tail, persisted_succ]

theorem persist_of_not_delivers (h : ∀ path, ¬ s.network.Delivers r path) (retries : Nat)
    (log : List Event) : c.persist r retries ⟨s, log⟩ =
      .error .network ⟨s, log ++ [sendingEvent r]⟩ :=
  persist_of_not_rejected (attempt_of_not_delivers h log) nofun retries

/-! ### One operation on two servers -/

variable {usable : String → Prop} {s' t t' : Session}

/-- Do two sessions remember the same, after the same request from these two, which was sent until
the answer was not 502? -/
structure Requested (usable : String → Prop) (s s' t t' : Session) : Prop where
  alike : Session.Alike usable s.network.origin t t'
  sent : ∃ r,
    t.network = s.network.sending (List.replicate (Http.rejections s.network.script + 1) r) ∧
    t'.network = s'.network.sending (List.replicate (Http.rejections s'.network.script + 1) r)

/-- Was there such a request, or a failure before any? -/
def Attempted {α : Type} (usable : String → Prop) (s s' : Session) (result : Except ClientError α)
    (t t' : Session) : Prop :=
  Requested usable s s' t t' ∨ Session.Beside usable s s' t t' ∧ ∃ e, result = .error e

open Interaction

/-- What follows a request works on its reply. -/
theorem agrees_then {α β : Type} {x y : Interaction Session α} {f g : α → Interaction Session β}
    (h : Agrees (Attempted usable s s') x y s s')
    (hnext : ∀ a t t', Requested usable s s' t t' →
      Agrees (fun _ => Requested usable s s') (f a) (g a) t t') :
    Agrees (Attempted usable s s') (x >>= f) (y >>= g) s s' := by
  refine h.bind ?_ ?_
  · rintro e t t' (hend | ⟨hend, -⟩)
    · exact .inl hend
    · exact .inr ⟨hend, e, rfl⟩
  · rintro a t t' (hend | ⟨-, e, hresult⟩)
    · exact (hnext a t t' hend).mono fun _ _ _ => .inl
    · cases hresult

theorem agrees_persist (h : Session.Beside usable s s' t t')
    (hpadded : Http.Padded s.network.script s'.network.script) (r : Http.Request) :
    Agrees (Attempted usable s s') (c.persist r t.network.script.length)
      (c.persist r t'.network.script.length) t t' := by
  have horigin : t'.network.origin = t.network.origin :=
    h.alike.origin_eq.2.trans h.alike.origin_eq.1.symm
  intro log log'
  by_cases hdelivers : ∃ path, t.network.Delivers r path
  · obtain ⟨path, hpath⟩ := hdelivers
    have hpath' : t'.network.Delivers r path := hpath.of_origin_eq horigin
    obtain ⟨_, hx⟩ :=
      persist_of_delivers (c := c) hpath (Http.rejections_le_length t.network.script) log
    obtain ⟨_, hy⟩ :=
      persist_of_delivers (c := c) hpath' (Http.rejections_le_length t'.network.script) log'
    have hsame : nextReply? (t.network.script.drop (Http.rejections t.network.script)) =
        nextReply? (t'.network.script.drop (Http.rejections t'.network.script)) := by
      rw [h.network.1, h.network.2]
      exact hpadded.drop_rejections.1
    rw [← hsame] at hy
    refine ⟨_, _, _, .inl ⟨{ h.alike with }, r.sentTo path, ?_⟩, hx, hy⟩
    rw [← h.network.1, ← h.network.2]
    exact ⟨rfl, rfl⟩
  · rw [not_exists] at hdelivers
    have hdelivers' (path : String) : ¬ t'.network.Delivers r path := fun hpath' =>
      hdelivers path (hpath'.of_origin_eq horigin.symm)
    exact ⟨.error .network, _, _, .inr ⟨h, _, rfl⟩,
      persist_of_not_delivers hdelivers _ log, persist_of_not_delivers hdelivers' _ log'⟩

/-- Do two sessions remember the same, at times that are the same for their tokens, and do their
servers differ only in additional answers 502? -/
structure Twins (usable : String → Prop) (s s' : Session) : Prop where
  beside : Session.Beside usable s s' s s'
  time : Session.SameTime usable s.now s'.now
  padded : Http.Padded s.network.script s'.network.script

theorem agrees_send (h : Twins usable s s') (method : Http.Method) (path : String)
    (body : Option Json) :
    Agrees (Attempted usable s s') (c.send method path body) (c.send method path body) s s' := by
  refine (agrees_bearer h.beside h.time 1).bind (fun e _ _ hend => .inr ⟨hend, e, rfl⟩) ?_
  intro bearer t t' hend
  exact agrees_of_state (agrees_persist hend h.padded (c.request method path body bearer))

theorem agrees_get {α : Type} (h : Twins usable s s') (path : String) (d : Decoder α) :
    Agrees (Attempted usable s s') (c.fetch path d) (c.fetch path d) s s' :=
  agrees_then (agrees_send h .get path none) fun _ _ _ hend => agrees_ofExcept hend

/-- What can be asked of a client. -/
inductive Operation where
  | submit (r : RunRequest)
  | status (job : Uuid)
  | result (job : Uuid)
  | abort (job : Uuid)
  | staticArchitecture
  | architecture (id : Option Uuid)

/-- What a client replies. -/
inductive Outcome where
  | job (id : Uuid)
  | status (s : RunStatus)
  | result (r : RunResult)
  | aborted
  | staticArchitecture (a : StaticArchitecture)
  | architecture (a : DynamicArchitecture)

/-- Does what is asked. -/
def perform (c : ApiClient) : Operation → Interaction Session Outcome
  | .submit r => return .job (← c.submit r)
  | .status job => return .status (← c.status job)
  | .result job => return .result (← c.result job)
  | .abort job => do
    c.abort job
    return .aborted
  | .staticArchitecture => return .staticArchitecture (← c.staticArchitecture)
  | .architecture id => return .architecture (← c.architecture id)

theorem agrees_submit (h : Twins usable s s') (r : RunRequest) :
    Agrees (Attempted usable s s') (c.submit r) (c.submit r) s s' := by
  refine agrees_then (agrees_send h .post "jobs" _) ?_
  intro reply t t' hend
  refine (agrees_ofExcept (R := fun _ => Requested usable s s') hend).andThen ?_
  intro id t t' hend
  cases Uuid.ofText? id with
  | none => exact agrees_throw hend
  | some job => exact agrees_pure hend

theorem agrees_status (h : Twins usable s s') (job : Uuid) :
    Agrees (Attempted usable s s') (c.status job) (c.status job) s s' :=
  agrees_then (agrees_get h _ _) fun _ _ _ hend => agrees_of_tellAll (agrees_pure hend)

theorem agrees_result (h : Twins usable s s') (job : Uuid) :
    Agrees (Attempted usable s s') (c.result job) (c.result job) s s' :=
  agrees_then (agrees_get h _ _) fun _ _ _ hend => agrees_ofLogged hend

theorem agrees_abort (h : Twins usable s s') (job : Uuid) :
    Agrees (Attempted usable s s') (c.abort job) (c.abort job) s s' := by
  refine agrees_then (agrees_send h .post _ none) ?_
  intro reply t t' hend
  split
  · exact agrees_pure hend
  · exact agrees_throw hend

theorem agrees_fetchArchitecture (h : Twins usable s s') (id : Option Uuid) :
    Agrees (Attempted usable s s') (c.fetchArchitecture id) (c.fetchArchitecture id) s s' := by
  refine agrees_then (agrees_get h _ _) ?_
  intro a t t' hend
  refine agrees_of_update (agrees_pure ?_)
  exact
    { hend with
      alike :=
        { hend.alike with
          architectures := congrArg ((a.calibrationSetId, a) :: ·) hend.alike.architectures } }

theorem architecture_of_remembered {id : Option Uuid} {a : DynamicArchitecture}
    (h : remembered? s id = some a) (log : List Event) :
    c.architecture id ⟨s, log⟩ = .ok a ⟨s, log⟩ := by
  rw [architecture, Interaction.state_bind_apply, h]
  rfl

theorem architecture_of_not_remembered {id : Option Uuid} (h : remembered? s id = none)
    (log : List Event) : c.architecture id ⟨s, log⟩ = c.fetchArchitecture id ⟨s, log⟩ := by
  rw [architecture, Interaction.state_bind_apply, h]

/-- Is the operation a request for an architecture that is remembered? -/
def IsRemembered (s : Session) (o : Operation) : Prop :=
  ∃ id a, o = .architecture id ∧ remembered? s id = some a

theorem remembered?_eq_of_alike {origin : String} (h : Session.Alike usable origin s s')
    (id : Option Uuid) : remembered? s' id = remembered? s id := by
  unfold remembered?
  rw [h.architectures]

/-- What is remembered is neither fetched nor changed. -/
theorem agrees_perform_of_remembered {o : Operation} (h : Twins usable s s')
    (ho : IsRemembered s o) :
    Agrees (fun _ => Session.Beside usable s s') (c.perform o) (c.perform o) s s' := by
  obtain ⟨id, a, rfl, ha⟩ := ho
  have ha' : remembered? s' id = some a := (remembered?_eq_of_alike h.beside.alike id).trans ha
  exact fun log log' => ⟨.ok (.architecture a), ⟨s, log⟩, ⟨s', log'⟩, h.beside,
    bind_of_ok (architecture_of_remembered ha log),
    bind_of_ok (architecture_of_remembered ha' log')⟩

theorem agrees_perform {o : Operation} (h : Twins usable s s') (ho : ¬ IsRemembered s o) :
    Agrees (Attempted usable s s') (c.perform o) (c.perform o) s s' := by
  have hreturn {α : Type} {x : Interaction Session α} (f : α → Outcome)
      (hx : Agrees (Attempted usable s s') x x s s') :
      Agrees (Attempted usable s s') (do return f (← x)) (do return f (← x)) s s' :=
    agrees_then hx fun _ _ _ hend => agrees_pure hend
  cases o with
  | submit r => exact hreturn .job (agrees_submit h r)
  | status job => exact hreturn .status (agrees_status h job)
  | result job => exact hreturn .result (agrees_result h job)
  | abort job => exact hreturn (fun _ => .aborted) (agrees_abort h job)
  | staticArchitecture => exact hreturn .staticArchitecture (agrees_get h _ _)
  | architecture id =>
      have hnew : remembered? s id = none := by
        rw [Option.eq_none_iff_forall_ne_some]
        exact fun a ha => ho ⟨id, a, rfl, ha⟩
      have hnew' : remembered? s' id = none :=
        (remembered?_eq_of_alike h.beside.alike id).trans hnew
      have hfetch :
          Agrees (Attempted usable s s') (c.architecture id) (c.architecture id) s s' := by
        intro log log'
        rw [architecture_of_not_remembered hnew, architecture_of_not_remembered hnew']
        exact agrees_fetchArchitecture h id log log'
      exact hreturn .architecture hfetch

/-! ### Whole runs on two servers -/

/-- An operation of a client with what came of it. -/
abbrev Turn := Session.Turn Operation Outcome

/-- Do two turns on two servers teach the client the same, and was a request of theirs the same and
sent until the answer was not 502? Nothing is sent only for what is remembered and for what fails
before. -/
structure SameTurn (t t' : Turn) : Prop where
  reply : t.reply = t'.reply
  architectures : t.after.architectures = t'.after.architectures
  requests : (∃ r, Http.Persists r t.exchanges ∧ Http.Persists r t'.exchanges) ∨
    t.exchanges = [] ∧ t'.exchanges = [] ∧
      (IsRemembered t.before t.request ∨ ∃ e, t.reply = .error e)

theorem Requested.padded (h : Requested usable s s' t t')
    (hpadded : Http.Padded s.network.script s'.network.script) :
    Http.Padded t.network.script t'.network.script := by
  obtain ⟨r, hsent, hsent'⟩ := h.sent
  rw [hsent, hsent']
  simp only [Http.Network.sending, List.length_replicate]
  exact hpadded.drop_rejections.2

theorem Requested.persists {u u' : Turn}
    (h : Requested usable u.before u'.before u.after u'.after) :
    ∃ r, Http.Persists r u.exchanges ∧ Http.Persists r u'.exchanges := by
  obtain ⟨r, hsent, hsent'⟩ := h.sent
  refine ⟨r, ?_, ?_⟩
  · rw [Session.Turn.exchanges_of_sending hsent]
    exact Http.persists_exchanges _ r
  · rw [Session.Turn.exchanges_of_sending hsent']
    exact Http.persists_exchanges _ r

/-- Two turns that sent nothing. -/
theorem SameTurn.of_beside {u u' : Turn} (hreply : u.reply = u'.reply)
    (h : Session.Beside usable u.before u'.before u.after u'.after)
    (hidle : IsRemembered u.before u.request ∨ ∃ e, u.reply = .error e) : SameTurn u u' where
  reply := hreply
  architectures := h.alike.architectures
  requests := by
    exact .inr ⟨Session.Turn.exchanges_of_same h.network.1,
      Session.Turn.exchanges_of_same h.network.2, hidle⟩

/-- One step of two runs. -/
theorem Twins.turn {v v' : Session.Visit Operation} (hrequest : v.request = v'.request)
    (h : Twins usable (s.atTime v.time) (s'.atTime v'.time)) :
    SameTurn (Session.turn c.perform s v) (Session.turn c.perform s' v') ∧
      Session.Alike usable s.network.origin (Session.turn c.perform s v).after
        (Session.turn c.perform s' v').after ∧
      Http.Padded (Session.turn c.perform s v).after.network.script
        (Session.turn c.perform s' v').after.network.script := by
  have hbeside {t t' : Session}
      (hend : Session.Beside usable (s.atTime v.time) (s'.atTime v'.time) t t') :
      Http.Padded t.network.script t'.network.script := by
    rw [hend.network.1, hend.network.2]
    exact h.padded
  by_cases ho : IsRemembered (s.atTime v.time) v.request
  · obtain ⟨result, t, t', hend, hx, hy⟩ := agrees_perform_of_remembered (c := c) h ho [] []
    rw [hrequest] at hy
    rw [Session.turn_of_ofExcept hx, Session.turn_of_ofExcept hy]
    exact ⟨.of_beside rfl hend (.inl ho), hend.alike, hbeside hend⟩
  · obtain ⟨result, t, t', hend, hx, hy⟩ := agrees_perform (c := c) h ho [] []
    rw [hrequest] at hy
    rw [Session.turn_of_ofExcept hx, Session.turn_of_ofExcept hy]
    rcases hend with hend | ⟨hend, hfail⟩
    · exact ⟨⟨rfl, hend.alike.architectures, .inl hend.persists⟩, hend.alike, hend.padded h.padded⟩
    · exact ⟨.of_beside rfl hend (.inr hfail), hend.alike, hbeside hend⟩

end ApiClient

/-- The session with a server that has other answers. -/
def Session.answeredBy (s : Session) (script : List Answer) : Session :=
  { s with network := { s.network with script } }

namespace ApiClient

variable {c : ApiClient} {usable : String → Prop} {start stop : Int}

theorem sameTurn_turns {origin : String} {s s' : Session}
    {visits visits' : List (Session.Visit Operation)}
    (htime : ∀ now now', start ≤ now ∧ now ≤ stop → start ≤ now' ∧ now' ≤ stop →
      Session.SameTime usable now now')
    (halike : Session.Alike usable origin s s')
    (hpadded : Http.Padded s.network.script s'.network.script)
    (hrequests : visits.map (·.request) = visits'.map (·.request))
    (hvisits : ∀ v ∈ visits ++ visits', start ≤ v.time.seconds ∧ v.time.seconds ≤ stop) :
    List.Forall₂ SameTurn (Session.turns c.perform s visits)
      (Session.turns c.perform s' visits') := by
  induction visits generalizing s s' visits' with
  | nil =>
      rw [List.map_nil, eq_comm, List.map_eq_nil_iff] at hrequests
      subst hrequests
      exact .nil
  | cons v later ih =>
      cases visits' with
      | nil => cases hrequests
      | cons v' later' =>
          obtain ⟨hrequest, hlater⟩ := List.cons.inj hrequests
          have horigin : s.network.origin = origin := halike.origin_eq.1
          subst horigin
          have hbeside : Session.Beside usable (s.atTime v.time) (s'.atTime v'.time)
              (s.atTime v.time) (s'.atTime v'.time) :=
            ⟨{ halike with }, ⟨rfl, rfl⟩, ⟨rfl, rfl⟩⟩
          have hnow := htime v.time.seconds v'.time.seconds (hvisits v (by simp))
            (hvisits v' (by simp))
          obtain ⟨hsame, halike', hpadded'⟩ :=
            Twins.turn (c := c) hrequest ⟨hbeside, hnow, hpadded⟩
          refine .cons hsame (ih halike' hpadded' hlater ?_)
          intro w hw
          refine hvisits w ?_
          rcases List.mem_append.1 hw with hw | hw <;> simp [hw]

/-- Answers 502 that are put in anywhere among the answers of the server change neither what the
client replies nor the architectures it remembers, and the same requests are sent, each repeated as
it is after an answer 502 and only then. The two runs may take place at different times, as long as
time changes nothing about the tokens in between. -/
theorem turns_padded (c : ApiClient) (s : Session) {script' : List Answer}
    {visits visits' : List (Session.Visit Operation)} (haloof : s.Aloof)
    (hpadded : Http.Padded s.network.script script') (hlasting : s.Lasting start stop)
    (hrequests : visits.map (·.request) = visits'.map (·.request))
    (hvisits : ∀ v ∈ visits ++ visits', start ≤ v.time.seconds ∧ v.time.seconds ≤ stop) :
    List.Forall₂ SameTurn (Session.turns c.perform s visits)
      (Session.turns c.perform (s.answeredBy script') visits') := by
  have halike : Session.Alike s.MayUse s.network.origin s (s.answeredBy script') :=
    { provider := rfl
      files := rfl
      accessToken := rfl
      architectures := rfl
      origin_eq := ⟨rfl, rfl⟩
      mayUse := fun _ huse => huse
      aloof := haloof }
  exact sameTurn_turns (fun _ _ hnow hnow' => hlasting.sameTime hnow hnow') halike hpadded hrequests
    hvisits

/-- A client of a server. -/
def sample : ApiClient := ⟨"http://qpu.test", "any-platform, iqm-client 0.4.0", {}⟩

/-- A fixed token that is good for an hour, and a server that aborts a job. -/
def sampleSession : Session where
  clock := .zero
  network := ⟨"http://qpu.test", [.reply ⟨200, ""⟩], []⟩
  provider := some (.external (some "e30.eyJleHAiOjM2MDB9.s"))

/-- A job is aborted just so when the server first answers 502 twice and time passes in between. -/
theorem turns_padded_sample :
    let script' := [.reply ⟨502, "bad"⟩, .reply ⟨502, "gateway"⟩, .reply ⟨200, ""⟩]
    let visits : List (Session.Visit Operation) := [⟨.zero, .abort .nil⟩]
    let visits' : List (Session.Visit Operation) := [⟨.ofParts 10 0, .abort .nil⟩]
    List.Forall₂ SameTurn (Session.turns sample.perform sampleSession visits)
        (Session.turns sample.perform (sampleSession.answeredBy script') visits') ∧
      (Session.turns sample.perform sampleSession visits).map (·.requests.length) = [1] ∧
      (Session.turns sample.perform (sampleSession.answeredBy script') visits').map
        (·.requests.length) = [3] := by
  have huse (token : String) (h : sampleSession.MayUse token) :
      token = "e30.eyJleHAiOjM2MDB9.s" := by
    rcases h with h | ⟨p, hp, h⟩
    · cases h
    · cases hp
      exact (Option.some.inj h).symm
  have hexpiry : Token.expiry? "e30.eyJleHAiOjM2MDB9.s" = some 3600 := by decide +kernel
  have hleft {margin : Int} (hmargin : 0 ≤ margin) (now : Int) (hstart : 0 ≤ now)
      (hstop : now ≤ 10) :
      margin < Token.secondsLeft now "e30.eyJleHAiOjM2MDB9.s" ↔ now + margin < 3600 := by
    have hwide : (3600 : Int) < twoTo 63 := by decide
    exact Token.lt_secondsLeft_iff hmargin hexpiry ⟨by omega, by omega⟩
  have hlasting : sampleSession.Lasting 0 10 := by
    constructor <;> intro token htoken now hstart hstop <;> rw [huse token htoken]
    · rw [Token.isLive, Token.isLive, decide_eq_decide, hleft (by decide) now hstart hstop,
        hleft (by decide) 0 (by decide) (by decide)]
      omega
    · rw [refreshMargin, hleft (by decide) now hstart hstop,
        hleft (by decide) 0 (by decide) (by decide)]
      omega
  refine ⟨turns_padded sample sampleSession ?_ ?_ hlasting rfl ?_, by decide +kernel,
    by decide +kernel⟩
  · rintro l ⟨⟩
  · exact .reject _ (.reject _ (.keep _ .nil))
  · decide

end ApiClient

end StarQpu
