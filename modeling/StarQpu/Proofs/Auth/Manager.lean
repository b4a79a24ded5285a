import Mathlib.Data.List.Count
import StarQpu.Auth.Manager
import StarQpu.Proofs.Client.Runs

/-!
# StarQpu.Proofs.Auth.Manager

**What a token manager does over a whole run.** The source of tokens is any sequence of answers, and
it is asked at any times. At each point of a run the manager is described by the calls that the
source has answered so far (`Session.after`): they tell how much of the sequence is left and which
token came last. One request has one of four outcomes from there (`OpenTurn`), and each of them ends
in such a session again or closes the source for good. So every turn of a run does what its history
says (`turns_conform`). How long a token is still good for is what `Token.secondsLeft` counts.
-/

namespace StarQpu

/-! ### Answers laid down in advance -/

namespace ProviderScript

variable (p : ProviderScript)

/-- The answer to a request for a token, when so many were made before. -/
def answer (asked : Nat) : Except ClientError String :=
  p.tokens[asked]?.getD (.error (.configuration "script exhausted"))

/-- The answer to an attempt to close the source, when so many were made before. -/
def closing (tried : Nat) : Except ClientError Unit := p.closings[tried]?.getD (.ok ())

/-- Is the answer a failure to authenticate? -/
def Refuses (asked : Nat) : Prop := ∃ e, p.answer asked = .error e ∧ e.isAuthentication = true

/-- The token of the latest successful one among the first answers. -/
def lastToken? : Nat → Option String
  | 0 => none
  | asked + 1 =>
    match p.answer asked with
    | .ok token => some token
    | .error _ => lastToken? asked

/-- What is left of the answers after these calls. -/
def rest (calls : List ProviderCall) : ProviderScript :=
  ⟨p.tokens.drop (calls.count .token), p.closings.drop (calls.count .close)⟩

theorem answer_eq (asked : Nat) : p.answer asked =
    match p.tokens.drop asked with
    | [] => .error (.configuration "script exhausted")
    | answer :: _ => answer := by
  rw [answer, ← List.head?_drop]
  cases p.tokens.drop asked <;> rfl

theorem closing_eq (tried : Nat) : p.closing tried =
    match p.closings.drop tried with
    | [] => .ok ()
    | answer :: _ => answer := by
  rw [closing, ← List.head?_drop]
  cases p.closings.drop tried <;> rfl

theorem rest_token (calls : List ProviderCall) : p.rest (calls ++ [.token]) =
    { p.rest calls with tokens := (p.rest calls).tokens.tail } := by
  simp [rest]

theorem rest_close (calls : List ProviderCall) : p.rest (calls ++ [.close]) =
    { p.rest calls with closings := (p.rest calls).closings.tail } := by
  simp [rest]

end ProviderScript

theorem count_token (calls : List ProviderCall) :
    (calls ++ [ProviderCall.token]).count .token = calls.count .token + 1 := by
  simp

theorem count_close (calls : List ProviderCall) :
    (calls ++ [ProviderCall.close]).count .token = calls.count .token := by
  simp

/-- The session when the source has answered these calls: what is left of it, and the last token. -/
def Session.after (s : Session) (p : ProviderScript) (calls : List ProviderCall) : Session :=
  { s with
    provider := some (.scripted (p.rest calls))
    providerCalls := calls
    accessToken := p.lastToken? (calls.count .token) }

namespace TokenManager

variable {p : ProviderScript} {s : Session} {calls : List ProviderCall} {log : List Event}

/-! ### One call of the source -/

theorem ask_after (p : ProviderScript) (s : Session) (calls : List ProviderCall)
    (log : List Event) : ask ⟨s.after p calls, log⟩ =
      Interaction.ofExcept (p.answer (calls.count .token))
        ⟨s.after p (calls ++ [.token]), log⟩ := by
  rw [Session.after, Session.after, p.rest_token, count_token, ProviderScript.lastToken?,
    p.answer_eq]
  unfold ProviderScript.rest
  cases p.tokens.drop (calls.count .token) with
  | nil => rfl
  | cons answer later => cases answer <;> rfl

theorem close_after (p : ProviderScript) (s : Session) (calls : List ProviderCall)
    (log : List Event) : close ⟨s.after p calls, log⟩ =
      match p.closing (calls.count .close) with
      | .ok () => Interaction.ofExcept (.ok true)
          ⟨{ s.after p (calls ++ [.close]) with provider := none, accessToken := none }, log⟩
      | .error e => Interaction.ofExcept (.error e) ⟨s.after p (calls ++ [.close]), log⟩ := by
  rw [Session.after, Session.after, p.rest_close, count_close, p.closing_eq]
  unfold ProviderScript.rest
  cases p.closings.drop (calls.count .close) with
  | nil => rfl
  | cons answer later => cases answer <;> rfl

/-- Asking again is asking once, and then again unless the answer is anything else than a failure to
authenticate. -/
theorem fetch_succ (retries : Nat) (t : Traced Session) : fetch (retries + 1) t =
    match ask t with
    | .ok token t => .ok token t
    | .error e t =>
      if e.isAuthentication then fetch retries ⟨t.state, t.log ++ [retryEvent e]⟩
      else .error e t := by
  rw [fetch, Interaction.tryCatch_apply]
  cases ask t with
  | ok token t => rfl
  | error e t =>
      dsimp only
      split <;> rfl

/-- The source is asked until it no longer fails to authenticate, at most once more than the number
of retries. -/
theorem exists_fetch_after (p : ProviderScript) (s : Session) (calls : List ProviderCall)
    (log : List Event) (retries : Nat) : ∃ k ≤ retries,
      (∀ i < k, p.Refuses (calls.count .token + i)) ∧
      (k = retries ∨ ¬ p.Refuses (calls.count .token + k)) ∧
      ∃ log', fetch retries ⟨s.after p calls, log⟩ =
        Interaction.ofExcept (p.answer (calls.count .token + k))
          ⟨s.after p (calls ++ List.replicate (k + 1) .token), log'⟩ := by
  induction retries generalizing calls log with
  | zero => exact ⟨0, Nat.le_refl 0, nofun, .inl rfl, log, ask_after p s calls log⟩
  | succ retries ih =>
      rw [fetch_succ, ask_after]
      by_cases hrefuses : p.Refuses (calls.count .token)
      · obtain ⟨e, he, hauth⟩ := id hrefuses
        obtain ⟨k, hk, hbefore, hstop, log', hfetch⟩ :=
          ih (calls ++ [.token]) (log ++ [retryEvent e])
        have hindex (i : Nat) :
            (calls ++ [ProviderCall.token]).count .token + i = calls.count .token + (i + 1) := by
          rw [count_token, Nat.add_right_comm, Nat.add_assoc]
        simp only [hindex] at hbefore hstop hfetch
        rw [List.append_assoc, List.singleton_append, ← List.replicate_succ] at hfetch
        refine ⟨k + 1, Nat.succ_le_succ hk, ?_, hstop.imp_left (congrArg (· + 1)), log', ?_⟩
        · intro i hi
          cases i with
          | zero => exact hrefuses
          | succ i => exact hbefore i (Nat.lt_of_succ_lt_succ hi)
        · rw [he, ← hfetch]
          exact if_pos hauth
      · refine ⟨0, Nat.zero_le _, nofun, .inr hrefuses, log, ?_⟩
        rw [Nat.add_zero]
        cases hanswer : p.answer (calls.count .token) with
        | ok token => rfl
        | error e =>
            have hauth : ¬ e.isAuthentication = true := fun h => hrefuses ⟨e, hanswer, h⟩
            exact if_neg hauth

/-! ### One request -/

theorem bearer_of_none (h : s.provider = none) (retries : Nat) :
    bearer retries ⟨s, log⟩ = Interaction.ofExcept (.ok none) ⟨s, log⟩ := by
  rw [bearer, Interaction.state_bind_apply, if_pos (Option.isNone_iff_eq_none.2 h)]
  rfl

theorem bearer_of_remembered {token : String} (hopen : ¬ s.provider.isNone = true)
    (h : remembered? s = some token) (retries : Nat) :
    bearer retries ⟨s, log⟩ =
      Interaction.ofExcept (.ok (some (bearerOf token))) ⟨s, log⟩ := by
  rw [bearer, Interaction.state_bind_apply, if_neg hopen, h]
  rfl

theorem bearer_of_forgotten {retries : Nat} {result : Except ClientError String}
    {t : Traced Session} (hopen : ¬ s.provider.isNone = true) (h : remembered? s = none)
    (hfetch : fetch retries ⟨s, log⟩ = Interaction.ofExcept result t) :
    bearer retries ⟨s, log⟩ =
      Interaction.ofExcept (result.map fun token => some (bearerOf token)) t := by
  rw [bearer, Interaction.state_bind_apply, if_neg hopen, h]
  exact Interaction.return_of_ofExcept _ hfetch

theorem close_of_none (h : s.provider = none) :
    close ⟨s, log⟩ = Interaction.ofExcept (.ok false) ⟨s, log⟩ := by
  cases s
  cases h
  rfl

/-- What is asked of a manager. -/
inductive Request where
  /-- A token, with so many retries. -/
  | bearer (retries : Nat)
  /-- To close the source. -/
  | close

/-- What a manager replies. -/
inductive Reply where
  /-- The value of an authorization header, if there is one. -/
  | header (value : Option String)
  /-- Whether there was a source to close. -/
  | closed (done : Bool)

/-- The reply to a request when there is no source. -/
def Request.idleReply : Request → Reply
  | .bearer _ => .header none
  | .close => .closed false

/-- Serves a request. -/
def Request.serve : Request → Interaction Session Reply
  | .bearer retries => return .header (← TokenManager.bearer retries)
  | .close => return .closed (← TokenManager.close)

/-- A request to a manager with what came of it. -/
abbrev Turn := Session.Turn Request Reply

variable {retries : Nat} {t u : Traced Session}

theorem serve_bearer {result : Except ClientError (Option String)}
    (h : bearer retries t = Interaction.ofExcept result u) :
    (Request.bearer retries).serve t = Interaction.ofExcept (result.map .header) u :=
  Interaction.return_of_ofExcept _ h

theorem serve_close {result : Except ClientError Bool}
    (h : close t = Interaction.ofExcept result u) :
    Request.close.serve t = Interaction.ofExcept (result.map .closed) u :=
  Interaction.return_of_ofExcept _ h

/-! ### What a turn does -/

/-- What a manager with an open source does to a request, when the source has answered these
calls. -/
inductive OpenTurn (p : ProviderScript) (s : Session) (calls : List ProviderCall) :
    Request → Turn → Prop where
  /-- The last token is good for long enough. -/
  | reuse {retries : Nat} {token : String}
      (hremembered : remembered? (s.after p calls) = some token) :
      OpenTurn p s calls (.bearer retries)
        ⟨.bearer retries, s.after p calls, .ok (.header (some (bearerOf token))), s.after p calls⟩
  /-- The source is asked until it answers anything else than a failure to authenticate. -/
  | ask {retries k : Nat} (hforgotten : remembered? (s.after p calls) = none) (hk : k ≤ retries)
      (hrefused : ∀ i < k, p.Refuses (calls.count .token + i))
      (hstop : k = retries ∨ ¬ p.Refuses (calls.count .token + k)) :
      OpenTurn p s calls (.bearer retries)
        ⟨.bearer retries, s.after p calls,
          (p.answer (calls.count .token + k)).map fun token => .header (some (bearerOf token)),
          s.after p (calls ++ List.replicate (k + 1) .token)⟩
  /-- The source is closed. -/
  | closed (hclosing : p.closing (calls.count .close) = .ok ()) :
      OpenTurn p s calls .close ⟨.close, s.after p calls, .ok (.closed true),
        { s.after p (calls ++ [.close]) with provider := none, accessToken := none }⟩
  /-- The source fails to close. -/
  | failed {e : ClientError} (hclosing : p.closing (calls.count .close) = .error e) :
      OpenTurn p s calls .close ⟨.close, s.after p calls, .error e, s.after p (calls ++ [.close])⟩

/-- Without a source there is nothing to ask and nothing to close. -/
theorem turn_of_none (h : s.provider = none) (v : Session.Visit Request) :
    Session.turn Request.serve s v =
      ⟨v.request, s.atTime v.time, .ok v.request.idleReply, s.atTime v.time⟩ := by
  obtain ⟨time, request⟩ := v
  have hnone : (s.atTime time).provider = none := h
  cases request with
  | bearer retries => exact Session.turn_of_ofExcept (serve_bearer (bearer_of_none hnone retries))
  | close => exact Session.turn_of_ofExcept (serve_close (close_of_none hnone))

theorem openTurn_turn (p : ProviderScript) (s : Session) (calls : List ProviderCall)
    (v : Session.Visit Request) : OpenTurn p (s.atTime v.time) calls v.request
      (Session.turn Request.serve (s.after p calls) v) := by
  obtain ⟨time, request⟩ := v
  let now := s.atTime time
  have hopen : ¬ (now.after p calls).provider.isNone = true := by simp [Session.after]
  cases request with
  | bearer retries =>
      cases hremembered : remembered? (now.after p calls) with
      | some token =>
          rw [Session.turn_of_ofExcept
            (serve_bearer (bearer_of_remembered hopen hremembered retries))]
          exact .reuse hremembered
      | none =>
          obtain ⟨k, hk, hrefused, hstop, log, hfetch⟩ :=
            exists_fetch_after p now calls [] retries
          rw [Session.turn_of_ofExcept
            (serve_bearer (bearer_of_forgotten hopen hremembered hfetch))]
          have hask := OpenTurn.ask hremembered hk hrefused hstop
          cases hanswer : p.answer (calls.count .token + k) with
          | ok token =>
              rw [hanswer] at hask
              exact hask
          | error e =>
              rw [hanswer] at hask
              exact hask
  | close =>
      have hclose := close_after p now calls []
      cases hclosing : p.closing (calls.count .close) with
      | ok done =>
          rw [hclosing] at hclose
          rw [Session.turn_of_ofExcept (serve_close hclose)]
          exact .closed hclosing
      | error e =>
          rw [hclosing] at hclose
          rw [Session.turn_of_ofExcept (serve_close hclose)]
          exact .failed hclosing

/-! ### What the history says -/

/-- Is there no source any more after these turns? -/
def Over (provider : Option ProviderScript) (past : List Turn) : Prop :=
  provider = none ∨ ∃ t ∈ past, t.reply = .ok (.closed true)

namespace Turn

variable (t : Turn)

/-- Are these the calls of the source in this turn? -/
def Calls (calls : List ProviderCall) : Prop :=
  t.after.providerCalls = t.before.providerCalls ++ calls

/-- The number of requests for a token that the source has answered before. -/
def asked : Nat := t.before.providerCalls.count .token

/-- The number of attempts to close the source before. -/
def tried : Nat := t.before.providerCalls.count .close

/-- Is the token good for long enough at the time of the request? -/
def Good (token : String) : Prop := refreshMargin < Token.secondsLeft t.before.now token

end Turn

/-- Does the turn do what the turns before it say? -/
structure Turn.Conforms (provider : Option ProviderScript) (past : List Turn) (t : Turn) :
    Prop where
  /-- Without a source there is no token, nothing to close and nothing to ask. -/
  idle : Over provider past → t.Calls [] ∧ t.reply = .ok t.request.idleReply
  /-- The last token of the source is handed out again while it is good for long enough. -/
  reuse : ∀ p retries token, provider = some p → ¬ Over provider past →
    t.request = .bearer retries → p.lastToken? t.asked = some token → t.Good token →
      t.Calls [] ∧ t.reply = .ok (.header (some (bearerOf token)))
  /-- Otherwise the source is asked until it does not fail to authenticate, at most once more than
  the number of retries, and its last answer is the reply. -/
  ask : ∀ p retries, provider = some p → ¬ Over provider past → t.request = .bearer retries →
    (∀ token, p.lastToken? t.asked = some token → ¬ t.Good token) →
      ∃ k ≤ retries, (∀ i < k, p.Refuses (t.asked + i)) ∧
        (k = retries ∨ ¬ p.Refuses (t.asked + k)) ∧
        t.Calls (List.replicate (k + 1) .token) ∧
        t.reply = (p.answer (t.asked + k)).map fun token => .header (some (bearerOf token))
  /-- A source is closed by one call, and its answer is the reply. -/
  close : ∀ p, provider = some p → ¬ Over provider past → t.request = .close →
    t.Calls [.close] ∧ t.reply = (p.closing t.tried).map fun () => .closed true
  /-- A failure leaves the last token and the source, but for the answers that it has given. -/
  failure : ∀ p e, provider = some p → t.reply = .error e →
    t.after.accessToken = t.before.accessToken ∧
      t.before.provider = some (.scripted (p.rest t.before.providerCalls)) ∧
      t.after.provider = some (.scripted (p.rest t.after.providerCalls))

theorem remembered?_after_eq_some_iff {token : String} :
    remembered? (s.after p calls) = some token ↔
      p.lastToken? (calls.count .token) = some token ∧
        refreshMargin < Token.secondsLeft s.now token := by
  rw [remembered?, Option.filter_eq_some_iff, decide_eq_true_eq]
  rfl

theorem remembered?_after_eq_none_iff : remembered? (s.after p calls) = none ↔
    ∀ token, p.lastToken? (calls.count .token) = some token →
      ¬ refreshMargin < Token.secondsLeft s.now token := by
  simp [Option.eq_none_iff_forall_ne_some, remembered?_after_eq_some_iff]

/-- Failures of the source leave its last token as it is. -/
theorem lastToken?_of_failures {asked k : Nat}
    (h : ∀ i < k, ∃ e, p.answer (asked + i) = .error e) :
    p.lastToken? (asked + k) = p.lastToken? asked := by
  induction k with
  | zero => rfl
  | succ k ih =>
      obtain ⟨e, he⟩ := h k (Nat.lt_succ_self k)
      rw [← Nat.add_assoc, ProviderScript.lastToken?, he]
      exact ih fun i hi => h i (Nat.lt_succ_of_lt hi)

/-- A turn of an open source does what its history says. -/
theorem OpenTurn.conforms {past : List Turn} {r : Request} {t : Turn} (h : OpenTurn p s calls r t)
    (hopen : ¬ Over (some p) past) : t.Conforms (some p) past := by
  cases h with
  | @reuse retries token hremembered =>
      obtain ⟨hlast, hgood⟩ := remembered?_after_eq_some_iff.1 hremembered
      refine ⟨fun hover => absurd hover hopen, ?_, ?_, nofun, nofun⟩
      · rintro _ _ token' ⟨⟩ - ⟨⟩ hlast' -
        cases hlast.symm.trans hlast'
        exact ⟨(List.append_nil _).symm, rfl⟩
      · rintro _ _ ⟨⟩ - - hbad
        exact absurd hgood (hbad token hlast)
  | @ask retries k hforgotten hk hrefused hstop =>
      refine ⟨fun hover => absurd hover hopen, ?_, ?_, nofun, ?_⟩
      · rintro _ _ token ⟨⟩ - - hlast hgood
        exact absurd hgood (remembered?_after_eq_none_iff.1 hforgotten token hlast)
      · rintro _ _ ⟨⟩ - ⟨⟩ -
        exact ⟨k, hk, hrefused, hstop, rfl, rfl⟩
      · rintro _ e ⟨⟩ hreply
        refine ⟨?_, rfl, rfl⟩
        have hfailures : ∀ i < k + 1, ∃ e, p.answer (calls.count .token + i) = .error e := by
          intro i hi
          rcases Nat.lt_succ_iff_lt_or_eq.1 hi with hi | rfl
          · exact (hrefused i hi).imp fun _ h => h.1
          · cases hanswer : p.answer (calls.count .token + i) with
            | ok token => simp [hanswer, Except.map] at hreply
            | error e => exact ⟨e, rfl⟩
        have hlast := lastToken?_of_failures hfailures
        simpa [Session.after] using hlast
  | closed hclosing =>
      refine ⟨fun hover => absurd hover hopen, nofun, nofun, ?_, nofun⟩
      rintro _ ⟨⟩ - -
      exact ⟨rfl, by simp [Turn.tried, Session.after, hclosing, Except.map]⟩
  | failed hclosing =>
      refine ⟨fun hover => absurd hover hopen, nofun, nofun, ?_, ?_⟩
      · rintro _ ⟨⟩ - -
        exact ⟨rfl, by simp [Turn.tried, Session.after, hclosing, Except.map]⟩
      · rintro _ _ ⟨⟩ -
        refine ⟨?_, rfl, rfl⟩
        simp [Session.after]

theorem conforms_of_over {provider : Option ProviderScript} {past : List Turn}
    (hover : Over provider past) (hnone : s.provider = none) (v : Session.Visit Request) :
    Turn.Conforms provider past (Session.turn Request.serve s v) := by
  rw [turn_of_none hnone]
  constructor
  · exact fun _ => ⟨(List.append_nil _).symm, rfl⟩
  · exact fun _ _ _ _ hopen => absurd hover hopen
  · exact fun _ _ _ hopen => absurd hover hopen
  · exact fun _ _ hopen => absurd hover hopen
  · exact nofun

theorem over_append_iff {provider : Option ProviderScript} {past : List Turn} {t : Turn} :
    Over provider (past ++ [t]) ↔ Over provider past ∨ t.reply = .ok (.closed true) := by
  simp [Over, or_and_right, exists_or, or_assoc]

theorem not_over_append {provider : Option ProviderScript} {past : List Turn} {t : Turn}
    (hopen : ¬ Over provider past) (hreply : t.reply ≠ .ok (.closed true)) :
    ¬ Over provider (past ++ [t]) :=
  fun hover => (over_append_iff.1 hover).elim hopen hreply

/-- The manager at some point of a run: without a source, or with one that has answered some
calls. -/
inductive Standing (provider : Option ProviderScript) (past : List Turn) : Session → Prop where
  | ended {s : Session} (hover : Over provider past) (hnone : s.provider = none) :
      Standing provider past s
  | opened {p : ProviderScript} {s : Session} {calls : List ProviderCall}
      (hprovider : provider = some p) (hopen : ¬ Over provider past) :
      Standing provider past (s.after p calls)

/-- A turn of an open source leaves it open, or closes it and says so. -/
theorem OpenTurn.standing {past : List Turn} {r : Request} {t : Turn} (h : OpenTurn p s calls r t)
    (hopen : ¬ Over (some p) past) : Standing (some p) (past ++ [t]) t.after := by
  cases h with
  | reuse hremembered => exact .opened rfl (not_over_append hopen nofun)
  | @ask retries k hforgotten hk hrefused hstop =>
      refine .opened rfl (not_over_append hopen ?_)
      cases p.answer (calls.count .token + k) <;> simp [Except.map]
  | closed hclosing => exact .ended (over_append_iff.2 (.inr rfl)) rfl
  | failed hclosing => exact .opened rfl (not_over_append hopen nofun)

/-- One step of a run. -/
theorem Standing.turn {provider : Option ProviderScript} {past : List Turn} {s : Session}
    (h : Standing provider past s) (v : Session.Visit Request) :
    Turn.Conforms provider past (Session.turn Request.serve s v) ∧
      Standing provider (past ++ [Session.turn Request.serve s v])
        (Session.turn Request.serve s v).after := by
  cases h with
  | ended hover hnone =>
      refine ⟨conforms_of_over hover hnone v, .ended (over_append_iff.2 (.inl hover)) ?_⟩
      rw [turn_of_none hnone]
      exact hnone
  | @opened p s calls hprovider hopen =>
      cases hprovider
      have hturn := openTurn_turn p s calls v
      exact ⟨hturn.conforms hopen, hturn.standing hopen⟩

/-- A session with this source of tokens that was not asked yet. -/
def started (s : Session) (provider : Option ProviderScript) : Session :=
  { s with provider := provider.map .scripted, providerCalls := [], accessToken := none }

theorem standing_started (s : Session) (provider : Option ProviderScript) :
    Standing provider [] (started s provider) := by
  cases provider with
  | none => exact .ended (.inl rfl) rfl
  | some p => exact @Standing.opened _ _ p s [] rfl (by simp [Over])

/-- A failure to authenticate is retried; behind a close there is nothing left. -/
example (s : Session) :
    let provider := some ⟨[.error (.authentication "flaky"), .ok "opaque"], []⟩
    (Session.turns Request.serve (started s provider)
        [⟨.zero, .bearer 1⟩, ⟨.zero, .close⟩, ⟨.zero, .bearer 0⟩]).map (·.reply) =
      [.ok (.header (some "Bearer opaque")), .ok (.closed true), .ok (.header none)] := rfl

end TokenManager

end StarQpu
