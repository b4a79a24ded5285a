import StarQpu.Proofs.Auth.Login

/-!
# StarQpu.Proofs.Auth.Lasting

**Tokens that outlast a run.** Whether a token is handed out depends on the time by two questions
only: is it good, and is it good for long enough? Two sessions that remember the same, at times at
which the answers are the same for all tokens they can use, therefore get the same value for an
authorization header and remember the same again (`agrees_bearer`), as long as they do not log in to
the server for it.
-/

namespace StarQpu

/-- Can the source hand out the token? -/
def TokenProvider.Offers (files : Table String String) (token : String) : TokenProvider → Prop
  | .external known => known = some token
  | .file path => ∃ p text, path = some p ∧ files.get? (Text.plainPath p) = some text ∧
      tokensFileDecoder.ofText text = .ok (some token)
  | .login _ => False
  | .scripted script => .ok token ∈ script.tokens

namespace Session

/-- Can the token be used in the session without a login? -/
def MayUse (s : Session) (token : String) : Prop :=
  s.accessToken = some token ∨ ∃ p, s.provider = some p ∧ p.Offers s.files token

/-- Does time change nothing about the tokens that can be used, from the first second to the last?
None expires then or gets close to that, and none becomes good again. -/
structure Lasting (s : Session) (start stop : Int) : Prop where
  live : ∀ token, s.MayUse token → ∀ now, start ≤ now → now ≤ stop →
    Token.isLive now token = Token.isLive start token
  good : ∀ token, s.MayUse token → ∀ now, start ≤ now → now ≤ stop →
    (refreshMargin < Token.secondsLeft now token ↔ refreshMargin < Token.secondsLeft start token)

/-- Does a login of the session go to another server? -/
def Aloof (s : Session) : Prop :=
  ∀ l, s.provider = some (.login l) → Http.pathOn? s.network.origin l.tokenUrl = none

/-- Do the sessions remember the same, about tokens out of this set and without a login to the
server with this origin? -/
structure Alike (usable : String → Prop) (origin : String) (s s' : Session) : Prop where
  provider : s.provider = s'.provider
  files : s.files = s'.files
  accessToken : s.accessToken = s'.accessToken
  architectures : s.architectures = s'.architectures
  origin_eq : s.network.origin = origin ∧ s'.network.origin = origin
  mayUse : ∀ token, s.MayUse token → usable token
  aloof : s.Aloof

/-- Are the times the same for what tokens out of this set are good for? -/
structure SameTime (usable : String → Prop) (now now' : Int) : Prop where
  live : ∀ token, usable token → Token.isLive now token = Token.isLive now' token
  good : ∀ token, usable token →
    (refreshMargin < Token.secondsLeft now token ↔ refreshMargin < Token.secondsLeft now' token)

end Session

theorem Session.Lasting.sameTime {s : Session} {start stop now now' : Int}
    (h : s.Lasting start stop) (hnow : start ≤ now ∧ now ≤ stop)
    (hnow' : start ≤ now' ∧ now' ≤ stop) : SameTime s.MayUse now now' where
  live token huse :=
    (h.live token huse now hnow.1 hnow.2).trans (h.live token huse now' hnow'.1 hnow'.2).symm
  good token huse :=
    (h.good token huse now hnow.1 hnow.2).trans (h.good token huse now' hnow'.1 hnow'.2).symm

/-! ### A login to another server -/

namespace Login

variable {l : Login} {s : Session}

theorem not_delivers (h : Http.pathOn? s.network.origin l.tokenUrl = none) (g : Grant)
    (path : String) : ¬ s.network.Delivers (l.tokenRequest g) path := by
  intro hdelivers
  have hpath := hdelivers.2
  rw [show (l.tokenRequest g).url = l.tokenUrl from rfl, h] at hpath
  cases hpath

/-- A login to another server fails and leaves nothing behind but an event. -/
theorem exists_token_of_aloof (h : Http.pathOn? s.network.origin l.tokenUrl = none)
    (log : List Event) : ∃ log', l.token ⟨s, log⟩ = .error .network ⟨s, log'⟩ := by
  have hrequest (g : Grant) : l.request g ⟨s, log⟩ =
      .error .network ⟨s, log ++ [l.requestingEvent g]⟩ := by
    rw [request, Interaction.tell_bind_apply]
    exact Interaction.bind_of_error (exchange_of_not_delivers (not_delivers h g) _)
  have hpassword (hrefresh : l.refresh ⟨s, log⟩ = .ok none ⟨s, log⟩) :
      ∃ log', l.token ⟨s, log⟩ = .error .network ⟨s, log'⟩ := by
    rw [Login.token, Interaction.bind_of_ok hrefresh]
    exact ⟨_, Interaction.bind_of_error (hrequest .password)⟩
  cases hdue : due? s.now l.refreshToken with
  | none => exact hpassword (refresh_of_not_due hdue log)
  | some token =>
      have hrefresh := (refresh_of_due hdue log).trans (hrequest (.refreshToken token))
      exact ⟨_, Interaction.bind_of_error hrefresh⟩

end Login

/-! ### Two sessions that remember the same -/

section Agreement

variable {usable : String → Prop} {s s' t t' : Session}

/-- Do two sessions remember the same, with the clocks and networks of these two? -/
structure Session.Beside (usable : String → Prop) (s s' t t' : Session) : Prop where
  alike : Session.Alike usable s.network.origin t t'
  clock : t.clock = s.clock ∧ t'.clock = s'.clock
  network : t.network = s.network ∧ t'.network = s'.network

theorem Session.Beside.sameTime (h : Session.Beside usable s s' t t')
    (htime : Session.SameTime usable s.now s'.now) : Session.SameTime usable t.now t'.now := by
  unfold Session.now at *
  rw [h.clock.1, h.clock.2]
  exact htime

/-- The sessions when both keep another source of tokens, which offers no more than the last one. -/
theorem Session.Beside.withProvider (h : Session.Beside usable s s' t t') {p : TokenProvider}
    (hoffers : ∀ token, p.Offers t.files token → usable token) (hlogin : ∀ l, p ≠ .login l) :
    Session.Beside usable s s' (t.withProvider p) (t'.withProvider p) where
  alike :=
    { h.alike with
      provider := rfl
      mayUse := by
        rintro token (haccess | ⟨q, hq, htoken⟩)
        · exact h.alike.mayUse token (.inl haccess)
        · cases hq
          exact hoffers token htoken
      aloof := fun l hl => absurd (Option.some.inj hl) (hlogin l) }
  clock := h.clock
  network := h.network

open Interaction

/-- The same with a result of which only usable tokens are known. -/
def Session.Handed (usable : String → Prop) (s s' : Session) (result : Except ClientError String)
    (t t' : Session) : Prop :=
  Session.Beside usable s s' t t' ∧ ∀ token, result = .ok token → usable token

theorem Session.Beside.failed (h : Session.Beside usable s s' t t') (e : ClientError) :
    Session.Handed usable s s' (.error e) t t' :=
  ⟨h, nofun⟩

theorem Session.Beside.handed (h : Session.Beside usable s s' t t') {token : String}
    (huse : t.MayUse token) : Session.Handed usable s s' (.ok token) t t' := by
  refine ⟨h, ?_⟩
  rintro _ ⟨⟩
  exact h.alike.mayUse token huse

theorem agrees_tokenOfFile {path : String} (h : Session.Beside usable s s' t t')
    (htime : Session.SameTime usable s.now s'.now) (hp : t.provider = some (.file (some path))) :
    Agrees (Session.Handed usable s s') (tokenOfFile path) (tokenOfFile path) t t' := by
  refine agrees_of_state ?_
  rw [← h.alike.files]
  cases htext : t.files.get? (Text.plainPath path) with
  | none => exact agrees_throw (h.failed _)
  | some text =>
      dsimp only
      cases htoken : tokensFileDecoder.ofText text with
      | error e => exact agrees_throw (h.failed _)
      | ok known =>
          cases known with
          | none => exact agrees_throw (h.failed _)
          | some token =>
              have huse : t.MayUse token := .inr ⟨_, hp, path, text, rfl, htext, htoken⟩
              have hlive := (h.sameTime htime).live token (h.alike.mayUse token huse)
              simp only [Option.filter, ← hlive]
              cases Token.isLive t.now token with
              | true => exact agrees_pure (h.handed huse)
              | false => exact agrees_throw (h.failed _)

theorem agrees_answer {p : TokenProvider} (h : Session.Beside usable s s' t t')
    (htime : Session.SameTime usable s.now s'.now) (hp : t.provider = some p) :
    Agrees (Session.Handed usable s s') p.answer p.answer t t' := by
  cases p with
  | external known =>
      cases known with
      | none => exact agrees_throw (h.failed _)
      | some token => exact agrees_pure (h.handed (.inr ⟨_, hp, rfl⟩))
  | file path =>
      cases path with
      | none => exact agrees_throw (h.failed _)
      | some path => exact agrees_tokenOfFile h htime hp
  | login l =>
      have hlogin := h.alike.aloof l hp
      have hlogin' : Http.pathOn? t'.network.origin l.tokenUrl = none := by
        rw [h.alike.origin_eq.2, ← h.alike.origin_eq.1]
        exact hlogin
      intro log log'
      obtain ⟨_, hx⟩ := Login.exists_token_of_aloof hlogin log
      obtain ⟨_, hy⟩ := Login.exists_token_of_aloof hlogin' log'
      exact ⟨.error .network, _, _, h.failed _, hx, hy⟩
  | scripted script =>
      have hoffers (token : String) (htoken : .ok token ∈ script.tokens) : usable token :=
        h.alike.mayUse token (.inr ⟨_, hp, htoken⟩)
      have hkeep := h.withProvider (p := .scripted { script with tokens := script.tokens.tail })
        (fun token htoken => hoffers token (List.mem_of_mem_tail htoken)) nofun
      refine agrees_of_update ?_
      cases hanswers : script.tokens with
      | nil =>
          rw [hanswers] at hkeep
          exact agrees_throw (hkeep.failed _)
      | cons answer later =>
          rw [hanswers] at hkeep
          refine agrees_ofExcept ⟨hkeep, ?_⟩
          rintro token rfl
          exact hoffers token (by rw [hanswers]; exact List.mem_cons_self)

theorem agrees_ask (h : Session.Beside usable s s' t t')
    (htime : Session.SameTime usable s.now s'.now) :
    Agrees (fun _ => Session.Beside usable s s') TokenManager.ask TokenManager.ask t t' := by
  refine agrees_of_state ?_
  rw [← h.alike.provider]
  cases hp : t.provider with
  | none => exact agrees_throw h
  | some p =>
      have hcalled : Session.Beside usable s s' (t.called .token) (t'.called .token) :=
        { h with alike := { h.alike with } }
      have htoken : Agrees (Session.Handed usable s s') p.token p.token t t' :=
        agrees_of_update (agrees_answer hcalled htime hp)
      refine htoken.bind (fun _ _ _ hend => hend.1) fun token u u' hend => ?_
      refine agrees_of_update (agrees_pure ?_)
      exact
        { hend.1 with
          alike :=
            { hend.1.alike with
              accessToken := rfl
              mayUse := by
                rintro known (haccess | hprovider)
                · cases haccess
                  exact hend.2 token rfl
                · exact hend.1.alike.mayUse known (.inr hprovider) } }

theorem agrees_fetch (h : Session.Beside usable s s' t t')
    (htime : Session.SameTime usable s.now s'.now) (retries : Nat) :
    Agrees (fun _ => Session.Beside usable s s') (TokenManager.fetch retries)
      (TokenManager.fetch retries) t t' := by
  induction retries generalizing t t' with
  | zero => exact agrees_ask h htime
  | succ retries ih =>
      refine (agrees_ask h htime).tryCatch (fun _ _ _ => id) fun e u u' hend => ?_
      split
      · exact agrees_of_tellAll (ih hend)
      · exact agrees_throw hend

theorem remembered?_eq (h : Session.Beside usable s s' t t')
    (htime : Session.SameTime usable s.now s'.now) :
    TokenManager.remembered? t = TokenManager.remembered? t' := by
  unfold TokenManager.remembered?
  rw [← h.alike.accessToken]
  cases haccess : t.accessToken with
  | none => rfl
  | some token =>
      have hgood := (h.sameTime htime).good token (h.alike.mayUse token (.inl haccess))
      simp [Option.filter, hgood]

/-- The sessions get the same value for an authorization header, without the server. -/
theorem agrees_bearer (h : Session.Beside usable s s' t t')
    (htime : Session.SameTime usable s.now s'.now) (retries : Nat) :
    Agrees (fun _ => Session.Beside usable s s') (TokenManager.bearer retries)
      (TokenManager.bearer retries) t t' := by
  refine agrees_of_state ?_
  rw [← h.alike.provider, ← remembered?_eq h htime]
  cases t.provider.isNone with
  | true => exact agrees_pure h
  | false =>
      cases TokenManager.remembered? t with
      | some token => exact agrees_pure h
      | none =>
          exact (agrees_fetch h htime retries).andReturn _

end Agreement

end StarQpu
