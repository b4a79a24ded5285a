import StarQpu.Auth.Manager
import StarQpu.Proofs.Client.Turns
import StarQpu.Proofs.Result
import StarQpu.Proofs.Text.Percent

/-!
# StarQpu.Proofs.Auth.Login

**What a login does over a whole run.** The server answers requests for tokens in any way it likes,
and the login is asked for tokens and to end its session at any times. All it remembers is one
refresh token. An answer replaces that token, leaves it or makes the login fail (`Answered`), and a
turn is at most two such answers or the end of the session (`Served`). So the token that is
remembered is always the one of the latest answer that brought tokens, good when it came and not
used for a logout since (`Unspent`), and each turn does what its history says
(`turns_follow_answers`). A form determines its fields, so which token a request carries can be seen
from the request. How long a token is still good for is what `Token.secondsLeft` counts.
-/

namespace StarQpu

open Http (Exchange SentRequest nextReply?)

/-- The refresh token that a session remembers. -/
def Session.refreshToken? (s : Session) : Option String :=
  match s.provider with
  | some (.login l) => l.refreshToken
  | _ => none

/-- The session with a login that remembers a refresh token. -/
def Session.loggedIn (s : Session) (l : Login) (refreshToken : Option String) : Session :=
  s.withProvider (.login { l with refreshToken })

namespace Login

/-! ### What the server sees and what it answers -/

/-- A form that was posted to a path. -/
def posted (path : String) (fields : List (String × String)) : SentRequest :=
  ⟨.post, path, none, none, some ⟨"application/x-www-form-urlencoded", Text.form fields⟩⟩

/-- The request for tokens by a refresh token. -/
def refreshGrant (path token : String) : SentRequest :=
  posted path [("client_id", "iqm_client"), ("grant_type", "refresh_token"),
    ("refresh_token", token)]

/-- The request for tokens by the password. -/
def passwordGrant (l : Login) (path : String) : SentRequest :=
  posted path [("client_id", "iqm_client"), ("grant_type", "password"), ("username", l.username),
    ("password", l.password)]

/-- The request to end the session of a refresh token. -/
def logout (path token : String) : SentRequest :=
  posted path [("client_id", "iqm_client"), ("refresh_token", token)]

theorem posted_inj {path path' : String} {fields fields' : List (String × String)} :
    posted path fields = posted path' fields' ↔ path = path' ∧ fields = fields' := by
  simp [posted, Text.form_injective.eq_iff]

theorem refreshGrant_inj {path token token' : String} :
    refreshGrant path token = refreshGrant path token' ↔ token = token' := by
  simp [refreshGrant, posted_inj]

theorem logout_inj {path token token' : String} :
    logout path token = logout path token' ↔ token = token' := by
  simp [logout, posted_inj]

theorem refreshGrant_ne_passwordGrant (l : Login) (path token : String) :
    refreshGrant path token ≠ l.passwordGrant path := by
  simp [refreshGrant, passwordGrant, posted_inj]

theorem logout_ne_refreshGrant (path path' token token' : String) :
    logout path token ≠ refreshGrant path' token' := by
  simp [logout, refreshGrant, posted_inj]

theorem logout_ne_passwordGrant (l : Login) (path path' token : String) :
    logout path token ≠ l.passwordGrant path' := by
  simp [logout, passwordGrant, posted_inj]

/-- The request for tokens as the server sees it. -/
def grantSent (l : Login) (path : String) : Grant → SentRequest
  | .refreshToken token => refreshGrant path token
  | .password => l.passwordGrant path

/-- The tokens in a reply that is accepted as an answer with tokens. -/
def issued? (reply : Http.Reply) : Option Tokens :=
  if reply.status = 200 then (tokensDecoder.ofText reply.text).toOption else none

/-- A token of an answer, if there is one that is good. -/
def live? (now : Int) (token : Option (Option String)) : Option String :=
  (token.getD none).filter (Token.isLive now)

/-- Does the answer to a refresh grant leave it to the password: a refusal, or tokens without an
access token that is good? -/
def Useless (now : Int) (reply : Http.Reply) : Prop :=
  reply.status ≠ 200 ∨ ∃ tokens, issued? reply = some tokens ∧ live? now tokens.access = none

/-- The result of a request for tokens, and the refresh token that is remembered after it. -/
inductive Answered (now : Int) (stored : Option String) :
    Option Http.Reply → Except ClientError (Option String) → Option String → Prop where
  /-- No answer has come. -/
  | lost : Answered now stored none (.error .network) stored
  | refused {reply : Http.Reply} (hstatus : reply.status ≠ 200) :
      Answered now stored (some reply) (.ok none) stored
  | unreadable {reply : Http.Reply} (hstatus : reply.status = 200) (hnone : issued? reply = none) :
      Answered now stored (some reply) (.error .network) stored
  | issued {reply : Http.Reply} {tokens : Tokens} (hissued : issued? reply = some tokens) :
      Answered now stored (some reply) (.ok (live? now tokens.access)) (live? now tokens.refresh)

variable {l : Login} {tokenPath logoutPath : String} {s : Session} {stored : Option String}

theorem exists_request (stored : Option String) (g : Grant)
    (hpath : Http.pathOn? s.network.origin l.tokenUrl = some tokenPath) (log : List Event) :
    ∃ result stored' log', Answered s.now stored (nextReply? s.network.script) result stored' ∧
      l.request g ⟨s.loggedIn l stored, log⟩ = Interaction.ofExcept result
        ⟨(s.sending [l.grantSent tokenPath g]).loggedIn l stored', log'⟩ := by
  have hdelivers : (s.loggedIn l stored).network.Delivers (l.tokenRequest g) tokenPath :=
    ⟨rfl, hpath⟩
  have hsent : (l.tokenRequest g).sentTo tokenPath = l.grantSent tokenPath g := by
    cases g <;> rfl
  rw [request, Interaction.tell_bind_apply]
  cases hreply : nextReply? s.network.script with
  | none =>
      have hexchange := exchange_of_no_reply hdelivers hreply (log ++ [l.requestingEvent g])
      rw [hsent] at hexchange
      exact ⟨_, _, _, .lost, Interaction.bind_of_error hexchange⟩
  | some reply =>
      have hexchange := exchange_of_reply hdelivers hreply (log ++ [l.requestingEvent g])
      rw [hsent] at hexchange
      rw [Interaction.bind_of_ok hexchange]
      by_cases hstatus : reply.status = 200
      · rw [if_neg (not_not_intro hstatus)]
        cases htokens : tokensDecoder.ofText reply.text with
        | error e =>
            refine ⟨_, _, _, .unreadable hstatus ?_, rfl⟩
            rw [issued?, if_pos hstatus, htokens]
            rfl
        | ok tokens =>
            have hissued : issued? reply = some tokens := by
              rw [issued?, if_pos hstatus, htokens]
              rfl
            exact ⟨_, _, _, .issued hissued, rfl⟩
      · rw [if_pos hstatus]
        exact ⟨_, _, _, .refused hstatus, rfl⟩

/-- The token that is remembered, if it is good for long enough to ask for new ones. -/
def due? (now : Int) (stored : Option String) : Option String :=
  stored.filter fun token => refreshMargin < Token.secondsLeft now token

theorem refresh_of_due {token : String} (h : due? s.now l.refreshToken = some token)
    (log : List Event) : l.refresh ⟨s, log⟩ = l.request (.refreshToken token) ⟨s, log⟩ := by
  obtain ⟨htoken, hgood⟩ := Option.filter_eq_some_iff.1 h
  rw [refresh, Interaction.state_bind_apply, htoken]
  exact congrFun (if_pos (of_decide_eq_true hgood)) _

theorem refresh_of_not_due (h : due? s.now l.refreshToken = none) (log : List Event) :
    l.refresh ⟨s, log⟩ = .ok none ⟨s, log⟩ := by
  rw [refresh, Interaction.state_bind_apply]
  cases htoken : l.refreshToken with
  | none => rfl
  | some token =>
      have hbad : ¬ refreshMargin < Token.secondsLeft s.now token := by
        simpa [due?, htoken, Option.filter] using h
      exact congrFun (if_neg hbad) _

/-- What is asked of a login. -/
inductive Request where
  | token
  /-- To end the session. -/
  | close

/-- What a login replies. -/
inductive Reply where
  | token (token : String)
  | closed

/-- The outcome of getting a token, after the result of the last grant. -/
def conclude : Except ClientError (Option String) → Except ClientError String
  | .ok (some token) => .ok token
  | .ok none => .error (.authentication "Getting access token from auth server failed")
  | .error e => .error e

/-- Serves a request by the source of tokens of the session. -/
def Request.serve (r : Request) : Interaction Session Reply := do
  match (← Interaction.state).provider with
  | none => throw (.authentication "No auth session active")
  | some p =>
    match r with
    | .token => return .token (← p.token)
    | .close => do
      p.close
      return .closed

/-- A request to a login with what came of it. -/
abbrev Turn := Session.Turn Request Reply

/-- The session after a source of tokens was asked something and these requests have reached the
server. -/
def asked (s : Session) (call : ProviderCall) (rs : List SentRequest) : Session :=
  (s.called call).sending rs

theorem asked_sending (s : Session) (call : ProviderCall) (rs later : List SentRequest) :
    (asked s call rs).sending later = asked s call (rs ++ later) :=
  ((s.called call).sending_append rs later).symm

/-- The refresh token that is good for long enough at the time of the request. -/
def Turn.due? (t : Turn) : Option String := Login.due? t.before.now t.before.refreshToken?

/-- What a turn of a login can be. -/
inductive Served (l : Login) (tokenPath logoutPath : String) (t : Turn) : Prop where
  /-- The refresh token gets new tokens, or no answer that can be read. -/
  | refreshed {token : String} {answer : Option Http.Reply}
      {result : Except ClientError (Option String)} (hrequest : t.request = .token)
      (hdue : t.due? = some token)
      (hexchanges : t.exchanges = [⟨refreshGrant tokenPath token, answer⟩])
      (hanswer : Answered t.before.now t.before.refreshToken? answer result t.after.refreshToken?)
      (hresult : result ≠ .ok none) (hreply : t.reply = (conclude result).map .token)
  /-- The refresh token does not help, and the password is tried. -/
  | fellBack {token : String} {first answer : Option Http.Reply} {kept : Option String}
      {result : Except ClientError (Option String)} (hrequest : t.request = .token)
      (hdue : t.due? = some token)
      (hexchanges : t.exchanges =
        [⟨refreshGrant tokenPath token, first⟩, ⟨l.passwordGrant tokenPath, answer⟩])
      (hfirst : Answered t.before.now t.before.refreshToken? first (.ok none) kept)
      (hanswer : Answered t.before.now kept answer result t.after.refreshToken?)
      (hreply : t.reply = (conclude result).map .token)
  /-- There is no refresh token to use. -/
  | password {answer : Option Http.Reply} {result : Except ClientError (Option String)}
      (hrequest : t.request = .token) (hdue : t.due? = none)
      (hexchanges : t.exchanges = [⟨l.passwordGrant tokenPath, answer⟩])
      (hanswer : Answered t.before.now t.before.refreshToken? answer result t.after.refreshToken?)
      (hreply : t.reply = (conclude result).map .token)
  /-- The session is ended, if there is one. -/
  | ended (hrequest : t.request = .close)
      (hrequests : t.requests =
        ((t.before.refreshToken?.filter (· ≠ "")).map (logout logoutPath)).toList)
      (hafter : t.after.refreshToken? = none)
      (hreply : ∀ token, t.reply ≠ .ok (.token token))

theorem token_of_refreshed {t u : Traced Session} {result : Except ClientError (Option String)}
    (h : l.refresh t = Interaction.ofExcept result u) (hresult : result ≠ .ok none) :
    l.token t = Interaction.ofExcept (conclude result) u := by
  rcases result with e | _ | token
  · rw [Login.token, Interaction.bind_of_error h]
    rfl
  · exact absurd rfl hresult
  · rw [Login.token, Interaction.bind_of_ok h]
    rfl

theorem token_of_password {t u w : Traced Session} {result : Except ClientError (Option String)}
    (hrefresh : l.refresh t = .ok none u)
    (h : l.request .password u = Interaction.ofExcept result w) :
    ∃ log, l.token t = Interaction.ofExcept (conclude result) ⟨w.state, log⟩ := by
  rw [Login.token, Interaction.bind_of_ok hrefresh]
  rcases result with e | _ | token
  · exact ⟨w.log, Interaction.bind_of_error h⟩
  · exact ⟨_, Interaction.bind_of_ok h⟩
  · exact ⟨w.log, Interaction.bind_of_ok h⟩

theorem serve_token {t u : Traced Session} {p : TokenProvider} {result : Except ClientError String}
    (hp : t.state.provider = some p) (h : p.token t = Interaction.ofExcept result u) :
    Request.token.serve t = Interaction.ofExcept (result.map .token) u := by
  change (match t.state.provider with
    | none => throw (ClientError.authentication "No auth session active")
    | some p => (do return .token (← p.token) : Interaction Session Reply)) t = _
  rw [hp]
  exact Interaction.return_of_ofExcept _ h

theorem serve_close {t u : Traced Session} {p : TokenProvider} {result : Except ClientError Unit}
    (hp : t.state.provider = some p) (h : p.close t = Interaction.ofExcept result u) :
    Request.close.serve t = Interaction.ofExcept (result.map fun () => .closed) u := by
  change (match t.state.provider with
    | none => throw (ClientError.authentication "No auth session active")
    | some p => (do p.close; return .closed : Interaction Session Reply)) t = _
  rw [hp]
  exact Interaction.return_of_ofExcept (fun () => Reply.closed) h

/-- The end of a session sends the refresh token, if there is one, and forgets it. -/
theorem exists_close (stored : Option String)
    (hpath : Http.pathOn? s.network.origin l.logoutUrl = some logoutPath) (log : List Event) :
    ∃ result, { l with refreshToken := stored }.close ⟨s.loggedIn l stored, log⟩ =
      Interaction.ofExcept result
        ⟨(s.sending ((stored.filter (· ≠ "")).map (logout logoutPath)).toList).loggedIn l none,
          log⟩ := by
  rw [close, keep, Interaction.update_bind_apply]
  dsimp only
  cases stored.filter (· ≠ "") with
  | none =>
      rw [Option.map_none, Option.toList_none, Session.sending_nil]
      exact ⟨.error _, rfl⟩
  | some token =>
      have hdelivers : (s.loggedIn l none).network.Delivers (l.logoutRequest token) logoutPath :=
        ⟨rfl, hpath⟩
      cases hreply : nextReply? s.network.script with
      | none =>
          have hexchange := exchange_of_no_reply hdelivers hreply log
          exact ⟨.error .network, Interaction.bind_of_error hexchange⟩
      | some reply =>
          have hexchange := exchange_of_reply hdelivers hreply log
          refine ⟨if reply.status = 200 || reply.status = 204 then .ok () else
            .error (.authentication ("Logout failed, " ++ reply.text)),
            (Interaction.bind_of_ok hexchange).trans ?_⟩
          split <;> rfl

theorem exchanges_asked (s : Session) (l : Login) (stored stored' : Option String)
    (call : ProviderCall) (rs : List SentRequest) (request : Request)
    (reply : Except ClientError Reply) :
    Session.Turn.exchanges
      ⟨request, s.loggedIn l stored, reply, (asked s call rs).loggedIn l stored'⟩ =
        Http.exchanges s.network.script rs :=
  Session.Turn.exchanges_of_sending rfl

/-- A turn is one of the few things that a login does, and leaves the login in the session. -/
theorem served_turn (htoken : Http.pathOn? s.network.origin l.tokenUrl = some tokenPath)
    (hlogout : Http.pathOn? s.network.origin l.logoutUrl = some logoutPath)
    (stored : Option String) (v : Session.Visit Request) :
    Served l tokenPath logoutPath (Session.turn Request.serve (s.loggedIn l stored) v) ∧
      ∃ call rs stored', (Session.turn Request.serve (s.loggedIn l stored) v).after =
        (asked (s.atTime v.time) call rs).loggedIn l stored' := by
  obtain ⟨time, request⟩ := v
  let now := s.atTime time
  let l' : Login := { l with refreshToken := stored }
  have hprovider : (now.loggedIn l stored).provider = some (.login l') := rfl
  cases request with
  | token =>
      have hturn {result : Except ClientError (Option String)} {s' : Session} {log : List Event}
          (h : l'.token ⟨(now.called .token).loggedIn l stored, []⟩ =
            Interaction.ofExcept (conclude result) ⟨s', log⟩) :
          Session.turn Request.serve (s.loggedIn l stored) ⟨time, .token⟩ =
            ⟨.token, now.loggedIn l stored, (conclude result).map .token, s'⟩ :=
        Session.turn_of_ofExcept (serve_token hprovider h)
      cases hdue : due? now.now stored with
      | none =>
          have hrefresh := refresh_of_not_due (s := (now.called .token).loggedIn l stored) (l := l')
            hdue []
          obtain ⟨result, stored', log', hanswer, hrequest⟩ :=
            exists_request (s := now.called .token) (l := l) stored .password htoken []
          obtain ⟨log, hresult⟩ := token_of_password hrefresh hrequest
          rw [hturn hresult]
          have hexchanges := exchanges_asked now l stored stored' .token [l.passwordGrant tokenPath]
            .token ((conclude result).map .token)
          exact ⟨.password rfl hdue hexchanges hanswer rfl, _, _, _, rfl⟩
      | some token =>
          obtain ⟨result, kept, log', hanswer, hrequest⟩ :=
            exists_request (s := now.called .token) (l := l) stored (.refreshToken token) htoken []
          have hrefresh := (refresh_of_due (s := (now.called .token).loggedIn l stored) (l := l')
            hdue []).trans hrequest
          by_cases huseless : result = .ok none
          · subst huseless
            obtain ⟨result', stored', log'', hanswer', hrequest'⟩ :=
              exists_request (s := asked now .token [refreshGrant tokenPath token]) (l := l) kept
                .password htoken log'
            rw [show (asked now .token [refreshGrant tokenPath token]).network.script =
              now.network.script.tail from List.drop_one] at hanswer'
            obtain ⟨log, hresult⟩ := token_of_password hrefresh hrequest'
            rw [hturn hresult]
            dsimp only
            rw [asked_sending]
            have hexchanges := exchanges_asked now l stored stored' .token
              [refreshGrant tokenPath token, l.passwordGrant tokenPath] .token
              ((conclude result').map .token)
            exact ⟨.fellBack rfl hdue hexchanges hanswer hanswer' rfl, _, _, _, rfl⟩
          · rw [hturn (token_of_refreshed hrefresh huseless)]
            have hexchanges := exchanges_asked now l stored kept .token
              [refreshGrant tokenPath token] .token ((conclude result).map .token)
            exact ⟨.refreshed rfl hdue hexchanges hanswer huseless rfl, _, _, _, rfl⟩
  | close =>
      have hturn {result : Except ClientError Unit} {s' : Session} {log : List Event}
          (h : l'.close ⟨(now.called .close).loggedIn l stored, []⟩ =
            Interaction.ofExcept result ⟨s', log⟩) :
          Session.turn Request.serve (s.loggedIn l stored) ⟨time, .close⟩ =
            ⟨.close, now.loggedIn l stored, result.map fun () => .closed, s'⟩ :=
        Session.turn_of_ofExcept (serve_close hprovider h)
      have hreply (result : Except ClientError Unit) (token : String) :
          (result.map fun () => Reply.closed) ≠ .ok (.token token) := by
        cases result <;> simp [Except.map]
      obtain ⟨result, hclose⟩ := exists_close (s := now.called .close) (l := l) stored hlogout []
      rw [hturn hclose]
      exact ⟨.ended rfl (Session.Turn.requests_of_sending rfl) rfl (hreply result), .close, _, none,
        rfl⟩

/-! ### What the history says -/

namespace Turn

variable (t : Turn)

/-- The answers with tokens in this turn. -/
def issued : List Tokens :=
  match t.request with
  | .token => t.exchanges.filterMap fun e => e.reply.bind issued?
  | .close => []

/-- The requests to end a session in this turn. -/
def logouts : List SentRequest :=
  match t.request with
  | .token => []
  | .close => t.requests

/-- Is it left to the password to get a token? There is no refresh token to use, or the answer to it
is useless. -/
def FallsBack (tokenPath : String) : Prop :=
  ∀ token, t.due? = some token → ∃ reply,
    t.exchanges.head? = some ⟨refreshGrant tokenPath token, some reply⟩ ∧
      Useless t.before.now reply

end Turn

/-- Is the token the refresh token of the latest answer with tokens, good when it came, and was no
session ended since? -/
def Unspent (past : List Turn) (token : String) : Prop :=
  ∃ earlier t later tokens, past = earlier ++ t :: later ∧
    t.issued.getLast? = some tokens ∧ live? t.before.now tokens.refresh = some token ∧
    ∀ u ∈ later, u.issued = [] ∧ u.logouts = []

/-- Does the turn do what the turns before it say? -/
structure Turn.Conforms (l : Login) (tokenPath logoutPath : String) (past : List Turn)
    (t : Turn) : Prop where
  /-- The token that is remembered came with the latest answer with tokens and is unspent, -/
  stored : ∀ token, t.before.refreshToken? = some token → Unspent past token
  /-- also after the turn. -/
  kept : ∀ token, t.after.refreshToken? = some token → Unspent (past ++ [t]) token
  /-- A token is asked for by exactly the refresh token that is remembered, if that is good for long
  enough, and then by the password if it is left to that. -/
  grants : t.request = .token → ∃ passwords,
    t.requests = (t.due?.map (refreshGrant tokenPath)).toList ++ passwords ∧
      (t.FallsBack tokenPath ∧ passwords = [l.passwordGrant tokenPath] ∨
        ¬ t.FallsBack tokenPath ∧ passwords = [])
  /-- No other refresh token is carried by a request for tokens, -/
  refreshes : t.request = .token → ∀ token,
    refreshGrant tokenPath token ∈ t.requests ↔ t.due? = some token
  /-- and none carries the password unless it is left to that. -/
  passwords : t.request = .token →
    (l.passwordGrant tokenPath ∈ t.requests ↔ t.FallsBack tokenPath)
  few : t.requests.length ≤ 2
  /-- A token that is handed out is the access token of the last answer and was good when it
  came. -/
  handedOut : ∀ token, t.reply = .ok (.token token) → ∃ request reply tokens,
    t.exchanges.getLast? = some ⟨request, some reply⟩ ∧ issued? reply = some tokens ∧
      tokens.access = some (some token) ∧ Token.isLive t.before.now token = true
  /-- The end of a session takes the token that is remembered, which is forgotten then. -/
  ending : t.request = .close →
    t.requests = (t.before.refreshToken?.map (logout logoutPath)).toList ∧
      t.after.refreshToken? = none
  /-- No other request ends the session of a token. -/
  logouts : ∀ token, logout logoutPath token ∈ t.requests ↔
    t.request = .close ∧ t.before.refreshToken? = some token

variable {now : Int} {answer : Option Http.Reply} {result : Except ClientError (Option String)}
  {stored' : Option String}

theorem Answered.stored_eq (h : Answered now stored answer result stored') :
    stored' = (answer.bind issued?).elim stored fun tokens => live? now tokens.refresh := by
  cases h with
  | lost => rfl
  | refused hstatus => simp [issued?, hstatus]
  | unreadable hstatus hnone => simp [hnone]
  | issued hissued => simp [hissued]

theorem Answered.result_eq_none_iff (h : Answered now stored answer result stored') :
    result = .ok none ↔ ∃ reply, answer = some reply ∧ Useless now reply := by
  cases h with
  | lost => simp
  | refused hstatus => simp [Useless, hstatus]
  | unreadable hstatus hnone => simp [Useless, hstatus, hnone]
  | @issued reply tokens hissued =>
      have hstatus : reply.status = 200 := by
        by_contra hstatus
        simp [issued?, hstatus] at hissued
      simp [Useless, hstatus, hissued]

theorem Answered.exists_issued {token : String}
    (h : Answered now stored answer (.ok (some token)) stored') :
    ∃ reply tokens, answer = some reply ∧ issued? reply = some tokens ∧
      tokens.access = some (some token) ∧ Token.isLive now token = true := by
  generalize hresult : (Except.ok (some token) : Except ClientError _) = result at h
  cases h with
  | lost => cases hresult
  | refused hstatus => cases hresult
  | unreadable hstatus hnone => cases hresult
  | @issued reply tokens hissued =>
      obtain ⟨haccess, hlive⟩ := Option.filter_eq_some_iff.1 (Except.ok.inj hresult).symm
      refine ⟨reply, tokens, rfl, hissued, ?_, hlive⟩
      cases htokens : tokens.access with
      | none => simp [htokens] at haccess
      | some access => simpa [htokens] using haccess

theorem conclude_eq_ok_iff {token : String} :
    conclude result = .ok token ↔ result = .ok (some token) := by
  rcases result with e | _ | token' <;> simp [conclude]

theorem conclude_map_eq_ok_iff {token : String} :
    (conclude result).map Reply.token = .ok (.token token) ↔ result = .ok (some token) := by
  rw [← conclude_eq_ok_iff, map_eq_ok_iff]
  simp

theorem isLive_empty : Token.isLive now "" = false := by
  have hexpiry : Token.expiry? "" = none := by
    rw [Token.expiry?, String.toList_empty]
    rfl
  simp [Token.isLive, Token.secondsLeft, hexpiry]

theorem Unspent.ne_empty {past : List Turn} {token : String} (h : Unspent past token) :
    token ≠ "" := by
  obtain ⟨earlier, t, later, tokens, rfl, hlast, hlive, hlater⟩ := h
  rintro rfl
  have hgood := (Option.filter_eq_some_iff.1 hlive).2
  rw [isLive_empty] at hgood
  cases hgood

/-- What is remembered after a request for a token is unspent if it was before. -/
theorem Unspent.append {past : List Turn} {t : Turn} {token : String}
    (hrequest : t.request = .token) (hstored : ∀ token, stored = some token → Unspent past token)
    (h : (t.issued.getLast?.elim stored fun tokens => live? t.before.now tokens.refresh) =
      some token) : Unspent (past ++ [t]) token := by
  cases hlast : t.issued.getLast? with
  | none =>
      rw [hlast] at h
      obtain ⟨earlier, u, later, tokens, rfl, hissued, hlive, hlater⟩ := hstored token h
      refine ⟨earlier, u, later ++ [t], tokens, by simp, hissued, hlive, ?_⟩
      intro v hv
      rcases List.mem_append.1 hv with hv | hv
      · exact hlater v hv
      · cases List.mem_singleton.1 hv
        exact ⟨List.getLast?_eq_none_iff.1 hlast, by rw [Turn.logouts, hrequest]⟩
  | some tokens =>
      rw [hlast] at h
      exact ⟨past, t, [], tokens, rfl, hlast, h, by simp⟩

theorem filter_ne_empty {past : List Turn}
    (hstored : ∀ token, stored = some token → Unspent past token) :
    stored.filter (· ≠ "") = stored := by
  cases stored with
  | none => rfl
  | some token => exact Option.filter_some_pos (by simpa using (hstored token rfl).ne_empty)

theorem Turn.requests_eq {t : Turn} {exchanges : List Exchange} (h : t.exchanges = exchanges) :
    t.requests = exchanges.map (·.request) :=
  congrArg _ h

theorem Turn.issued_eq {t : Turn} {exchanges : List Exchange} (hrequest : t.request = .token)
    (h : t.exchanges = exchanges) :
    t.issued = exchanges.filterMap fun e => e.reply.bind issued? := by
  rw [Turn.issued, hrequest, h]

variable {past : List Turn} {t : Turn}

/-- After a request for a token, the refresh token of the latest answer with tokens is
remembered. -/
theorem Served.after_eq (h : Served l tokenPath logoutPath t) (hrequest : t.request = .token) :
    t.after.refreshToken? = t.issued.getLast?.elim t.before.refreshToken? fun tokens =>
      live? t.before.now tokens.refresh := by
  cases h with
  | @refreshed token answer result _ hdue hexchanges hanswer hresult hreply =>
      rw [Turn.issued_eq hrequest hexchanges, hanswer.stored_eq]
      cases hissued : answer.bind issued? <;> simp [hissued]
  | @fellBack token first answer kept result _ hdue hexchanges hfirst hanswer hreply =>
      rw [Turn.issued_eq hrequest hexchanges, hanswer.stored_eq, hfirst.stored_eq]
      cases hissued : answer.bind issued? <;>
        cases hissued' : first.bind issued? <;> simp [hissued, hissued']
  | @password answer result _ hdue hexchanges hanswer hreply =>
      rw [Turn.issued_eq hrequest hexchanges, hanswer.stored_eq]
      cases hissued : answer.bind issued? <;> simp [hissued]
  | ended hclose => simp [hrequest] at hclose

/-- The end of a session sends the refresh token, unless it is empty, and forgets it. -/
theorem Served.of_close (h : Served l tokenPath logoutPath t) (hrequest : t.request = .close) :
    t.requests = ((t.before.refreshToken?.filter (· ≠ "")).map (logout logoutPath)).toList ∧
      t.after.refreshToken? = none := by
  cases h with
  | refreshed htoken => simp [hrequest] at htoken
  | fellBack htoken => simp [hrequest] at htoken
  | password htoken => simp [hrequest] at htoken
  | ended hclose hrequests hafter => exact ⟨hrequests, hafter⟩

theorem Served.kept (h : Served l tokenPath logoutPath t)
    (hstored : ∀ token, t.before.refreshToken? = some token → Unspent past token) :
    ∀ token, t.after.refreshToken? = some token → Unspent (past ++ [t]) token := by
  intro token hafter
  cases hrequest : t.request with
  | token =>
      rw [h.after_eq hrequest] at hafter
      exact .append hrequest hstored hafter
  | close => simp [(h.of_close hrequest).2] at hafter

theorem Served.grants (h : Served l tokenPath logoutPath t) (hrequest : t.request = .token) :
    ∃ passwords, t.requests = (t.due?.map (refreshGrant tokenPath)).toList ++ passwords ∧
      (t.FallsBack tokenPath ∧ passwords = [l.passwordGrant tokenPath] ∨
        ¬ t.FallsBack tokenPath ∧ passwords = []) := by
  cases h with
  | @refreshed token answer result _ hdue hexchanges hanswer hresult hreply =>
      refine ⟨[], by rw [Turn.requests_eq hexchanges, hdue]; rfl, .inr ⟨?_, rfl⟩⟩
      intro hfalls
      obtain ⟨reply, hhead, huseless⟩ := hfalls token hdue
      rw [hexchanges] at hhead
      cases hhead
      exact hresult (hanswer.result_eq_none_iff.2 ⟨reply, rfl, huseless⟩)
  | @fellBack token first answer kept result _ hdue hexchanges hfirst hanswer hreply =>
      refine ⟨_, by rw [Turn.requests_eq hexchanges, hdue]; rfl, .inl ⟨?_, rfl⟩⟩
      intro token' hdue'
      cases hdue.symm.trans hdue'
      obtain ⟨reply, rfl, huseless⟩ := hfirst.result_eq_none_iff.1 rfl
      exact ⟨reply, by rw [hexchanges]; rfl, huseless⟩
  | password _ hdue hexchanges hanswer hreply =>
      refine ⟨_, by rw [Turn.requests_eq hexchanges, hdue]; rfl, .inl ⟨?_, rfl⟩⟩
      intro token hdue'
      rw [hdue] at hdue'
      cases hdue'
  | ended hclose => simp [hrequest] at hclose

theorem Served.refreshes (h : Served l tokenPath logoutPath t) (hrequest : t.request = .token)
    (token : String) : refreshGrant tokenPath token ∈ t.requests ↔ t.due? = some token := by
  obtain ⟨passwords, hrequests, hpasswords⟩ := h.grants hrequest
  have hother : refreshGrant tokenPath token ∉ passwords := by
    rcases hpasswords with ⟨-, rfl⟩ | ⟨-, rfl⟩
    · exact fun hmem => refreshGrant_ne_passwordGrant l _ _ (List.mem_singleton.1 hmem)
    · exact List.not_mem_nil
  rw [hrequests, List.mem_append, or_iff_left hother]
  simp [refreshGrant_inj]

theorem Served.passwords (h : Served l tokenPath logoutPath t) (hrequest : t.request = .token) :
    l.passwordGrant tokenPath ∈ t.requests ↔ t.FallsBack tokenPath := by
  obtain ⟨passwords, hrequests, hpasswords⟩ := h.grants hrequest
  have hother : l.passwordGrant tokenPath ∉ (t.due?.map (refreshGrant tokenPath)).toList := by
    intro hmem
    obtain ⟨token, -, heq⟩ := Option.map_eq_some_iff.1 (Option.mem_toList.1 hmem)
    exact refreshGrant_ne_passwordGrant l _ _ heq
  rw [hrequests, List.mem_append, or_iff_right hother]
  rcases hpasswords with ⟨hfalls, rfl⟩ | ⟨hfalls, rfl⟩
  · exact iff_of_true List.mem_cons_self hfalls
  · exact iff_of_false List.not_mem_nil hfalls

theorem Served.few (h : Served l tokenPath logoutPath t) : t.requests.length ≤ 2 := by
  cases h with
  | refreshed _ _ hexchanges => simp [Turn.requests_eq hexchanges]
  | fellBack _ _ hexchanges => simp [Turn.requests_eq hexchanges]
  | password _ _ hexchanges => simp [Turn.requests_eq hexchanges]
  | ended _ hrequests =>
      rw [hrequests]
      cases Option.map _ _ <;> simp

/-- A token that is handed out after an answer comes from that answer. -/
theorem Answered.handedOut {request : SentRequest} {token : String}
    (h : Answered t.before.now stored answer result stored')
    (hlast : t.exchanges.getLast? = some ⟨request, answer⟩)
    (hreply : t.reply = (conclude result).map .token) (hok : t.reply = .ok (.token token)) :
    ∃ request reply tokens, t.exchanges.getLast? = some ⟨request, some reply⟩ ∧
      issued? reply = some tokens ∧ tokens.access = some (some token) ∧
      Token.isLive t.before.now token = true := by
  rw [hreply] at hok
  rw [conclude_map_eq_ok_iff.1 hok] at h
  obtain ⟨reply, tokens, rfl, hissued⟩ := h.exists_issued
  exact ⟨request, reply, tokens, hlast, hissued⟩

theorem Served.handedOut (h : Served l tokenPath logoutPath t) {token : String}
    (hok : t.reply = .ok (.token token)) : ∃ request reply tokens,
      t.exchanges.getLast? = some ⟨request, some reply⟩ ∧ issued? reply = some tokens ∧
        tokens.access = some (some token) ∧ Token.isLive t.before.now token = true := by
  cases h with
  | refreshed _ _ hexchanges hanswer _ hreply =>
      exact hanswer.handedOut (by rw [hexchanges]; rfl) hreply hok
  | fellBack _ _ hexchanges _ hanswer hreply =>
      exact hanswer.handedOut (by rw [hexchanges]; rfl) hreply hok
  | password _ _ hexchanges hanswer hreply =>
      exact hanswer.handedOut (by rw [hexchanges]; rfl) hreply hok
  | ended _ _ _ hreply => exact absurd hok (hreply token)

theorem Served.ending (h : Served l tokenPath logoutPath t) (hrequest : t.request = .close)
    (hstored : ∀ token, t.before.refreshToken? = some token → Unspent past token) :
    t.requests = (t.before.refreshToken?.map (logout logoutPath)).toList ∧
      t.after.refreshToken? = none := by
  obtain ⟨hrequests, hafter⟩ := h.of_close hrequest
  rw [filter_ne_empty hstored] at hrequests
  exact ⟨hrequests, hafter⟩

theorem Served.logouts (h : Served l tokenPath logoutPath t)
    (hstored : ∀ token, t.before.refreshToken? = some token → Unspent past token)
    (token : String) : logout logoutPath token ∈ t.requests ↔
      t.request = .close ∧ t.before.refreshToken? = some token := by
  cases hrequest : t.request with
  | token =>
      refine iff_of_false (fun hmem => ?_) nofun
      obtain ⟨passwords, hrequests, hpasswords⟩ := h.grants hrequest
      rw [hrequests] at hmem
      rcases List.mem_append.1 hmem with hmem | hmem
      · obtain ⟨token', -, heq⟩ := Option.map_eq_some_iff.1 (Option.mem_toList.1 hmem)
        exact logout_ne_refreshGrant _ _ _ _ heq.symm
      · rcases hpasswords with ⟨-, rfl⟩ | ⟨-, rfl⟩
        · exact logout_ne_passwordGrant l _ _ _ (List.mem_singleton.1 hmem)
        · exact absurd hmem List.not_mem_nil
  | close =>
      rw [(h.ending hrequest hstored).1]
      simp [logout_inj]

/-- A turn does what its history says when the token that is remembered is unspent. -/
theorem Served.conforms (h : Served l tokenPath logoutPath t)
    (hstored : ∀ token, t.before.refreshToken? = some token → Unspent past token) :
    t.Conforms l tokenPath logoutPath past where
  stored := hstored
  kept := h.kept hstored
  grants := h.grants
  refreshes := h.refreshes
  passwords := h.passwords
  few := h.few
  handedOut _ := h.handedOut
  ending hrequest := h.ending hrequest hstored
  logouts := h.logouts hstored

/-- A session with the login at some point of a run: the token that is remembered is unspent. -/
def Standing (l : Login) (origin : String) (past : List Turn) (s : Session) : Prop :=
  ∃ (s₀ : Session) (stored : Option String), s = s₀.loggedIn l stored ∧
    s₀.network.origin = origin ∧
    ∀ token, stored = some token → Unspent past token

/-- One step of a run. -/
theorem Standing.turn {origin : String} (htoken : Http.pathOn? origin l.tokenUrl = some tokenPath)
    (hlogout : Http.pathOn? origin l.logoutUrl = some logoutPath) (h : Standing l origin past s)
    (v : Session.Visit Request) :
    Turn.Conforms l tokenPath logoutPath past (Session.turn Request.serve s v) ∧
      Standing l origin (past ++ [Session.turn Request.serve s v])
        (Session.turn Request.serve s v).after := by
  obtain ⟨s₀, stored, rfl, rfl, hstored⟩ := h
  obtain ⟨hserved, call, rs, stored', hafter⟩ := served_turn htoken hlogout stored v
  refine ⟨hserved.conforms hstored, asked (s₀.atTime v.time) call rs, stored', hafter, rfl, ?_⟩
  intro token htoken'
  refine hserved.kept hstored token ?_
  rw [hafter]
  exact htoken'

/-- A login to a realm of a server. -/
def sample : Login := .new "http://auth.test" defaultRealm "alice" "secret"

/-- An answer with an access token that is good for 15 minutes and a refresh token for an hour. -/
def sampleAnswer : Http.Answer :=
  .reply ⟨200, "\x7b\"access_token\":\"e30.eyJleHAiOjkwMH0.s\"," ++
    "\"refresh_token\":\"e30.eyJleHAiOjM2MDB9.s\"\x7d"⟩

/-- A server that answers twice with tokens and then ends the session. -/
def sampleSession : Session where
  clock := .zero
  network := ⟨"http://auth.test", [sampleAnswer, sampleAnswer, .reply ⟨204, ""⟩], []⟩

end Login

end StarQpu
