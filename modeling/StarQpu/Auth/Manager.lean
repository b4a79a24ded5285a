import StarQpu.Auth.Token
import StarQpu.Client.Session
import StarQpu.Text.Path

/-!
# StarQpu.Auth.Manager

**Tokens on demand.** The last token is handed out again as long as it is good for more than a
minute. Otherwise the source is asked, and asked again if it fails to authenticate, a limited number
of times. A source that was closed is forgotten together with the last token; one that fails to
close stays.
-/

namespace StarQpu

open Decoder

/-- A token with no more seconds left is replaced before it is used. -/
def refreshMargin : Int := 60

/-- The part of the program that speaks in events about authentication. -/
def authOrigin : String := "iqm_hal::auth"

/-! ### Logging in -/

namespace Login

/-- The tokens in the answer of an authentication server. -/
structure Tokens where
  access : Option (Option String) := none
  refresh : Option (Option String) := none

/-- Reads the answer of an authentication server. -/
def tokensDecoder : Decoder Tokens :=
  record
    [("access_token", slot (·.access) (fun r x => { r with access := some x }) (option string)),
      ("refresh_token",
        slot (·.refresh) (fun r x => { r with refresh := some x }) (option string))] 2 {}

/-- How new tokens are asked for. -/
inductive Grant where
  | password
  | refreshToken (token : String)
  deriving DecidableEq

/-- The name of a way to ask for tokens. -/
def Grant.name : Grant → String
  | .password => "Password"
  | .refreshToken _ => "RefreshToken"

/-- The form that asks for tokens. -/
def tokenForm (l : Login) : Grant → String
  | .refreshToken token =>
    Text.form [("client_id", clientId), ("grant_type", "refresh_token"), ("refresh_token", token)]
  | .password =>
    Text.form [("client_id", clientId), ("grant_type", "password"), ("username", l.username),
      ("password", l.password)]

/-- The request for tokens. -/
def tokenRequest (l : Login) (g : Grant) : Http.Request :=
  { method := .post, url := l.tokenUrl, body := some (.ofForm (l.tokenForm g)) }

/-- The request that ends a session. -/
def logoutRequest (l : Login) (token : String) : Http.Request :=
  { method := .post, url := l.logoutUrl,
    body := some (.ofForm (Text.form [("client_id", clientId), ("refresh_token", token)])) }

/-- Keeps the login, with this refresh token, as the source of tokens. -/
def keep (l : Login) (refreshToken : Option String) : Interaction Session Unit :=
  Interaction.update fun s => s.withProvider (.login { l with refreshToken })

/-- The event of a request for tokens. -/
def requestingEvent (l : Login) (g : Grant) : Event :=
  ⟨.debug, authOrigin, s!"Requesting tokens ({g.name} grant) from {l.tokenUrl}", []⟩

/-- The event of a request for tokens that the server refused. -/
def refusedEvent (reply : Http.Reply) : Event :=
  ⟨.debug, authOrigin, "Token request rejected with " ++ reply.describe, []⟩

/-- Asks for tokens. The refresh token of an answer is kept while it is good, and forgotten
otherwise; the access token is the result if it is good. A refused request changes nothing. -/
def request (l : Login) (g : Grant) : Interaction Session (Option String) := do
  Interaction.tell (l.requestingEvent g)
  let reply ← exchange (l.tokenRequest g)
  if reply.status ≠ 200 then
    Interaction.tell (refusedEvent reply)
    pure none
  else
    match tokensDecoder.ofText reply.text with
    | .error _ => throw .network
    | .ok tokens =>
      let now := (← Interaction.state).now
      l.keep ((tokens.refresh.getD none).filter (Token.isLive now))
      pure ((tokens.access.getD none).filter (Token.isLive now))

/-- Gets a token by the refresh token if that is good for long enough. -/
def refresh (l : Login) : Interaction Session (Option String) := do
  let now := (← Interaction.state).now
  match l.refreshToken with
  | none => pure none
  | some token =>
    if refreshMargin < Token.secondsLeft now token then l.request (.refreshToken token)
    else pure none

/-- The warning that no token was issued. -/
def noTokenWarning (l : Login) : Event :=
  ⟨.warn, authOrigin, s!"Auth server at {l.tokenUrl} did not issue an access token", []⟩

/-- Gets a token, by the refresh token or else by the password. -/
def token (l : Login) : Interaction Session String := do
  let refreshed ← l.refresh
  let issued ←
    match refreshed with
    | some token => pure (some token)
    | none => l.request .password
  match issued with
  | some token => pure token
  | none =>
    Interaction.tell l.noTokenWarning
    throw (.authentication "Getting access token from auth server failed")

/-- Ends the session. Its refresh token is used up, whether the server agrees or not. -/
def close (l : Login) : Interaction Session Unit := do
  l.keep none
  match l.refreshToken.filter (· ≠ "") with
  | none => throw (.authentication "No auth session active")
  | some token =>
    let reply ← exchange (l.logoutRequest token)
    if reply.status = 200 || reply.status = 204 then pure ()
    else throw (.authentication ("Logout failed, " ++ reply.text))

end Login

/-! ### Other sources -/

/-- The one field of a file with tokens, as it is met. -/
structure TokensFileFields where
  access : Option (Option String) := none

/-- Reads the access token of a file with tokens. -/
def tokensFileDecoder : Decoder (Option String) := fun o s => do
  let r ← record (ρ := TokensFileFields)
    [("access_token", slot (·.access) (fun r x => { r with access := some x }) (option string))]
    1 {} o s
  pure (r.access.getD none)

/-- The token in a file; it has to be good still. -/
def tokenOfFile (path : String) : Interaction Session String := do
  let s ← Interaction.state
  match s.files.get? (Text.plainPath path) with
  | none => throw (.unreadableTokens path none)
  | some text =>
    match tokensFileDecoder.ofText text with
    | .error e => throw (.unreadableTokens path (some e))
    | .ok token =>
      match token.filter (Token.isLive s.now) with
      | some token => pure token
      | none => throw (.authentication "Access token in file has expired or is not valid")

/-- The failure to close what belongs to somebody else. -/
def cannotClose : ClientError := .authentication "Can not close externally managed auth session"

/-- Keeps a source of tokens. -/
def keepProvider (p : TokenProvider) : Interaction Session Unit :=
  Interaction.update (·.withProvider p)

namespace ProviderScript

/-- The next answer to a request for a token. -/
def token (s : ProviderScript) : Interaction Session String := do
  keepProvider (.scripted { s with tokens := s.tokens.tail })
  match s.tokens with
  | [] => throw (.configuration "script exhausted")
  | answer :: _ => .ofExcept answer

/-- The next answer to an attempt to close the source. -/
def close (s : ProviderScript) : Interaction Session Unit := do
  keepProvider (.scripted { s with closings := s.closings.tail })
  match s.closings with
  | [] => pure ()
  | answer :: _ => .ofExcept answer

end ProviderScript

namespace TokenProvider

/-- The token of a source. -/
def answer : TokenProvider → Interaction Session String
  | .external (some token) => pure token
  | .external none => throw (.authentication "No external token available")
  | .file (some path) => tokenOfFile path
  | .file none => throw (.authentication "No tokens file available")
  | .login l => l.token
  | .scripted s => s.token

/-- The end of a source. -/
def finish : TokenProvider → Interaction Session Unit
  | .external _ => do
    keepProvider (.external none)
    throw cannotClose
  | .file _ => do
    keepProvider (.file none)
    throw cannotClose
  | .login l => l.close
  | .scripted s => s.close

/-- Gets a token. -/
def token (p : TokenProvider) : Interaction Session String := do
  Interaction.update (·.called .token)
  p.answer

/-- Closes the source. -/
def close (p : TokenProvider) : Interaction Session Unit := do
  Interaction.update (·.called .close)
  p.finish

end TokenProvider

/-! ### Managing a source -/

namespace TokenManager

/-- A description that shows no secrets. -/
def description : String := "TokenManager \x7b .. \x7d"

/-- A token as a header shows it. -/
def bearerOf (token : String) : String := "Bearer " ++ token

/-- Asks the source for a token and remembers it. -/
def ask : Interaction Session String := do
  match (← Interaction.state).provider with
  | none => throw (.authentication "No auth session active")
  | some p =>
    let token ← p.token
    Interaction.update fun s => { s with accessToken := some token }
    pure token

/-- The event of a failure after which the source is asked again. -/
def retryEvent (e : ClientError) : Event :=
  ⟨.debug, authOrigin, "Getting access token failed, retrying: " ++ e.message, []⟩

/-- Asks the source for a token, and asks again after a failure to authenticate, at most so many
times. -/
def fetch : Nat → Interaction Session String
  | 0 => ask
  | retries + 1 =>
    tryCatch ask fun e =>
      if e.isAuthentication then do
        Interaction.tell (retryEvent e)
        fetch retries
      else throw e

/-- The last token, if it is good for long enough. -/
def remembered? (s : Session) : Option String :=
  s.accessToken.filter fun token => refreshMargin < Token.secondsLeft s.now token

/-- The value of an authorization header; none without a source of tokens. -/
def bearer (retries : Nat) : Interaction Session (Option String) := do
  let s ← Interaction.state
  if s.provider.isNone then pure none
  else
    match remembered? s with
    | some token => pure (some (bearerOf token))
    | none => do
      let token ← fetch retries
      pure (some (bearerOf token))

/-- Is there a source of tokens? -/
def hasProvider : Interaction Session Bool := do
  pure (← Interaction.state).provider.isSome

/-- Closes the source of tokens: whether there was one. -/
def close : Interaction Session Bool := do
  match (← Interaction.state).provider with
  | none => pure false
  | some p =>
    p.close
    Interaction.update fun s => { s with provider := none, accessToken := none }
    pure true

end TokenManager

end StarQpu
