import StarQpu.Auth.Parameters

/-!
# StarQpu.Auth.Provider

**Sources of access tokens.** A fixed token and a file with tokens belong to somebody else: they
cannot be closed, and an attempt to do so makes them useless. A login belongs to the client; it
keeps the session with the server alive by a refresh token.
-/

namespace StarQpu

/-- A login to an authentication server. -/
structure Login where
  /-- The address that tokens are requested from. -/
  tokenUrl : String
  /-- The address that ends a session. -/
  logoutUrl : String
  username : String
  password : String
  /-- The token that gets new tokens without the password. -/
  refreshToken : Option String := none
  deriving DecidableEq

namespace Login

/-- The realm of the servers. -/
def defaultRealm : String := "cortex"

/-- The name under which a client presents itself. -/
def clientId : String := "iqm_client"

/-- The login to a realm of a server. -/
def new (serverUrl realm username password : String) : Login :=
  let base := Text.dropTrailing '/' serverUrl ++ s!"/realms/{realm}/protocol/openid-connect"
  ⟨base ++ "/token", base ++ "/logout", username, password, none⟩

/-- A description that shows no secrets. -/
def describe (l : Login) : String :=
  "TokenClient \x7b token_url: " ++ Text.quoted l.tokenUrl ++
    ", logout_url: " ++ Text.quoted l.logoutUrl ++
    ", username: " ++ Text.quoted l.username ++
    ", password: " ++ AuthParameters.redacted ++ " \x7d"

end Login

/-- What was asked of a source of tokens. -/
inductive ProviderCall where
  | token
  | close
  deriving DecidableEq

/-- A source whose answers are laid down in advance. -/
structure ProviderScript where
  /-- The answers to requests for a token. -/
  tokens : List (Except ClientError String)
  /-- The answers to attempts to close the source; all later ones succeed. -/
  closings : List (Except ClientError Unit)

/-- A source of access tokens. -/
inductive TokenProvider where
  /-- A fixed token; none after an attempt to close. -/
  | external (token : Option String)
  /-- A file with tokens; none after an attempt to close. -/
  | file (path : Option String)
  | login (l : Login)
  | scripted (s : ProviderScript)

/-- The source that parameters describe; there is none if no parameter is given. -/
def TokenProvider.ofParameters (p : AuthParameters) :
    Except ClientError (Option TokenProvider) :=
  match p.given with
  | [] => .ok none
  | [.token] => .ok (some (.external p.token))
  | [.tokensFile] => .ok (some (.file p.tokensFile))
  | [.authServerUrl, .username, .password] =>
    .ok (some (.login (.new (p.authServerUrl.getD "") Login.defaultRealm (p.username.getD "")
      (p.password.getD ""))))
  | given => .error (AuthParameters.invalidCombination given)

/-- The source of a client with the given parameters in the given environment. -/
def TokenProvider.find (own : AuthParameters) (env : Environment) :
    Except ClientError (Option TokenProvider) := do
  let chosen ← AuthParameters.choose own (.ofEnvironment env)
  ofParameters chosen

end StarQpu
