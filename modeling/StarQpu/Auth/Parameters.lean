import StarQpu.Client.Config

/-!
# StarQpu.Auth.Parameters

**Where a client gets its tokens from.** The parameters of authentication are given to the client or
stand in environment variables, never both. There are three ways to get tokens (a fixed token, a
file with tokens, logging in to a server), each with parameters of its own; any other combination is
refused. A parameter that is empty counts as not given.
-/

namespace StarQpu

/-- The parameters of authentication. -/
structure AuthParameters where
  token : Option String := none
  /-- The path of a file with tokens. -/
  tokensFile : Option String := none
  /-- The address of a server to log in to. -/
  authServerUrl : Option String := none
  username : Option String := none
  password : Option String := none
  deriving DecidableEq

/-- A parameter of authentication. -/
inductive AuthParameter where
  | token
  | tokensFile
  | authServerUrl
  | username
  | password
  deriving DecidableEq

namespace AuthParameter

/-- All parameters, in the order in which messages list them. -/
def all : List AuthParameter := [.token, .tokensFile, .authServerUrl, .username, .password]

/-- The name of the parameter. -/
def name : AuthParameter → String
  | .token => "token"
  | .tokensFile => "tokens_file"
  | .authServerUrl => "auth_server_url"
  | .username => "username"
  | .password => "password"

/-- The environment variable of the parameter. -/
def variableName : AuthParameter → String
  | .token => "IQM_TOKEN"
  | .tokensFile => "IQM_TOKENS_FILE"
  | .authServerUrl => "IQM_AUTH_SERVER"
  | .username => "IQM_AUTH_USERNAME"
  | .password => "IQM_AUTH_PASSWORD"

end AuthParameter

namespace AuthParameters

/-- The value of a parameter. -/
def get (p : AuthParameters) : AuthParameter → Option String
  | .token => p.token
  | .tokensFile => p.tokensFile
  | .authServerUrl => p.authServerUrl
  | .username => p.username
  | .password => p.password

/-- Is there a value that is not empty? -/
def isGiven (p : AuthParameters) (a : AuthParameter) : Bool := (p.get a).any (· ≠ "")

/-- The parameters that are given. -/
def given (p : AuthParameters) : List AuthParameter := AuthParameter.all.filter p.isGiven

/-- Is no parameter given? -/
def isEmpty (p : AuthParameters) : Bool := p.given.isEmpty

/-- The parameters that stand in environment variables. -/
def ofEnvironment (env : Environment) : AuthParameters :=
  let value (a : AuthParameter) : Option String := (env a.variableName).filter (· ≠ "")
  ⟨value .token, value .tokensFile, value .authServerUrl, value .username, value .password⟩

/-- A value, if there is one, the way descriptions show it. -/
def describeValue (quote : String → String) : Option String → String
  | none => "None"
  | some v => s!"Some({quote v})"

/-- What stands in place of a secret. -/
def redacted : String := Text.quoted "[REDACTED]"

/-- A description that shows no secrets. -/
def describe (p : AuthParameters) : String :=
  let secret := describeValue fun _ => redacted
  let plain := describeValue Text.quoted
  "AuthParameters \x7b token: " ++ secret p.token ++
    ", tokens_file: " ++ plain p.tokensFile ++
    ", auth_server_url: " ++ plain p.authServerUrl ++
    ", username: " ++ plain p.username ++
    ", password: " ++ secret p.password ++ " \x7d"

/-- Parameters are given in both ways. -/
def mixedSources (given inEnvironment : List AuthParameter) : ClientError :=
  let quotedNames (names : List String) : String :=
    Text.commaSeparated (names.map fun n => s!"\"{n}\"")
  .configuration ("Authentication parameters given both as initialisation args and as " ++
    "environment variables: initialisation args " ++ quotedNames (given.map (·.name)) ++
    ", environment variables " ++ quotedNames (inEnvironment.map (·.variableName)) ++
    ". Parameter sources must not be mixed.")

/-- The given parameters belong to no way of getting tokens. -/
def invalidCombination (given : List AuthParameter) : ClientError :=
  .configuration ("Invalid combination of authentication parameters specified: " ++
    Text.quotedList (given.map (·.name)))

/-- The parameters that count: those given to the client or those of the environment. -/
def choose (own inEnvironment : AuthParameters) : Except ClientError AuthParameters :=
  if !own.isEmpty && !inEnvironment.isEmpty then
    .error (mixedSources own.given inEnvironment.given)
  else .ok (if inEnvironment.isEmpty then own else inEnvironment)

end AuthParameters

end StarQpu
