import StarQpu.Text.Percent

/-!
# StarQpu.Http.Address

**From an address to a path on a server.** An address names a server (by scheme and host), a path
on it, possibly a query, and possibly a fragment, which is not sent. Steps up and empty steps in the
path are resolved, and characters that have no place in it are percent-encoded.
-/

namespace StarQpu.Http

/-- An address, taken apart. -/
structure Address where
  /-- Scheme and host, in lower case. -/
  origin : List Char
  path : List Char
  query : Option (List Char)

/-- The characters that count: no blanks or control characters at the ends, no line ends or tabs. -/
def significant (cs : List Char) : List Char :=
  let outer (c : Char) : Bool := c.toNat ≤ 0x20
  ((cs.dropWhile outer).reverse.dropWhile outer).reverse.filter fun c =>
    c ≠ '\n' && c ≠ '\r' && c ≠ '\t'

/-- Does the character separate the steps of a path? -/
def isSlash (c : Char) : Bool := c = '/' || c = '\\'

/-- The address of a text: the parts behind `http:` or `https:` and any number of slashes. -/
def Address.ofText? (s : String) : Option Address :=
  let (scheme, rest) := (significant s.toList).span (· ≠ ':')
  let scheme := scheme.map Char.toLower
  match rest with
  | [] => none
  | _ :: rest =>
    if scheme = "http".toList || scheme = "https".toList then
      let (host, rest) :=
        (rest.dropWhile isSlash).span fun c => !isSlash c && c ≠ '?' && c ≠ '#'
      let shown := rest.takeWhile (· ≠ '#')
      let (path, query) := shown.span (· ≠ '?')
      some ⟨scheme ++ "://".toList ++ host.map Char.toLower, path,
        match query with
        | [] => none
        | _ :: q => some q⟩
    else none

/-- The steps of a path behind its first slash. -/
def steps : List Char → List (List Char)
  | [] => [[]]
  | c :: rest =>
    if isSlash c then [] :: steps rest
    else
      match steps rest with
      | [] => [[c]]
      | step :: more => (c :: step) :: more

/-- Is the step a number of dots, each possibly encoded? -/
def isDots : Nat → List Char → Bool
  | 0, [] => true
  | n + 1, '.' :: rest => isDots n rest
  | n + 1, '%' :: '2' :: e :: rest => (e = 'e' || e = 'E') && isDots n rest
  | _, _ => false

/-- Is the step a letter with a colon or a bar, as disks are named? -/
def isDrive : List Char → Bool
  | [letter, mark] => letter.isAlpha && (mark = ':' || mark = '|')
  | _ => false

/-- One step up, the last step standing first. There is no way up from a drive. -/
def stepUp : List (List Char) → List (List Char)
  | [] => []
  | step :: above => if isDrive step then step :: above else above

/-- The steps that remain, the last one first: one dot stays, two dots go up. -/
def resolve : List (List Char) → List (List Char) → List (List Char)
  | above, [] => above
  | above, [last] =>
    if isDots 2 last then [] :: stepUp above
    else if isDots 1 last then [] :: above
    else last :: above
  | above, step :: rest =>
    if isDots 2 step then resolve (stepUp above) rest
    else if isDots 1 step then resolve above rest
    else resolve (step :: above) rest

/-- The path as it is sent. -/
def Address.sentPath (a : Address) : List Char :=
  let remaining := (resolve [] (steps (a.path.drop 1))).reverse
  remaining.flatMap fun step => '/' :: step.flatMap Text.pathChar

/-- Path and query as they are sent. -/
def Address.target (a : Address) : String :=
  String.ofList (a.sentPath ++
    match a.query with
    | some q => '?' :: q.flatMap Text.queryChar
    | none => [])

/-- The path, with the query, of an address on the server with the given origin. -/
def pathOn? (origin url : String) : Option String :=
  match Address.ofText? url with
  | none => none
  | some a => if String.ofList a.origin = origin then some a.target else none

end StarQpu.Http
