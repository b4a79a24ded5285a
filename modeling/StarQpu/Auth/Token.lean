import StarQpu.Json.Reader
import StarQpu.Text.Base64

/-!
# StarQpu.Auth.Token

**How long a token is still good for.** A token is three parts with dots between them; the middle
one is an object in base 64 whose field `exp` is the second, counted since 1970, at which the token
expires. Whatever does not have this form counts as expired, and an object without that field
expired in 1970.
-/

namespace StarQpu.Token

/-- The texts before the first dot, between the first and the second one and behind that. -/
def parts? (cs : List Char) : Option (List Char × List Char × List Char) :=
  match cs.span (· ≠ '.') with
  | (_, []) => none
  | (header, _ :: rest) =>
    match rest.span (· ≠ '.') with
    | (_, []) => none
    | (body, _ :: signature) => some (header, body, signature)

/-- The text behind a part in base 64, in either alphabet and with or without filling. -/
def unpack? (part : String) : Option String :=
  let filled := Base64.fill part
  let bytes? := match Base64.decode .standard filled with
    | some bytes => some bytes
    | none => Base64.decode .urlSafe filled
  match bytes? with
  | some bytes => String.fromUTF8? ⟨bytes.toArray⟩
  | none => none

/-- The integer nearest to `n` that fits in 64 bits with a sign. -/
def saturate (n : Int) : Int := max (-twoTo 63) (min n (twoTo 63 - 1))

/-- The second that a value for `exp` stands for. Numbers are cut to 64-bit integers. -/
def expiryOf? : Json → Option Int
  | .num (.int n) => some (saturate n)
  | .num (.float x) => some (saturate x.truncate)
  | .str s => int64OfText? (Text.trim s)
  | _ => none

/-- The second at which the claims of a token say that it expires. -/
def expiryOfClaims? (claims : Json) : Option Int :=
  match claims.field? "exp" with
  | none => some 0
  | some value => expiryOf? value

/-- The second at which the token expires, if it is one. -/
def expiry? (token : String) : Option Int :=
  match parts? token.toList with
  | none => none
  | some (_, body, _) =>
    match unpack? (String.ofList body) with
    | none => none
    | some text =>
      match Json.read text with
      | .ok claims => expiryOfClaims? claims
      | .error _ => none

/-- The integer of 64 bits with a sign that stands for `n` in arithmetic without a check for
overflow: `n` itself if it fits, and else the one that differs from it by a multiple of `2 ^ 64`. -/
def wrapAround (n : Int) : Int := n.bmod (twoTo 64)

/-- The seconds that the token is still good for. They are counted with 64 bits, so an expiry too
far back for that counts as one far ahead. -/
def secondsLeft (now : Int) (token : String) : Int :=
  match expiry? token with
  | some expiry => max (wrapAround (expiry - now)) 0
  | none => 0

/-- Is the token good for at least a moment? -/
def isLive (now : Int) (token : String) : Bool := 0 < secondsLeft now token

end StarQpu.Token
