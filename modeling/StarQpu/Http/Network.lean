import StarQpu.Http.Address
import StarQpu.Http.Message

/-!
# StarQpu.Http.Network

**The one server that a client can reach.** What the server answers is laid down in advance, one
answer for each request in order; a server without answers left says so. The network keeps every
request that reached the server.
-/

namespace StarQpu.Http

/-- What a server does with a request. -/
inductive Answer where
  | reply (r : Reply)
  /-- It closes the connection without a word. -/
  | drop
  deriving DecidableEq

/-- A server and the requests it has seen. -/
structure Network where
  /-- Scheme and host of the server. -/
  origin : String
  /-- The answers to the requests to come. -/
  script : List Answer
  /-- The requests so far. -/
  sent : List SentRequest := []

/-- The reply of a server that has no answers left. -/
def exhausted : Reply := ⟨599, "script exhausted"⟩

/-- Sends a request: the reply, if there is one that is final, and the network after it. A request
to another server, or one that cannot be sent, leaves no trace. -/
def Network.exchange (n : Network) (r : Request) : Option Reply × Network :=
  match pathOn? n.origin r.url with
  | none => (none, n)
  | some path =>
    if r.isSendable then
      let sent := n.sent ++ [r.sentTo path]
      match n.script with
      | [] => (some exhausted, { n with sent })
      | .drop :: script => (none, { n with script, sent })
      | .reply reply :: script =>
        (if reply.isFinal then some reply else none, { n with script, sent })
    else (none, n)

end StarQpu.Http
