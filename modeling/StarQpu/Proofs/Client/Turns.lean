import StarQpu.Proofs.Client.Runs
import StarQpu.Proofs.Http.Exchange

/-!
# StarQpu.Proofs.Client.Turns

**What a client says to its server in a turn.** A request that reaches the server takes its next
answer, so the sessions around a turn tell what was said in between (`Turn.exchanges`).
-/

namespace StarQpu

open Http (Exchange SentRequest)

namespace Session

/-- The session when these requests have reached the server as well. -/
def sending (s : Session) (rs : List SentRequest) : Session :=
  { s with network := s.network.sending rs }

@[simp] theorem sending_nil (s : Session) : s.sending [] = s := by
  simp [sending]

theorem sending_append (s : Session) (rs later : List SentRequest) :
    s.sending (rs ++ later) = (s.sending rs).sending later := by
  simp [sending, Http.Network.sending_append]

end Session

theorem exchange_apply (s : Session) (r : Http.Request) (log : List Event) :
    exchange r ⟨s, log⟩ =
      match (s.network.exchange r).1 with
      | some reply => .ok reply ⟨{ s with network := (s.network.exchange r).2 }, log⟩
      | none => .error .network ⟨{ s with network := (s.network.exchange r).2 }, log⟩ := by
  change (match (s.network.exchange r).1 with
    | some reply => pure reply
    | none => throw .network : Interaction Session Http.Reply)
      ⟨{ s with network := (s.network.exchange r).2 }, log⟩ = _
  cases (s.network.exchange r).1 <;> rfl

variable {s : Session} {r : Http.Request} {path : String} {reply : Http.Reply}

/-- The reply to a request as the result of asking for it. -/
def received : Option Http.Reply → Except ClientError Http.Reply
  | some reply => .ok reply
  | none => .error .network

theorem received_eq_ok_iff {answer : Option Http.Reply} :
    received answer = .ok reply ↔ answer = some reply := by
  cases answer <;> simp [received]

/-- A request that reaches the server takes its next answer. -/
theorem exchange_of_delivers (h : s.network.Delivers r path) (log : List Event) :
    exchange r ⟨s, log⟩ =
      Interaction.ofExcept (received (Http.nextReply? s.network.script))
        ⟨s.sending [r.sentTo path], log⟩ := by
  rw [exchange_apply, h.exchange]
  dsimp only
  cases Http.nextReply? s.network.script <;> rfl

theorem exchange_of_reply (h : s.network.Delivers r path)
    (hreply : Http.nextReply? s.network.script = some reply) (log : List Event) :
    exchange r ⟨s, log⟩ = .ok reply ⟨s.sending [r.sentTo path], log⟩ := by
  rw [exchange_of_delivers h, hreply]
  rfl

theorem exchange_of_no_reply (h : s.network.Delivers r path)
    (hreply : Http.nextReply? s.network.script = none) (log : List Event) :
    exchange r ⟨s, log⟩ = .error .network ⟨s.sending [r.sentTo path], log⟩ := by
  rw [exchange_of_delivers h, hreply]
  rfl

/-- A request that cannot reach the server fails and changes nothing. -/
theorem exchange_of_not_delivers (h : ∀ path, ¬ s.network.Delivers r path) (log : List Event) :
    exchange r ⟨s, log⟩ = .error .network ⟨s, log⟩ := by
  rw [exchange_apply, Http.Network.exchange_of_not_delivers h]

namespace Session.Turn

variable {ρ α : Type} (t : Turn ρ α)

/-- What was said to the server in this turn. -/
def exchanges : List Exchange :=
  Http.exchanges t.before.network.script
    (t.after.network.sent.drop t.before.network.sent.length)

/-- The requests that reached the server in this turn. -/
def requests : List SentRequest := t.exchanges.map (·.request)

variable {t}

theorem exchanges_of_sending {rs : List SentRequest}
    (h : t.after.network = t.before.network.sending rs) :
    t.exchanges = Http.exchanges t.before.network.script rs := by
  simp [exchanges, h, Http.Network.sending]

theorem exchanges_of_same (h : t.after.network = t.before.network) : t.exchanges = [] := by
  rw [exchanges_of_sending (h.trans (Http.Network.sending_nil _).symm), Http.exchanges_nil]

theorem requests_of_sending {rs : List SentRequest}
    (h : t.after.network = t.before.network.sending rs) : t.requests = rs := by
  rw [requests, exchanges_of_sending h, Http.map_request_exchanges]

end Session.Turn

end StarQpu
