import StarQpu.Http.Network

/-!
# StarQpu.Proofs.Http.Exchange

**What is said between a client and its server.** The server answers the requests that reach it in
order, so the requests that reached it while its answers were a given list tell which answer went to
which of them (`exchanges`). A request either reaches the server and takes one answer, or nothing
happens at all.
-/

namespace StarQpu.Http

/-- The reply that a client gets from an answer, if it gets one. -/
def Answer.reply? : Answer → Option Reply
  | .reply r => if r.isFinal then some r else none
  | .drop => none

/-- The reply to the next request, when these are the answers left. -/
def nextReply? : List Answer → Option Reply
  | [] => some exhausted
  | answer :: _ => answer.reply?

/-- A request that has reached the server, and the reply that the client got, if it got one. -/
structure Exchange where
  request : SentRequest
  reply : Option Reply
  deriving DecidableEq

/-- The exchanges that these requests make with these answers. -/
def exchanges : List Answer → List SentRequest → List Exchange
  | _, [] => []
  | script, r :: later => ⟨r, nextReply? script⟩ :: exchanges script.tail later

@[simp] theorem exchanges_nil (script : List Answer) : exchanges script [] = [] := rfl

@[simp] theorem exchanges_cons (script : List Answer) (r : SentRequest) (later : List SentRequest) :
    exchanges script (r :: later) = ⟨r, nextReply? script⟩ :: exchanges script.tail later := rfl

theorem exchanges_append (script : List Answer) (rs later : List SentRequest) :
    exchanges script (rs ++ later) =
      exchanges script rs ++ exchanges (script.drop rs.length) later := by
  induction rs generalizing script with
  | nil => rfl
  | cons r rs ih => simp [ih]

theorem map_request_exchanges (script : List Answer) (rs : List SentRequest) :
    (exchanges script rs).map (·.request) = rs := by
  induction rs generalizing script with
  | nil => rfl
  | cons r rs ih => simp [ih]

theorem request_mem_of_mem_exchanges {script : List Answer} {rs : List SentRequest} {e : Exchange}
    (h : e ∈ exchanges script rs) : e.request ∈ rs := by
  rw [← map_request_exchanges script rs]
  exact List.mem_map_of_mem h

namespace Network

variable {n : Network} {r : Request} {path : String}

/-- The network when these requests have reached the server as well. -/
def sending (n : Network) (rs : List SentRequest) : Network :=
  { n with script := n.script.drop rs.length, sent := n.sent ++ rs }

@[simp] theorem sending_nil (n : Network) : n.sending [] = n := by
  simp [sending]

theorem sending_append (n : Network) (rs later : List SentRequest) :
    n.sending (rs ++ later) = (n.sending rs).sending later := by
  simp [sending]

/-- Can the request reach the server? -/
def Delivers (n : Network) (r : Request) (path : String) : Prop :=
  r.isSendable = true ∧ pathOn? n.origin r.url = some path

/-- Only the address of the server matters for that. -/
theorem Delivers.of_origin_eq {n' : Network} (h : n.Delivers r path)
    (horigin : n'.origin = n.origin) : n'.Delivers r path := by
  refine ⟨h.1, ?_⟩
  rw [horigin]
  exact h.2

theorem Delivers.sending (h : n.Delivers r path) (rs : List SentRequest) :
    (n.sending rs).Delivers r path := h.of_origin_eq rfl

/-- A request that reaches the server takes its next answer. -/
theorem Delivers.exchange (h : n.Delivers r path) :
    n.exchange r = (nextReply? n.script, n.sending [r.sentTo path]) := by
  unfold Network.exchange
  rw [h.2]
  dsimp only
  rw [if_pos h.1]
  unfold Network.sending
  cases n.script with
  | nil => rfl
  | cons answer script => cases answer <;> rfl

/-- Nothing happens if a request cannot reach the server. -/
theorem exchange_of_not_delivers (h : ∀ path, ¬ n.Delivers r path) : n.exchange r = (none, n) := by
  unfold Network.exchange
  cases hpath : pathOn? n.origin r.url with
  | none => rfl
  | some path => exact if_neg fun hsend => h path ⟨hsend, hpath⟩

end Network

end StarQpu.Http
