import StarQpu.Auth.Manager
import StarQpu.Proofs.Client.Turns

/-!
# StarQpu.Proofs.Auth.Posting

**What getting a token does to a session.** A source of tokens is asked by the client itself, reads
a file or posts forms to a server. So whatever the source and whatever it answers, the requests that
it makes are all posts, and the architectures that the client remembers stay (`keeps_bearer`).
-/

namespace StarQpu

open Http (SentRequest)

/-- Did nothing but posts happen between two sessions, and do they remember the same
architectures? -/
def Session.Posted (s t : Session) : Prop :=
  t.architectures = s.architectures ∧
    ∃ rs : List SentRequest, t.network = s.network.sending rs ∧ ∀ r ∈ rs, r.method = .post

variable {s : Session}

theorem Session.posted_refl (s : Session) : s.Posted s :=
  ⟨rfl, [], (Http.Network.sending_nil s.network).symm, by simp⟩

theorem Session.Posted.trans {t u : Session} (h : s.Posted t) (h' : t.Posted u) : s.Posted u := by
  obtain ⟨harchitectures, rs, hnetwork, hrs⟩ := h
  obtain ⟨harchitectures', rs', hnetwork', hrs'⟩ := h'
  refine ⟨harchitectures'.trans harchitectures, rs ++ rs', ?_, ?_⟩
  · rw [Http.Network.sending_append, ← hnetwork, hnetwork']
  · intro r hr
    exact (List.mem_append.1 hr).elim (hrs r) (hrs' r)

theorem Session.Posted.sending {t : Session} {r : SentRequest} (h : s.Posted t)
    (hr : r.method = .post) : s.Posted (t.sending [r]) :=
  h.trans ⟨rfl, [r], rfl, by simpa using hr⟩

namespace Interaction

theorem keeps_exchange {r : Http.Request} (hr : r.method = .post) :
    Keeps s.Posted (exchange r) := by
  intro t log ht
  by_cases hdelivers : ∃ path, t.network.Delivers r path
  · obtain ⟨path, hpath⟩ := hdelivers
    exact ⟨_, ⟨t.sending [r.sentTo path], log⟩, ht.sending hr, exchange_of_delivers hpath log⟩
  · exact ⟨.error .network, ⟨t, log⟩, ht, exchange_of_not_delivers (not_exists.1 hdelivers) log⟩

/-! ### A login -/

theorem keeps_request (l : Login) (g : Login.Grant) : Keeps s.Posted (l.request g) := by
  refine (keeps_tellAll _).bind fun _ => (keeps_exchange rfl).bind fun reply => ?_
  split
  · exact (keeps_tellAll _).bind fun _ => keeps_pure none
  · split
    · exact keeps_throw .network
    · refine keeps_of_state fun _ _ => ?_
      exact keeps_of_update (fun _ ht => ht) (keeps_pure _)

theorem keeps_refresh (l : Login) : Keeps s.Posted l.refresh := by
  refine keeps_of_state fun t _ => ?_
  cases l.refreshToken with
  | none => exact keeps_pure none
  | some token =>
      dsimp only
      split
      · exact keeps_request l (.refreshToken token)
      · exact keeps_pure none

theorem keeps_login (l : Login) : Keeps s.Posted l.token := by
  refine (keeps_refresh l).bind fun refreshed => ?_
  cases refreshed with
  | some token => exact keeps_pure token
  | none =>
      refine (keeps_request l .password).bind fun issued => ?_
      cases issued with
      | none => exact (keeps_tellAll _).bind fun _ => keeps_throw _
      | some token => exact keeps_pure token

/-! ### Any source of tokens -/

theorem keeps_tokenOfFile (path : String) : Keeps s.Posted (tokenOfFile path) := by
  refine keeps_of_state fun t _ => ?_
  cases t.files.get? (Text.plainPath path) with
  | none => exact keeps_throw _
  | some text =>
      dsimp only
      cases tokensFileDecoder.ofText text with
      | error e => exact keeps_throw _
      | ok known =>
          dsimp only
          cases known.filter (Token.isLive t.now) with
          | none => exact keeps_throw _
          | some token => exact keeps_pure token

theorem keeps_script (p : ProviderScript) : Keeps s.Posted p.token := by
  refine keeps_of_update (fun _ ht => ht) ?_
  cases p.tokens with
  | nil => exact keeps_throw _
  | cons answer later => exact keeps_ofExcept answer

theorem keeps_answer (p : TokenProvider) : Keeps s.Posted p.answer := by
  cases p with
  | external known =>
      cases known with
      | none => exact keeps_throw _
      | some token => exact keeps_pure token
  | file path =>
      cases path with
      | none => exact keeps_throw _
      | some path => exact keeps_tokenOfFile path
  | login l => exact keeps_login l
  | scripted p => exact keeps_script p

theorem keeps_ask : Keeps s.Posted TokenManager.ask := by
  refine keeps_of_state fun t _ => ?_
  cases t.provider with
  | none => exact keeps_throw _
  | some p =>
      have htoken : Keeps s.Posted p.token := keeps_of_update (fun _ ht => ht) (keeps_answer p)
      exact htoken.bind fun token => keeps_of_update (fun _ ht => ht) (keeps_pure token)

theorem keeps_fetch (retries : Nat) : Keeps s.Posted (TokenManager.fetch retries) := by
  induction retries with
  | zero => exact keeps_ask
  | succ retries ih =>
      refine keeps_ask.tryCatch fun e => ?_
      split
      · exact (keeps_tellAll _).bind fun _ => ih
      · exact keeps_throw e

/-- Whatever the source of tokens is, the client only posts for its authorization. -/
theorem keeps_bearer (retries : Nat) : Keeps s.Posted (TokenManager.bearer retries) := by
  refine keeps_of_state fun t _ => ?_
  split
  · exact keeps_pure none
  · split
    · exact keeps_pure _
    · exact (keeps_fetch retries).bind fun token => keeps_pure _

end Interaction

end StarQpu
