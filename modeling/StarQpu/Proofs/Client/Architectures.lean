import StarQpu.Proofs.Auth.Posting
import StarQpu.Proofs.Client.Repetition

/-!
# StarQpu.Proofs.Client.Architectures

**What a client remembers of architectures over a whole run.** Architectures are asked for directly
and on the way of circuits to the server. Gets are made for nothing else, so what the server has
delivered so far can be read off the gets of a run (`delivered`), and that is what the client
remembers, each architecture filed under the calibration set that it names itself. A request for a
calibration set is answered by the last delivery for it; all other requests go to the server, if the
client is authorized and can send them at all (`Reaches`).
-/

namespace StarQpu

open Http (Exchange SentRequest exchanges nextReply? rejections)

/-! ### Gets and what they deliver -/

/-- The architecture in a reply, if it is one of success with an architecture. -/
def architectureOf? (reply : Http.Reply) : Option DynamicArchitecture :=
  if reply.isSuccess then (DynamicArchitecture.decoder.ofText reply.text).toOption else none

/-- The architecture that an exchange delivers, if it does. -/
def Http.Exchange.architecture? (e : Exchange) : Option DynamicArchitecture :=
  e.reply.bind architectureOf?

namespace Session.Turn

variable {ρ α : Type} (t : Turn ρ α)

/-- The gets in this turn. -/
def gets : List Exchange := t.exchanges.filter (·.request.method = .get)

/-- The architectures that the server has delivered in this turn. -/
def delivered : List DynamicArchitecture := t.gets.filterMap (·.architecture?)

end Session.Turn

/-- The architectures of these deliveries as a client remembers them. -/
def filed (deliveries : List DynamicArchitecture) : List (Uuid × DynamicArchitecture) :=
  deliveries.reverse.map fun a => (a.calibrationSetId, a)

theorem lookup_filed (deliveries : List DynamicArchitecture) (id : Uuid) :
    (filed deliveries).lookup id = deliveries.reverse.find? (·.calibrationSetId = id) := by
  unfold filed
  induction deliveries.reverse with
  | nil => rfl
  | cons a rest ih =>
      rw [List.map_cons, List.lookup_cons, List.find?_cons, ih]
      by_cases h : a.calibrationSetId = id
      · simp [h]
      · have hid : (id == a.calibrationSetId) = false := beq_eq_false_iff_ne.2 (Ne.symm h)
        simp [h, hid]

theorem toOption_readReply (reply : Http.Reply) :
    (ApiClient.readReply DynamicArchitecture.decoder reply).toOption = architectureOf? reply := by
  unfold ApiClient.readReply architectureOf?
  by_cases hstatus : reply.status = 401
  · simp [hstatus, Http.Reply.isSuccess, Except.toOption]
  · rw [if_neg hstatus]
    cases reply.isSuccess with
    | false => rfl
    | true => cases DynamicArchitecture.decoder.ofText reply.text <;> rfl

theorem architecture?_of_isRejected {e : Exchange} (h : e.IsRejected) : e.architecture? = none := by
  obtain ⟨reply, hreply, hstatus⟩ := h
  simp [Exchange.architecture?, hreply, architectureOf?, Http.Reply.isSuccess, hstatus]

theorem filter_get_of_posts {script : List Http.Answer} {rs : List SentRequest}
    (h : ∀ r ∈ rs, r.method = .post) :
    (exchanges script rs).filter (·.request.method = .get) = [] := by
  rw [List.filter_eq_nil_iff]
  intro e he
  simp [h _ (Http.request_mem_of_mem_exchanges he)]

theorem filter_get_of_gets {script : List Http.Answer} {r : SentRequest} (h : r.method = .get)
    (n : Nat) : (exchanges script (List.replicate n r)).filter (·.request.method = .get) =
      exchanges script (List.replicate n r) := by
  rw [List.filter_eq_self]
  intro e he
  simp [List.eq_of_mem_replicate (Http.request_mem_of_mem_exchanges he), h]

/-- A repeated request delivers what its last answer does. -/
theorem filterMap_architecture? (script : List Http.Answer) (r : SentRequest) :
    (exchanges script (List.replicate (rejections script + 1) r)).filterMap (·.architecture?) =
      ((nextReply? (script.drop (rejections script))).bind architectureOf?).toList := by
  obtain ⟨rejected, hes, hrejected⟩ := Http.exchanges_replicate script r
  have hnone : rejected.filterMap (·.architecture?) = [] := by
    rw [List.filterMap_eq_nil_iff]
    exact fun e he => architecture?_of_isRejected (hrejected e he).2
  rw [hes, List.filterMap_append, hnone, List.nil_append]
  unfold Exchange.architecture?
  cases h : (nextReply? (script.drop (rejections script))).bind architectureOf? <;> simp [h]

namespace ApiClient

variable {c : ApiClient} {s : Session} {id : Option Uuid}

/-! ### One fetch -/

/-- Does the client get its authorization, and can it send the request for an architecture to the
server? -/
def Reaches (c : ApiClient) (s : Session) (id : Option Uuid) (path : String) : Prop :=
  ∃ authorization, ((TokenManager.bearer 1).run s).1.result = .ok authorization ∧
    s.network.Delivers (c.request .get (gatesPath id) none authorization) path

/-- What a request for an architecture can do: nothing but posts, or posts and then a get until the
answer is not 502. -/
inductive Asked (c : ApiClient) (s : Session) (id : Option Uuid) :
    Except ClientError Http.Reply → Session → Prop where
  | unsent {e : ClientError} {t : Session} (hunsent : ∀ path, ¬ c.Reaches s id path)
      (hposted : s.Posted t) : Asked c s id (.error e) t
  | sent {t : Session} {path : String} {posts : List SentRequest} {r : SentRequest}
      (hreaches : c.Reaches s id path) (hposts : ∀ r ∈ posts, r.method = .post)
      (hget : r.method = .get) (hpath : r.path = path)
      (hnetwork : t.network = s.network.sending
        (posts ++ List.replicate (rejections (s.network.script.drop posts.length) + 1) r))
      (harchitectures : t.architectures = s.architectures) :
      Asked c s id (received (nextReply? ((s.network.script.drop posts.length).drop
        (rejections (s.network.script.drop posts.length))))) t

theorem exists_send (c : ApiClient) (s : Session) (id : Option Uuid) :
    ∃ result t, c.send .get (gatesPath id) none ⟨s, []⟩ = Interaction.ofExcept result t ∧
      Asked c s id result t.state := by
  obtain ⟨bearer, u, hposted, hbearer⟩ := Interaction.keeps_bearer (s := s) 1 s [] s.posted_refl
  have hrun := congrArg (·.1.result) (Interaction.run_of_ofExcept hbearer)
  cases bearer with
  | error e =>
      refine ⟨.error e, u, Interaction.bind_of_error hbearer, .unsent ?_ hposted⟩
      rintro path ⟨authorization, hok, -⟩
      rw [hrun] at hok
      cases hok
  | ok authorization =>
      let r := c.request .get (gatesPath id) none authorization
      have hsend : c.send .get (gatesPath id) none ⟨s, []⟩ =
          c.persist r u.state.network.script.length u :=
        Interaction.bind_of_ok hbearer
      rw [hsend]
      obtain ⟨harchitectures, posts, hnetwork, hposts⟩ := hposted
      have horigin : u.state.network.origin = s.network.origin := congrArg (·.origin) hnetwork
      by_cases hreaches : ∃ path, s.network.Delivers r path
      · obtain ⟨path, hpath⟩ := hreaches
        obtain ⟨log, hpersist⟩ := persist_of_delivers (c := c) (hpath.of_origin_eq horigin)
          (Http.rejections_le_length u.state.network.script) u.log
        have hscript : u.state.network.script = s.network.script.drop posts.length := by
          rw [hnetwork]
          rfl
        refine ⟨_, _, hpersist, ?_⟩
        rw [hscript]
        refine .sent (r := r.sentTo path) ⟨authorization, hrun, hpath⟩ hposts rfl rfl ?_
          harchitectures
        rw [Http.Network.sending_append, ← hnetwork]
        rfl
      · refine ⟨.error .network, _, persist_of_not_delivers ?_ _ u.log, .unsent ?_ ?_⟩
        · exact fun path hpath => hreaches ⟨path, hpath.of_origin_eq horigin.symm⟩
        · rintro path ⟨authorization', hok, hpath⟩
          rw [hrun] at hok
          cases hok
          exact hreaches ⟨path, hpath⟩
        · exact ⟨harchitectures, posts, hnetwork, hposts⟩

/-- What a fetch can do: the same, and to remember the architecture of the last answer, if it has
one. -/
inductive Fetched (c : ApiClient) (s : Session) (id : Option Uuid) :
    Except ClientError DynamicArchitecture → Session → Prop where
  | unsent {e : ClientError} {t : Session} (hunsent : ∀ path, ¬ c.Reaches s id path)
      (hposted : s.Posted t) : Fetched c s id (.error e) t
  | sent {result : Except ClientError DynamicArchitecture} {t : Session} {path : String}
      {posts : List SentRequest} {r : SentRequest} {answer : Option Http.Reply}
      (hreaches : c.Reaches s id path) (hposts : ∀ r ∈ posts, r.method = .post)
      (hget : r.method = .get) (hpath : r.path = path)
      (hnetwork : t.network = s.network.sending
        (posts ++ List.replicate (rejections (s.network.script.drop posts.length) + 1) r))
      (hanswer : answer = nextReply? ((s.network.script.drop posts.length).drop
        (rejections (s.network.script.drop posts.length))))
      (harchitectures :
        t.architectures = filed (answer.bind architectureOf?).toList ++ s.architectures)
      (hresult : result.toOption = answer.bind architectureOf?) : Fetched c s id result t

theorem exists_fetchArchitecture (c : ApiClient) (s : Session) (id : Option Uuid) :
    ∃ result t, c.fetchArchitecture id ⟨s, []⟩ = Interaction.ofExcept result t ∧
      Fetched c s id result t.state := by
  obtain ⟨result, t, hsend, hasked⟩ := exists_send c s id
  generalize ht : t.state = u at hasked
  cases hasked with
  | unsent hunsent hposted =>
      rw [← ht] at hposted
      exact ⟨_, t, Interaction.bind_of_error (Interaction.bind_of_error hsend),
        .unsent hunsent hposted⟩
  | sent hreaches hposts hget hpath hnetwork harchitectures =>
      generalize hanswer : nextReply? _ = answer at hsend
      rw [← ht] at hnetwork harchitectures
      have hfetched {result : Except ClientError DynamicArchitecture} {t' : Session}
          (hnetwork' : t'.network = t.state.network)
          (harchitectures' : t'.architectures =
            filed (answer.bind architectureOf?).toList ++ s.architectures)
          (hresult : result.toOption = answer.bind architectureOf?) : Fetched c s id result t' :=
        .sent hreaches hposts hget hpath (hnetwork'.trans hnetwork) hanswer.symm harchitectures'
          hresult
      cases answer with
      | none =>
          exact ⟨.error .network, t, Interaction.bind_of_error (Interaction.bind_of_error hsend),
            hfetched rfl harchitectures rfl⟩
      | some reply =>
          have hread := toOption_readReply reply
          have hfetch : c.fetch (gatesPath id) DynamicArchitecture.decoder ⟨s, []⟩ =
              Interaction.ofExcept (readReply DynamicArchitecture.decoder reply) t :=
            Interaction.bind_of_ok hsend
          cases hvalue : readReply DynamicArchitecture.decoder reply with
          | error e =>
              rw [hvalue] at hfetch hread
              refine ⟨.error e, t, Interaction.bind_of_error hfetch, hfetched rfl ?_ hread⟩
              rw [Option.bind_some, ← hread]
              exact harchitectures
          | ok a =>
              rw [hvalue] at hfetch hread
              refine ⟨.ok a, _, Interaction.bind_of_ok hfetch, hfetched rfl ?_ hread⟩
              rw [Option.bind_some, ← hread]
              exact congrArg ((a.calibrationSetId, a) :: ·) harchitectures

/-! ### What is asked of a client that needs architectures -/

/-- What is asked of a client: an architecture, or to submit circuits, which are checked against
one. -/
inductive Demand where
  | architecture (id : Option Uuid)
  | circuits (circuits : List Circuit) (o : SubmitOptions)

/-- What a client replies. -/
inductive Supply where
  | architecture (a : DynamicArchitecture)
  | job (id : Uuid)

/-- Does what is asked. -/
def supply (c : ApiClient) : Demand → Interaction Session Supply
  | .architecture id => return .architecture (← c.architecture id)
  | .circuits circuits o => return .job (← c.jobClient.submitCircuits circuits o)

/-- The calibration set whose architecture is needed, or the default one; none is needed for
circuits that the options do not fit. -/
def Demand.wanted? : Demand → Option (Option Uuid)
  | .architecture id => some id
  | .circuits cs o =>
    match o.check cs with
    | .ok () => some o.calibrationSetId
    | .error _ => none

/-- What is done with the architecture that is needed. -/
def proceed (c : ApiClient) (a : DynamicArchitecture) : Demand → Interaction Session Supply
  | .architecture _ => pure (.architecture a)
  | .circuits circuits o => do
    let request ← Interaction.ofLogged (RunRequest.prepare circuits a o)
    return .job (← c.submit request)

theorem supply_of_wanted {d : Demand} (h : d.wanted? = some id) :
    c.supply d = c.architecture id >>= fun a => c.proceed a d := by
  cases d with
  | architecture id' =>
      cases h
      rfl
  | circuits cs o =>
      rw [Demand.wanted?] at h
      cases hcheck : o.check cs with
      | error e => simp [hcheck] at h
      | ok u =>
          simp only [hcheck, Option.some.injEq] at h
          subst h
          have hsubmit : c.jobClient.submitCircuits cs o =
              c.architecture o.calibrationSetId >>= fun a =>
                Interaction.ofLogged (RunRequest.prepare cs a o) >>= c.submit := by
            rw [JobClient.submitCircuits, hcheck]
            rfl
          rw [supply, hsubmit, bind_assoc]
          simp only [proceed, bind_assoc]

theorem supply_of_not_wanted {d : Demand} (h : d.wanted? = none) (t : Traced Session) :
    ∃ e, c.supply d t = Interaction.ofExcept (.error e) t := by
  cases d with
  | architecture id => cases h
  | circuits cs o =>
      rw [Demand.wanted?] at h
      cases hcheck : o.check cs with
      | ok u => simp [hcheck] at h
      | error e =>
          refine ⟨e, Interaction.bind_of_error (Interaction.bind_of_error ?_)⟩
          rw [hcheck]
          rfl

theorem keeps_persist {r : Http.Request} (hr : r.method = .post) (retries : Nat) :
    Interaction.Keeps s.Posted (c.persist r retries) := by
  have hattempt : Interaction.Keeps s.Posted (attempt r) :=
    (Interaction.keeps_tellAll _).bind fun _ => Interaction.keeps_exchange hr
  induction retries with
  | zero => exact hattempt
  | succ retries ih =>
      refine hattempt.bind fun reply => ?_
      split
      · exact (Interaction.keeps_tellAll _).bind fun _ =>
          Interaction.keeps_of_update (fun _ ht => ht) ih
      · exact Interaction.keeps_pure reply

theorem keeps_submit (r : RunRequest) : Interaction.Keeps s.Posted (c.submit r) := by
  have hsend : Interaction.Keeps s.Posted (c.send .post "jobs" (some r.toJson)) :=
    (Interaction.keeps_bearer 1).bind fun _ => Interaction.keeps_of_state fun _ _ =>
      keeps_persist rfl _
  refine hsend.bind fun reply => (Interaction.keeps_ofExcept _).bind fun id => ?_
  cases Uuid.ofText? id with
  | none => exact Interaction.keeps_throw _
  | some job => exact Interaction.keeps_pure job

theorem keeps_proceed (a : DynamicArchitecture) (d : Demand) :
    Interaction.Keeps s.Posted (c.proceed a d) := by
  cases d with
  | architecture id => exact Interaction.keeps_pure _
  | circuits circuits o =>
      exact (Interaction.keeps_ofLogged _).bind fun request =>
        (keeps_submit request).bind fun job => Interaction.keeps_pure _

/-- A demand with what came of it. -/
abbrev SupplyTurn := Session.Turn Demand Supply

/-- What a turn can be. -/
inductive Supplied (c : ApiClient) (t : SupplyTurn) : Prop where
  /-- No architecture is needed. -/
  | idle (hwanted : t.request.wanted? = none) (hposted : t.before.Posted t.after)
  /-- The architecture is remembered. -/
  | remembered {id : Option Uuid} {a : DynamicArchitecture} (hwanted : t.request.wanted? = some id)
      (ha : remembered? t.before id = some a) (hposted : t.before.Posted t.after)
      (hproceed : ∃ log, (c.proceed a t.request).run t.before = (⟨log, t.reply⟩, t.after))
  /-- It cannot be asked for. -/
  | unsent {id : Option Uuid} {e : ClientError} (hwanted : t.request.wanted? = some id)
      (hnew : remembered? t.before id = none) (hunsent : ∀ path, ¬ c.Reaches t.before id path)
      (hposted : t.before.Posted t.after) (hreply : t.reply = .error e)
  /-- The server is asked for it. -/
  | sent {id : Option Uuid} {path : String} {posts later : List SentRequest} {r : SentRequest}
      {answer : Option Http.Reply} (hwanted : t.request.wanted? = some id)
      (hnew : remembered? t.before id = none) (hreaches : c.Reaches t.before id path)
      (hposts : ∀ r ∈ posts, r.method = .post) (hget : r.method = .get) (hpath : r.path = path)
      (hlater : ∀ r ∈ later, r.method = .post)
      (hnetwork : t.after.network = t.before.network.sending
        (posts ++ (List.replicate (rejections (t.before.network.script.drop posts.length) + 1) r ++
          later)))
      (hanswer : answer = nextReply? ((t.before.network.script.drop posts.length).drop
        (rejections (t.before.network.script.drop posts.length))))
      (harchitectures : t.after.architectures =
        filed (answer.bind architectureOf?).toList ++ t.before.architectures)
      (hreply : ∀ id, t.request = .architecture id →
        t.reply.toOption = (answer.bind architectureOf?).map .architecture)

/-- Behind a fetch there are only posts, and a request for the architecture itself replies with
it. -/
theorem exists_supply_of_fetched {d : Demand} {fetched : Except ClientError DynamicArchitecture}
    {t : Traced Session} (hwanted : d.wanted? = some id)
    (h : c.architecture id ⟨s, []⟩ = Interaction.ofExcept fetched t) :
    ∃ result t', c.supply d ⟨s, []⟩ = Interaction.ofExcept result t' ∧ t.state.Posted t'.state ∧
      (∀ e, fetched = .error e → result = .error e) ∧
      ∀ id, d = .architecture id → result.toOption = fetched.toOption.map .architecture := by
  rw [supply_of_wanted hwanted]
  cases fetched with
  | error e =>
      refine ⟨.error e, t, Interaction.bind_of_error h, t.state.posted_refl, ?_, fun _ _ => rfl⟩
      rintro _ ⟨⟩
      rfl
  | ok a =>
      rw [Interaction.bind_of_ok h]
      obtain ⟨result, t', hposted, hresult⟩ :=
        keeps_proceed (c := c) (s := t.state) a d t.state t.log t.state.posted_refl
      refine ⟨result, t', hresult, hposted, nofun, ?_⟩
      rintro id rfl
      cases result with
      | error e => cases hresult
      | ok value =>
          cases hresult
          rfl

theorem supplied_turn (c : ApiClient) (s : Session) (v : Session.Visit Demand) :
    Supplied c (Session.turn c.supply s v) := by
  let now := s.atTime v.time
  cases hwanted : v.request.wanted? with
  | none =>
      obtain ⟨e, he⟩ := supply_of_not_wanted (c := c) hwanted ⟨now, []⟩
      rw [Session.turn_of_ofExcept he]
      exact .idle hwanted now.posted_refl
  | some id =>
      cases ha : remembered? now id with
      | some a =>
          have hproceed : c.supply v.request ⟨now, []⟩ = c.proceed a v.request ⟨now, []⟩ := by
            rw [supply_of_wanted hwanted]
            exact Interaction.bind_of_ok (architecture_of_remembered ha [])
          obtain ⟨result, t, hposted, hresult⟩ :=
            keeps_proceed (c := c) (s := now) a v.request now [] now.posted_refl
          rw [Session.turn_of_ofExcept (hproceed.trans hresult)]
          exact .remembered hwanted ha hposted ⟨t.log, Interaction.run_of_ofExcept hresult⟩
      | none =>
          obtain ⟨fetched, t, hfetch, hfetched⟩ := exists_fetchArchitecture c now id
          rw [← architecture_of_not_remembered ha] at hfetch
          obtain ⟨result, t', hresult, hposted', hfail, hdirect⟩ :=
            exists_supply_of_fetched hwanted hfetch
          rw [Session.turn_of_ofExcept hresult]
          generalize t.state = u at hfetched hposted'
          cases hfetched with
          | unsent hunsent hposted =>
              exact .unsent hwanted ha hunsent (hposted.trans hposted') (hfail _ rfl)
          | sent hreaches hposts hget hpath hnetwork hanswer harchitectures hresult =>
              obtain ⟨harchitectures', later, hnetwork', hlater⟩ := hposted'
              refine .sent hwanted ha hreaches hposts hget hpath hlater ?_ hanswer ?_ ?_
              · rw [hnetwork', hnetwork, ← Http.Network.sending_append, List.append_assoc]
              · exact harchitectures'.trans harchitectures
              · intro id hid
                rw [hdirect id hid, hresult]

/-! ### What the history says -/

/-- The architectures that the server has delivered in these turns. -/
def delivered (past : List SupplyTurn) : List DynamicArchitecture := past.flatMap (·.delivered)

/-- The last architecture that the server has delivered for a calibration set. -/
def latest? (past : List SupplyTurn) (id : Uuid) : Option DynamicArchitecture :=
  (delivered past).reverse.find? (·.calibrationSetId = id)

/-- Does the turn do what the turns before it say? -/
structure Conforms (c : ApiClient) (past : List SupplyTurn) (t : SupplyTurn) : Prop where
  /-- Each architecture that is remembered is filed under the calibration set that it names, -/
  filed : ∀ id a, (id, a) ∈ t.after.architectures → a.calibrationSetId = id
  /-- and what is remembered for a calibration set is the last delivery for it. -/
  remembered : ∀ id, t.after.architectures.lookup id = latest? (past ++ [t]) id
  /-- A request for an architecture that was delivered gets the last one, and nothing else
  happens. -/
  direct : ∀ id a, t.request = .architecture (some id) → latest? past id = some a →
    t.reply = .ok (.architecture a) ∧ t.after = t.before ∧ t.exchanges = []
  /-- Circuits that need such an architecture are checked against it and submitted, without a
  get. -/
  reused : ∀ id a, t.request.wanted? = some (some id) → latest? past id = some a →
    t.gets = [] ∧ ∃ log, (c.proceed a t.request).run t.before = (⟨log, t.reply⟩, t.after)
  /-- A client that is authorized and can send the request makes a get unless the architecture of a
  given calibration set was delivered before. -/
  asked : ∀ id path, t.request.wanted? = some id → c.Reaches t.before id path →
    (t.gets = [] ↔ ∃ set a, id = some set ∧ latest? past set = some a) ∧
      ∀ e ∈ t.gets, e.request.path = path
  /-- The reply to a request that goes to the server is what the server delivers, if it does. -/
  answered : ∀ id, t.request = .architecture id → t.gets ≠ [] →
    t.reply.toOption = t.delivered.head?.map .architecture
  /-- A client that is not authorized, or cannot send the request, makes no get, and fails unless
  the architecture was delivered before. -/
  unsent : ∀ id, t.request.wanted? = some id → (∀ path, ¬ c.Reaches t.before id path) →
    t.gets = [] ∧ ((∀ set, id = some set → latest? past set = none) → ∃ e, t.reply = .error e)
  /-- No get is made for circuits that the options do not fit. -/
  idle : t.request.wanted? = none → t.gets = []
  /-- What is remembered stays as it is when nothing is delivered. -/
  failed : t.delivered = [] → t.after.architectures = t.before.architectures

variable {past : List SupplyTurn} {t : SupplyTurn}

theorem gets_of_posted (h : t.before.Posted t.after) : t.gets = [] := by
  obtain ⟨-, rs, hnetwork, hrs⟩ := h
  rw [Session.Turn.gets, Session.Turn.exchanges_of_sending hnetwork]
  exact filter_get_of_posts hrs

theorem delivered_of_gets_eq_nil (h : t.gets = []) : t.delivered = [] := by
  rw [Session.Turn.delivered, h]
  rfl

theorem gets_of_sent {posts later : List SentRequest} {r : SentRequest} {n : Nat}
    (hposts : ∀ r ∈ posts, r.method = .post) (hget : r.method = .get)
    (hlater : ∀ r ∈ later, r.method = .post)
    (h : t.after.network =
      t.before.network.sending (posts ++ (List.replicate n r ++ later))) :
    t.gets = exchanges (t.before.network.script.drop posts.length) (List.replicate n r) := by
  rw [Session.Turn.gets, Session.Turn.exchanges_of_sending h, Http.exchanges_append,
    Http.exchanges_append, List.filter_append, List.filter_append, filter_get_of_posts hposts,
    filter_get_of_posts hlater, filter_get_of_gets hget, List.nil_append, List.append_nil]

/-- A turn files what the server has delivered in it, and forgets nothing. -/
theorem Supplied.architectures_eq (h : Supplied c t) :
    t.after.architectures = StarQpu.filed t.delivered ++ t.before.architectures := by
  have hposted (hposted : t.before.Posted t.after) :
      t.after.architectures = StarQpu.filed t.delivered ++ t.before.architectures := by
    rw [delivered_of_gets_eq_nil (gets_of_posted hposted)]
    exact hposted.1
  cases h with
  | idle hwanted h => exact hposted h
  | remembered hwanted ha h => exact hposted h
  | unsent hwanted hnew hunsent h => exact hposted h
  | sent hwanted hnew hreaches hposts hget hpath hlater hnetwork hanswer harchitectures =>
      rw [harchitectures, Session.Turn.delivered, gets_of_sent hposts hget hlater hnetwork,
        filterMap_architecture?, hanswer]

theorem filed_append (as bs : List DynamicArchitecture) :
    StarQpu.filed (as ++ bs) = StarQpu.filed bs ++ StarQpu.filed as := by
  simp [StarQpu.filed]

theorem delivered_append (past : List SupplyTurn) (t : SupplyTurn) :
    delivered (past ++ [t]) = delivered past ++ t.delivered := by
  simp [delivered]

theorem remembered?_some (h : t.before.architectures = StarQpu.filed (delivered past)) (id : Uuid) :
    remembered? t.before (some id) = latest? past id := by
  rw [remembered?, Option.bind_some, h, lookup_filed]
  rfl

theorem Reaches.path_eq {path path' : String} (h : c.Reaches s id path)
    (h' : c.Reaches s id path') : path = path' := by
  obtain ⟨authorization, hok, hdelivers⟩ := h
  obtain ⟨authorization', hok', hdelivers'⟩ := h'
  cases hok.symm.trans hok'
  exact Option.some.inj (hdelivers.2.symm.trans hdelivers'.2)

theorem Supplied.remembered_of_latest {a : DynamicArchitecture} {set : Uuid} (h : Supplied c t)
    (hcache : t.before.architectures = StarQpu.filed (delivered past))
    (hwanted : t.request.wanted? = some (some set)) (ha : latest? past set = some a) :
    t.before.Posted t.after ∧
      ∃ log, (c.proceed a t.request).run t.before = (⟨log, t.reply⟩, t.after) := by
  rw [← remembered?_some hcache] at ha
  cases h with
  | idle hnone => simp [hwanted] at hnone
  | remembered hwanted' ha' hposted hproceed =>
      cases hwanted.symm.trans hwanted'
      cases ha.symm.trans ha'
      exact ⟨hposted, hproceed⟩
  | unsent hwanted' hnew =>
      cases hwanted.symm.trans hwanted'
      cases ha.symm.trans hnew
  | sent hwanted' hnew =>
      cases hwanted.symm.trans hwanted'
      cases ha.symm.trans hnew

theorem Supplied.asked {path : String} (h : Supplied c t)
    (hcache : t.before.architectures = StarQpu.filed (delivered past))
    (hwanted : t.request.wanted? = some id) (hreaches : c.Reaches t.before id path) :
    (t.gets = [] ↔ ∃ set a, id = some set ∧ latest? past set = some a) ∧
      ∀ e ∈ t.gets, e.request.path = path := by
  cases h with
  | idle hnone => simp [hwanted] at hnone
  | @remembered id' a hwanted' ha hposted hproceed =>
      cases hwanted.symm.trans hwanted'
      have hgets := gets_of_posted hposted
      rw [hgets]
      refine ⟨iff_of_true rfl ?_, by simp⟩
      cases id with
      | none => cases ha
      | some set => exact ⟨set, a, rfl, (remembered?_some hcache set).symm.trans ha⟩
  | unsent hwanted' hnew hunsent =>
      cases hwanted.symm.trans hwanted'
      exact absurd hreaches (hunsent path)
  | @sent id' path' posts later r answer hwanted' hnew hreaches' hposts hget hpath hlater
      hnetwork =>
      cases hwanted.symm.trans hwanted'
      have hgets := gets_of_sent hposts hget hlater hnetwork
      refine ⟨iff_of_false ?_ ?_, ?_⟩
      · simp [hgets, List.replicate_succ]
      · rintro ⟨set, a, rfl, ha⟩
        rw [← remembered?_some hcache, hnew] at ha
        cases ha
      · intro e he
        rw [hgets] at he
        rw [List.eq_of_mem_replicate (Http.request_mem_of_mem_exchanges he), hpath,
          hreaches.path_eq hreaches']

theorem Supplied.answered (h : Supplied c t) (hrequest : t.request = .architecture id)
    (hgets : t.gets ≠ []) : t.reply.toOption = t.delivered.head?.map .architecture := by
  cases h with
  | idle hwanted hposted => exact absurd (gets_of_posted hposted) hgets
  | remembered hwanted ha hposted => exact absurd (gets_of_posted hposted) hgets
  | unsent hwanted hnew hunsent hposted => exact absurd (gets_of_posted hposted) hgets
  | @sent _ path posts later r answer hwanted hnew hreaches hposts hget hpath hlater hnetwork
      hanswer harchitectures hreply =>
      rw [hreply id hrequest, Session.Turn.delivered, gets_of_sent hposts hget hlater hnetwork,
        filterMap_architecture?, ← hanswer]
      cases answer.bind architectureOf? <;> rfl

theorem Supplied.gets_of_unsent (h : Supplied c t) (hwanted : t.request.wanted? = some id)
    (hunsent : ∀ path, ¬ c.Reaches t.before id path) : t.gets = [] := by
  cases h with
  | idle hwanted hposted => exact gets_of_posted hposted
  | remembered hwanted ha hposted => exact gets_of_posted hposted
  | unsent hwanted hnew hunsent hposted => exact gets_of_posted hposted
  | @sent id' path posts later r answer hwanted' hnew hreaches =>
      cases hwanted.symm.trans hwanted'
      exact absurd hreaches (hunsent path)

theorem Supplied.fails_of_unsent (h : Supplied c t)
    (hcache : t.before.architectures = StarQpu.filed (delivered past))
    (hwanted : t.request.wanted? = some id) (hunsent : ∀ path, ¬ c.Reaches t.before id path)
    (hnew : ∀ set, id = some set → latest? past set = none) : ∃ e, t.reply = .error e := by
  cases h with
  | idle hnone => simp [hwanted] at hnone
  | remembered hwanted' ha =>
      cases hwanted.symm.trans hwanted'
      cases id with
      | none => cases ha
      | some set =>
          rw [remembered?_some hcache, hnew set rfl] at ha
          cases ha
  | unsent hwanted' hnew' hunsent' hposted hreply => exact ⟨_, hreply⟩
  | sent hwanted' hnew' hreaches =>
      cases hwanted.symm.trans hwanted'
      exact absurd hreaches (hunsent _)

theorem Supplied.gets_of_idle (h : Supplied c t) (hwanted : t.request.wanted? = none) :
    t.gets = [] := by
  cases h with
  | idle hwanted hposted => exact gets_of_posted hposted
  | remembered hwanted' => simp [hwanted] at hwanted'
  | unsent hwanted' => simp [hwanted] at hwanted'
  | sent hwanted' => simp [hwanted] at hwanted'

theorem eq_of_mem_filed {deliveries : List DynamicArchitecture} {a : DynamicArchitecture}
    {set : Uuid} (h : (set, a) ∈ StarQpu.filed deliveries) : a.calibrationSetId = set := by
  obtain ⟨b, -, hb⟩ := List.mem_map.1 h
  cases hb
  rfl

/-- A turn does what its history says when the client remembers what was delivered. -/
theorem Supplied.conforms (h : Supplied c t)
    (hcache : t.before.architectures = StarQpu.filed (delivered past)) : Conforms c past t := by
  have hafter : t.after.architectures = StarQpu.filed (delivered (past ++ [t])) := by
    rw [h.architectures_eq, hcache, delivered_append, filed_append]
  refine
    { filed := fun id a ha => eq_of_mem_filed (hafter ▸ ha)
      remembered := fun id => by rw [hafter, lookup_filed, latest?]
      direct := ?_
      reused := ?_
      asked := fun id path hwanted hreaches => h.asked hcache hwanted hreaches
      answered := fun id hrequest hgets => h.answered hrequest hgets
      unsent := fun id hwanted hunsent =>
        ⟨h.gets_of_unsent hwanted hunsent, h.fails_of_unsent hcache hwanted hunsent⟩
      idle := h.gets_of_idle
      failed := fun hnone => by rw [h.architectures_eq, hnone]; rfl }
  · intro id a hrequest ha
    have hwanted : t.request.wanted? = some (some id) := by
      rw [hrequest]
      rfl
    obtain ⟨-, log, hproceed⟩ := h.remembered_of_latest hcache hwanted ha
    have hrun : (c.proceed a t.request).run t.before =
        (⟨[], .ok (.architecture a)⟩, t.before) := by
      rw [hrequest]
      rfl
    obtain ⟨hlogged, hafter⟩ := Prod.mk.inj (hproceed.symm.trans hrun)
    refine ⟨congrArg (·.result) hlogged, hafter, ?_⟩
    exact Session.Turn.exchanges_of_same (congrArg _ hafter)
  · intro id a hwanted ha
    obtain ⟨hposted, hproceed⟩ := h.remembered_of_latest hcache hwanted ha
    exact ⟨gets_of_posted hposted, hproceed⟩

/-- In every run of a client that remembers no architectures yet, whatever its source of tokens is
and whatever the server answers, every turn does what the turns before it say. -/
theorem turns_follow_deliveries (c : ApiClient) (s : Session)
    (visits : List (Session.Visit Demand)) : Session.AllConform c.Conforms []
      (Session.turns c.supply { s with architectures := [] } visits) := by
  refine Session.allConform_turns
    (fun past s => s.architectures = StarQpu.filed (delivered past)) ?_ rfl visits
  intro past s v hcache
  have hsupplied := supplied_turn c s v
  refine ⟨hsupplied.conforms hcache, ?_⟩
  rw [hsupplied.architectures_eq, delivered_append, filed_append]
  exact congrArg (StarQpu.filed (Session.turn c.supply s v).delivered ++ ·) hcache

/-- A session whose token stands in a file and is not good. -/
def lockedSession : Session where
  clock := .zero
  files := Table.empty.insert "tokens.json" "\x7b\"access_token\":\"opaque\"\x7d"
  network := ⟨"http://qpu.test", [], []⟩
  provider := some (.file (some "tokens.json"))

/-- Without its authorization a client sends nothing at all, neither for the default architecture
nor for one that it does not remember. -/
theorem locked_client_sends_nothing :
    let run := Session.turns sample.supply lockedSession
      [⟨.zero, .architecture none⟩, ⟨.zero, .architecture (some .nil)⟩]
    run.map (·.request.wanted?) = [some none, some (some .nil)] ∧ run.map (·.exchanges) = [[], []] ∧
      (latest? run .nil).isNone = true :=
  ⟨rfl, by decide +kernel, by decide +kernel⟩

/-- A server with an architecture of one calibration set, which it sends whatever it is asked
for. -/
def oneSetSession : Session where
  clock := .zero
  network :=
    let reply : Http.Answer := .reply ⟨200, "\x7b\"calibration_set_id\":" ++
      "\"00000000-0000-0000-0000-000000000007\",\"qubits\":[],\"computational_resonators\":[]," ++
      "\"gates\":\x7b\x7d\x7d"⟩
    ⟨"http://qpu.test", [reply, reply], []⟩

/-- The architecture is remembered for the set that it names, not for the one that was asked for. -/
example : (Session.turns sample.supply oneSetSession
    [⟨.zero, .architecture (some .nil)⟩, ⟨.zero, .architecture (some .nil)⟩,
      ⟨.zero, .architecture (Uuid.ofText? "00000000-0000-0000-0000-000000000007")⟩]).map
      (fun t => t.requests.map (·.path)) =
    [["/api/v1/calibration/00000000-0000-0000-0000-000000000000/gates"],
      ["/api/v1/calibration/00000000-0000-0000-0000-000000000000/gates"], []] := by
  decide +kernel

end ApiClient

end StarQpu
