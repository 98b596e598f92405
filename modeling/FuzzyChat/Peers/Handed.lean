import FuzzyChat.Controller.Authentic
import FuzzyChat.Interleave.Ensures
import FuzzyChat.Peers.EndToEnd

/-! What a message comes to whoever answers at the nodes and whatever the other requests do: it is
put into one channel and acknowledged, or into none and fails. -/

namespace FuzzyChat
open Interleave

/-! What the controller's answers tell. -/

section controller
variable {members : Table String Member} {p : ControllerPool} {i : Nat}

theorem init_returned (hp : Reachable (Storage.start members) p) {r : InitRequest} {id : String}
    {resp : InitResponse} (ht : p.returned i = some (⟨.init r, id⟩, .ok (.init resp))) :
    resp.conversationId = id ∧ (⟨.init r, id⟩ : Job) ∈ p.hist.jobs ∧
      ∃ info, Authentic members p.hist.jobs info ∧ info.accessKey = r.accessKey := by
  have hret := Pool.returned_eq_some.mp ht
  have hjob : (⟨.init r, id⟩ : Job) ∈ p.hist.jobs :=
    List.mem_map.mpr ⟨_, List.mem_of_getElem? hret, rfl⟩
  have htells : (Job.handler ⟨.init r, id⟩).Tells (p.hist.said i) (.ok (.init resp)) :=
    hp.leads i _ _ hret
  rw [handler_init] at htells
  obtain ⟨caller, es₁, he₁, h₁⟩ := htells.of_call
  cases caller with
  | none => cases h₁.of_ret.2
  | some info₁ =>
  obtain ⟨caller, es₂, rfl, h₂⟩ := h₁.of_call
  cases caller with
  | none => cases h₂.of_ret.2
  | some info =>
  obtain ⟨stored, es₃, rfl, h₃⟩ := h₂.of_call
  cases stored with
  | none => cases h₃.of_ret.2
  | some conversationId =>
  obtain ⟨-, hresp⟩ := h₃.of_ret
  obtain ⟨pre, hd⟩ := Hist.mem_said.mp (he₁ ▸ by simp :
    (⟨.setConversation (Conversation.new id info.uid (RouteService.recipient r) 1),
      some conversationId⟩ : Sigma RepoOp.Res) ∈ p.hist.said i)
  obtain ⟨p₀, c, -, -, -, hanswer⟩ := answer_of_did hp hd
  obtain ⟨hkey, hauthentic⟩ := authentic_of_read hp (he₁ ▸ List.mem_cons_self)
  obtain ⟨-, hid⟩ := Option.ite_none_left_eq_some.mp hanswer
  refine ⟨?_, hjob, info₁, hauthentic, hkey⟩
  cases hresp
  exact (Option.some.inj hid).symm

end controller

/-! The controller and the peers as the services meet them. -/

theorem call_returned {x : Setting} {α : Type} {request : Request} {pick : Reply → Option α}
    {s₀ : Storage} {w w' : World} {r : Except Abort α} (hp : Reachable s₀ w.pool)
    (h : x.call request pick w = some (r, w')) :
    w.pool.Onward w'.pool ∧ w'.hops = w.hops ∧ w'.received = w.received ∧
      ∃ out, w'.pool.returned w.pool.tasks.length = some (x.jobOf request w.drawn, out) ∧
        r = answer pick out := by
  obtain ⟨⟨out, t, q⟩, hs, hx⟩ := Option.map_eq_some_iff.mp h
  obtain ⟨honward, hret⟩ := Rivals.submit_returned hp hs
  cases hx
  exact ⟨honward, rfl, rfl, out, hret, rfl⟩

theorem answer_eq_ok {α : Type} {pick : Reply → Option α} {out : Except Abort Reply} {a : α}
    (h : answer pick out = .ok a) : ∃ reply, out = .ok reply ∧ pick reply = some a := by
  cases out with
  | error e => cases h
  | ok reply =>
    refine ⟨reply, rfl, ?_⟩
    unfold answer at h
    cases hpick : pick reply with
    | none => simp [hpick] at h
    | some b => simpa [hpick] using h

/-- Where a client answers at the endpoint a session announced, it is the session's own. -/
def Network.Honest (net : Network) (jobs : List Job) : Prop :=
  ∀ info, Enrolled jobs info → ∀ uid, net.Reaches info (.client uid) → info.uid = uid

structure Unheard (members : Table String Member) (received : List (String × TextMessage))
    (jobs : List Job) (w : World) : Prop where
  reach : Reachable (Storage.start members) w.pool
  since : jobs <+: w.pool.hist.jobs
  received : w.received = received

/-- A message on its way: who sends what to whom in which conversation, what the clients have got
before, and jobs accepted before. -/
structure Errand where
  sender : SessionInfo
  toUid : String
  content : List UInt8
  conversationId : String
  received : List (String × TextMessage)
  jobs : List Job

namespace Errand

def initRequest (d : Errand) : InitRequest := ⟨d.sender.accessKey, d.toUid⟩

def recipient (d : Errand) : String := RouteService.recipient d.initRequest

structure Underway (members : Table String Member) (d : Errand) (w : World) : Prop where
  reach : Reachable (Storage.start members) w.pool
  since : d.jobs <+: w.pool.hist.jobs
  asked : (⟨.init d.initRequest, d.conversationId⟩ : Job) ∈ w.pool.hist.jobs
  authentic : Authentic members w.pool.hist.jobs d.sender
  received : w.received = d.received

structure Heard (members : Table String Member) (d : Errand) (uid : String) (w : World) :
    Prop where
  reach : Reachable (Storage.start members) w.pool
  since : d.jobs <+: w.pool.hist.jobs
  authentic : Authentic members w.pool.hist.jobs d.sender
  received : ∃ sentAt,
    w.received = d.received ++ [(uid, TextMessage.new d.sender.uid "myself" d.content sentAt)]

/-- The message has been put into one channel, and on an honest network into the recipient's. -/
def Handed (x : Setting) (members : Table String Member) (d : Errand) (w : World) : Prop :=
  ∃ uid, Heard members d uid w ∧ (x.network.Honest w.pool.hist.jobs → uid = d.recipient)

end Errand

section
variable {x : Setting} {members : Table String Member} {d : Errand} {w : World}

theorem Errand.Underway.opened (hw : d.Underway members w) :
    Opened w.pool.hist.jobs d.conversationId d.sender.uid d.recipient :=
  ⟨_, _, hw.asked, hw.authentic.enrolled, rfl, rfl, rfl⟩

theorem Errand.Underway.unheard (hw : d.Underway members w) :
    Unheard members d.received d.jobs w := ⟨hw.reach, hw.since, hw.received⟩

theorem Errand.Underway.call {α : Type} {request : Request} {pick : Reply → Option α} {w' : World}
    {r : Except Abort α} (hw : d.Underway members w) (h : x.call request pick w = some (r, w')) :
    d.Underway members w' ∧
      ∃ i out, w'.pool.returned i = some (x.jobOf request w.drawn, out) ∧ r = answer pick out := by
  obtain ⟨honward, -, hreceived, out, hret, rfl⟩ := call_returned hw.reach h
  have hb := honward.before
  exact ⟨⟨hw.reach.onward honward, hw.since.trans hb.jobs, hb.jobs.subset hw.asked,
    hw.authentic.mono hb.jobs, hreceived.trans hw.received⟩, _, out, hret, rfl⟩

theorem Errand.Underway.redeem {accessKey nonce : String} {w' : World}
    {r : Except Abort RedeemResponse}
    (hw : d.Underway members w)
    (h : x.call (.redeem ⟨accessKey, d.conversationId, nonce⟩) Reply.redeem? w = some (r, w')) :
    d.Underway members w' ∧
      ∀ source, r = .ok ⟨some source⟩ → source.fromUid = d.sender.uid := by
  obtain ⟨hw', i, out, hret, rfl⟩ := hw.call h
  refine ⟨hw', fun source hr => ?_⟩
  obtain ⟨reply, rfl, hpick⟩ := answer_eq_ok hr
  obtain ⟨hco, hpost⟩ := Reach.handled (G := fun _ _ _ => True) (fun _ _ _ _ _ _ => trivial)
    hw'.reach
  cases reply with
  | redeem resp =>
    obtain rfl : resp = ⟨some source⟩ := Option.some.inj hpick
    have hredeemed : Redeemed i ⟨accessKey, d.conversationId, nonce⟩ ⟨some source⟩ w'.pool.hist :=
      hpost i _ _ (Pool.returned_eq_some.mp hret)
    obtain ⟨u, ho⟩ := hredeemed.source source rfl
    exact (hco.opened_eq ho hw'.opened).1
  | _ => cases hpick

theorem Errand.Underway.route {accessKey : String} {w' : World} {r : Except Abort RouteResponse}
    (hw : d.Underway members w)
    (h : x.call (.route ⟨accessKey, d.conversationId⟩) Reply.route? w = some (r, w')) :
    d.Underway members w' ∧
      ∀ resp, r = .ok resp → ∃ info, Enrolled w'.pool.hist.jobs info ∧ resp.Carries info ∧
        (resp.endRoute = true →
          info.uid = d.recipient) := by
  obtain ⟨hw', i, out, hret, rfl⟩ := hw.call h
  refine ⟨hw', fun resp hr => ?_⟩
  obtain ⟨reply, rfl, hpick⟩ := answer_eq_ok hr
  obtain ⟨hco, hpost⟩ := Reach.handled (G := fun _ _ _ => True) (fun _ _ _ _ _ _ => trivial)
    hw'.reach
  cases reply with
  | route resp' =>
    obtain rfl : resp' = resp := Option.some.inj hpick
    obtain ⟨_, conversation, info, hrouted⟩ := hpost i _ _ (Pool.returned_eq_some.mp hret)
    refine ⟨info, (hrouted.stored.authentic hw'.reach).enrolled, hrouted.carries, fun hend => ?_⟩
    exact (hrouted.final hend).2.trans (hco.opened_eq hrouted.opened hw'.opened).2
  | _ => cases hpick

end

namespace Peer
variable {ε ε' α W : Type} {exec : (op : PeerOp) → W → Option (op.Res × W)} {A E : W → Prop}

theorem ensures_mapErr {f : ε → ε'} {r : Except ε α} {Q : α → W → Prop} :
    Prog.Ensures exec (Prog.Outcome Q E r) (mapErr f r : Peer ε' α) Q E := by
  cases r with
  | ok a => exact .pure fun _ hw => hw
  | error e => exact .throw fun _ hw => hw

theorem ensures_ask {β : Type} {op : PeerOp} {k : op.Res → Peer ε β} {B : op.Res → W → Prop}
    {Q : β → W → Prop} (hop : ∀ w, A w → ∀ r w', exec op w = some (r, w') → B r w')
    (hk : ∀ r, Prog.Ensures exec (B r) (k r) Q E) :
    Prog.Ensures exec A (ask op >>= k : Peer ε β) Q E := Prog.Ensures.call hop hk

theorem ensures_call {op : PeerOp} {f : ε → ε'} {g : op.Res → Except ε α} {Q : α → W → Prop}
    (hop : ∀ w, A w → ∀ r w', exec op w = some (r, w') → Prog.Outcome Q E (g r) w') :
    Prog.Ensures exec A (ask op >>= fun r => mapErr f (g r) : Peer ε' α) Q E :=
  ensures_ask hop fun _ => ensures_mapErr

theorem ensures_call_bind {β : Type} {op : PeerOp} {f : ε → ε'} {g : op.Res → Except ε α}
    {k : α → Peer ε' β} {B : α → W → Prop} {Q : β → W → Prop}
    (hop : ∀ w, A w → ∀ r w', exec op w = some (r, w') → Prog.Outcome B E (g r) w')
    (hk : ∀ a, Prog.Ensures exec (B a) (k a) Q E) :
    Prog.Ensures exec A (ask op >>= fun r => mapErr f (g r) >>= k : Peer ε' β) Q E :=
  ensures_ask hop fun _ => ensures_mapErr.bind hk

end Peer

theorem Setting.exec_succ {x : Setting} {n : Nat} {self : Node} {op : PeerOp} {w w' : World}
    {r : op.Res} (h : x.exec n self op w = some (r, w')) : ∃ m, n = m + 1 := by
  cases n with
  | zero => cases h
  | succ m => exact ⟨m, rfl⟩

section
variable {x : Setting} {members : Table String Member} {d : Errand}

theorem outcome_connectController {n : Nat} {self : Node} {A E : World → Prop} {w w' : World}
    {r : Except Fault Unit} (hAE : ∀ w, A w → E w) (hw : A w)
    (h : x.exec n self .connectController w = some (r, w')) :
    Prog.Outcome (fun _ => A) E r w' := by
  obtain ⟨n, rfl⟩ := Setting.exec_succ h
  cases h
  cases hd : x.network.dialController with
  | ok a => exact hw
  | error e => exact hAE w hw

theorem outcome_redeem {n : Nat} {self : Node} {accessKey nonce : String} {w w' : World}
    {r : Except Abort RedeemResponse}
    (hw : d.Underway members w)
    (h : x.exec n self (.redeem ⟨accessKey, d.conversationId, nonce⟩) w = some (r, w')) :
    Prog.Outcome (fun resp w => (∀ source, resp.sourceInfo = some source →
        source.fromUid = d.sender.uid) ∧ d.Underway members w)
      (Unheard members d.received d.jobs) r w' := by
  obtain ⟨n, rfl⟩ := Setting.exec_succ h
  obtain ⟨hw', hsource⟩ := hw.redeem h
  cases r with
  | ok resp =>
    obtain ⟨source⟩ := resp
    refine ⟨fun s hs => ?_, hw'⟩
    obtain rfl : source = some s := hs
    exact hsource s rfl
  | error e => exact hw'.unheard

theorem ensures_receive (n : Nat) (uid accessKey nonce : String) :
    Prog.Ensures (x.exec n (.client uid)) (d.Underway members)
      (LandingServiceImpl.receive ⟨d.conversationId, accessKey, nonce, d.content⟩)
      (fun _ => d.Heard members uid) (Unheard members d.received d.jobs) := by
  refine Peer.ensures_call_bind
    (fun w hw r w' h => outcome_connectController (fun _ => Errand.Underway.unheard) hw h)
    fun _ => ?_
  refine .bind (.adapt _ (Peer.ensures_call fun w hw r w' h => outcome_redeem hw h)) fun resp =>
    .of_imp fun hsource => ?_
  cases hs : resp.sourceInfo with
  | none => exact .throw fun _ hw => hw.unheard
  | some source =>
    have hfrom : source.fromUid = d.sender.uid := hsource source hs
    dsimp only
    rw [hfrom]
    refine Peer.ensures_ask
      (B := fun _ => d.Underway members)
      (fun w hw now w' h => ?_) fun now =>
        Peer.ensures_ask (B := fun _ => d.Heard members uid)
          (fun w hw isOpen w' h => ?_) fun _ => .pure fun _ hw => hw
    · obtain ⟨n, rfl⟩ := Setting.exec_succ h
      cases h
      exact hw
    · obtain ⟨n, rfl⟩ := Setting.exec_succ h
      cases h
      exact ⟨hw.reach, hw.since, hw.authentic, now, congrArg (· ++ _) hw.received⟩

theorem RouteResponse.Carries.reaches {resp : RouteResponse} {info : SessionInfo} {uri : Uri}
    {node : Node} (hc : resp.Carries info)
    (huri : networking.toHttpsEndpoint x.network.crates resp.ipAddress
      resp.portNumber.toUInt16.toUInt32 = .ok uri)
    (hdial : x.network.dial uri resp.publicKey resp.domainName = .ok node) :
    x.network.Reaches info node := by
  rw [hc.portNumber, UInt16.toUInt16_toUInt32, hc.ipAddress] at huri
  rw [hc.publicKey, hc.domainName] at hdial
  exact ⟨uri, huri, hdial⟩

structure Errand.Leads (members : Table String Member) (d : Errand) (resp : RouteResponse)
    (w : World) : Prop where
  underway : d.Underway members w
  carried : ∃ info, Enrolled w.pool.hist.jobs info ∧ resp.Carries info ∧
    (resp.endRoute = true → info.uid = d.recipient)

theorem ensures_landCommand (n : Nat) (self : Node) (resp : RouteResponse)
    (nonce accessKey : String) (hend : resp.endRoute = true) :
    Prog.Ensures (x.exec n self) (d.Leads members resp)
      (ProxyServiceImpl.landCommand x.network.crates (ProxyServiceImpl.routeSettings resp)
        d.conversationId nonce accessKey d.content)
      (fun _ => d.Handed x members) (Unheard members d.received d.jobs) := by
  unfold ProxyServiceImpl.landCommand ConnectionSettings.getPublicEndpoint
  cases huri : networking.toHttpsEndpoint x.network.crates
      (ProxyServiceImpl.routeSettings resp).ip
      (ProxyServiceImpl.routeSettings resp).port.toUInt32 with
  | error e => exact .throw fun _ hw => hw.underway.unheard
  | ok uri =>
    refine Peer.ensures_call_bind (B := fun node w =>
      x.network.dial uri resp.publicKey resp.domainName = .ok node ∧
        d.Leads members resp w)
      (fun w hw r w' h => ?_) fun node => .of_imp fun hdial => ?_
    · obtain ⟨n, rfl⟩ := Setting.exec_succ h
      cases h
      change Prog.Outcome _ _ (x.network.dial uri resp.publicKey resp.domainName) w
      cases hd : x.network.dial uri resp.publicKey resp.domainName with
      | ok node => exact ⟨rfl, hw⟩
      | error e => exact hw.underway.unheard
    · refine .bind (B := fun _ => d.Handed x members)
        (.adapt _ (Peer.ensures_call fun w hw r w' h => ?_)) fun _ => .pure fun _ hw => hw
      obtain ⟨n, rfl⟩ := Setting.exec_succ h
      cases node with
      | proxy uid =>
        cases h
        exact hw.underway.unheard
      | client uid =>
        -- the jobs accepted so far are known to be there when the message has been received
        have hout := ensures_receive (d := { d with jobs := w.pool.hist.jobs }) n uid accessKey
          nonce w ⟨hw.underway.reach, List.prefix_refl _, hw.underway.asked, hw.underway.authentic,
            hw.underway.received⟩ r w' h
        cases r with
        | error e => exact ⟨hout.reach, hw.underway.since.trans hout.since, hout.received⟩
        | ok a =>
          refine ⟨uid, ⟨hout.reach, hw.underway.since.trans hout.since, hout.authentic,
            hout.received⟩, fun hhonest => ?_⟩
          obtain ⟨info, henrolled, hcarries, hfinal⟩ := hw.carried
          have hreaches := hcarries.reaches huri hdial
          exact (hhonest info (henrolled.mono hout.since) uid hreaches).symm.trans (hfinal hend)

def Conveys (x : Setting) (members : Table String Member) (d : Errand) (n : Nat) : Prop :=
  ∀ uid nonce, Prog.Ensures (x.exec n (.proxy uid)) (d.Underway members)
    (ProxyServiceImpl.executeCommand x.network.crates
      ⟨d.conversationId, nonce, CommandType.send.toI32, some d.content⟩)
    (fun a w => a = ⟨some "Message sent"⟩ ∧ d.Handed x members w)
    (Unheard members d.received d.jobs)

theorem ensures_sendCommand {n : Nat} (hnext : ∀ m, n = m + 1 → Conveys x members d m) (self : Node)
    (node : Node) (nonce : String) :
    Prog.Ensures (x.exec n self) (d.Underway members)
      (ProxyClient.sendCommand node d.conversationId nonce .send d.content)
      (fun a w => a = ⟨some "Message sent"⟩ ∧ d.Handed x members w)
      (Unheard members d.received d.jobs) := by
  refine Peer.ensures_call fun w hw r w' h => ?_
  obtain ⟨m, rfl⟩ := Setting.exec_succ h
  cases node with
  | client uid =>
    cases h
    exact hw.unheard
  | proxy uid =>
    exact hnext m rfl uid nonce { w with hops := w.hops ++ [uid] }
      ⟨hw.reach, hw.since, hw.asked, hw.authentic, hw.received⟩ r w' h

theorem ensures_routeCommand {n : Nat} (hnext : ∀ m, n = m + 1 → Conveys x members d m)
    (self : Node) (settings : ConnectionSettings) (nonce : String) :
    Prog.Ensures (x.exec n self) (d.Underway members)
      (ProxyServiceImpl.routeCommand x.network.crates settings d.conversationId nonce d.content)
      (fun _ => d.Handed x members) (Unheard members d.received d.jobs) := by
  unfold ProxyServiceImpl.routeCommand ConnectionSettings.getPublicEndpoint
  cases huri : networking.toHttpsEndpoint x.network.crates settings.ip settings.port.toUInt32 with
  | error e => exact .throw fun _ hw => hw.unheard
  | ok uri =>
    refine Peer.ensures_call_bind (B := fun _ => d.Underway members) (fun w hw r w' h => ?_)
      fun node => ?_
    · obtain ⟨n, rfl⟩ := Setting.exec_succ h
      cases h
      cases hd : x.network.dial uri settings.certificate settings.domainName with
      | ok node => exact hw
      | error e => exact hw.unheard
    · exact .bind (.adapt _ (ensures_sendCommand hnext self node nonce)) fun a =>
        .of_imp fun _ => .pure fun _ hw => hw

theorem outcome_route {n : Nat} {self : Node} {accessKey : String} {w w' : World}
    {r : Except Abort RouteResponse} (hw : d.Underway members w)
    (h : x.exec n self (.getRoute ⟨accessKey, d.conversationId⟩) w = some (r, w')) :
    Prog.Outcome (d.Leads members) (Unheard members d.received d.jobs) r w' := by
  obtain ⟨n, rfl⟩ := Setting.exec_succ h
  obtain ⟨hw', hroute⟩ := hw.route h
  cases r with
  | ok resp => exact ⟨hw', hroute resp rfl⟩
  | error e => exact hw'.unheard

theorem ensures_send {n : Nat} (hnext : ∀ m, n = m + 1 → Conveys x members d m) (self : Node)
    (accessKey : String) :
    Prog.Ensures (x.exec n self) (d.Underway members)
      (ProxyServiceImpl.send x.network.crates d.conversationId accessKey d.content)
      (fun _ => d.Handed x members) (Unheard members d.received d.jobs) := by
  refine Peer.ensures_call_bind
    (fun w hw r w' h => outcome_connectController (fun _ => Errand.Underway.unheard) hw h)
    fun _ => ?_
  refine .bind (.adapt _ (Peer.ensures_call fun w hw r w' h => outcome_route hw h)) fun resp => ?_
  cases hend : resp.endRoute with
  | true => exact ensures_landCommand n self resp resp.nonce accessKey hend
  | false =>
    exact (ensures_routeCommand hnext self _ _).mono (fun _ hw => hw.underway) fun _ _ hw => hw

theorem ensures_checkAuthentication (n : Nat) (self : Node) :
    Prog.Ensures (x.exec n self) (d.Underway members) ProxyServiceImpl.checkAuthentication
      (fun _ => d.Underway members) (Unheard members d.received d.jobs) := by
  refine Peer.ensures_ask (B := fun _ => d.Underway members) (fun w hw r w' h => ?_)
    fun authenticated => ?_
  · obtain ⟨n, rfl⟩ := Setting.exec_succ h
    cases h
    exact hw
  · cases authenticated with
    | false => exact .throw fun _ hw => hw.unheard
    | true =>
      refine Peer.ensures_ask (B := fun _ => d.Underway members) (fun w hw r w' h => ?_)
        fun session => ?_
      · obtain ⟨n, rfl⟩ := Setting.exec_succ h
        cases h
        exact hw
      · cases hk : session.accessKey with
        | none => exact .throw fun _ hw => hw.unheard
        | some accessKey => exact .pure fun _ hw => hw

theorem conveys (n : Nat) : Conveys x members d n := by
  induction n using Nat.strong_induction_on with
  | _ n ih =>
    intro uid nonce
    refine .bind (ensures_checkAuthentication n _) fun accessKey => ?_
    refine .bind (B := fun _ => d.Underway members) ?_ fun _ => ?_
    · refine Peer.ensures_call_bind
        (fun w hw r w' h => outcome_connectController (fun _ => Errand.Underway.unheard) hw h)
        fun _ => ?_
      exact .bind (.adapt _ (Peer.ensures_call fun w hw r w' h => outcome_redeem hw h)) fun resp =>
        .of_imp fun _ => .pure fun _ hw => hw
    · simp only [CommandType.tryFrom_toI32]
      exact (ensures_send (fun m hm => ih m (by omega)) _ accessKey).bind fun _ =>
        .pure fun _ hw => ⟨rfl, hw⟩

end

/-! The sender's side. -/

section
variable {x : Setting} {members : Table String Member} {accessKey toUid : String}
  {received : List (String × TextMessage)} {jobs : List Job}

structure Errand.Of (accessKey toUid : String) (content : List UInt8)
    (received : List (String × TextMessage)) (jobs : List Job) (conversationId : String)
    (d : Errand) : Prop where
  accessKey : d.sender.accessKey = accessKey
  toUid : d.toUid = toUid
  content : d.content = content
  received : d.received = received
  jobs : d.jobs = jobs
  conversationId : d.conversationId = conversationId

theorem outcome_init {n : Nat} {self : Node} {w w' : World} {r : Except Abort InitResponse}
    (content : List UInt8) (hw : Unheard members received jobs w)
    (h : x.exec n self (.initConversation ⟨accessKey, toUid⟩) w = some (r, w')) :
    Prog.Outcome (fun resp w => ∃ d : Errand,
        d.Of accessKey toUid content received jobs resp.conversationId ∧ d.Underway members w)
      (Unheard members received jobs) r w' := by
  obtain ⟨n, rfl⟩ := Setting.exec_succ h
  obtain ⟨honward, -, hreceived, out, hret, rfl⟩ := call_returned hw.reach h
  have hp := hw.reach.onward honward
  have hb := honward.before
  cases hr : answer Reply.init? out with
  | error e => exact ⟨hp, hw.since.trans hb.jobs, hreceived.trans hw.received⟩
  | ok resp =>
    obtain ⟨reply, rfl, hpick⟩ := answer_eq_ok hr
    cases reply with
    | init resp' =>
      obtain rfl : resp' = resp := Option.some.inj hpick
      obtain ⟨hid, hjob, sender, hauthentic, hkey⟩ := init_returned hp hret
      refine ⟨⟨sender, toUid, content, resp'.conversationId, received, jobs⟩,
        ⟨hkey, rfl, rfl, rfl, rfl, rfl⟩, hp, hw.since.trans hb.jobs, ?_, hauthentic,
        hreceived.trans hw.received⟩
      rw [Errand.initRequest, hkey, hid]
      exact hjob
    | _ => cases hpick

theorem ensures_initializeRoute (n : Nat) (self : Node) (content : List UInt8) :
    Prog.Ensures (x.exec n self) (Unheard members received jobs)
      (Commander.initializeRoute x.network.crates accessKey toUid)
      (fun route w => ∃ d : Errand,
        d.Of accessKey toUid content received jobs route.conversationId ∧ d.Underway members w)
      (Unheard members received jobs) := by
  refine Peer.ensures_call_bind
    (fun w hw r w' h => outcome_connectController (fun _ hw => hw) hw h) fun _ => ?_
  refine .bind (Peer.ensures_call fun w hw r w' h => outcome_init content hw h)
    fun resp => .exists fun d => .of_imp fun hd => ?_
  obtain ⟨rfl, rfl, rfl, rfl, rfl, hid⟩ := hd
  refine .bind (B := fun _ => d.Underway members) ?_ fun route => ?_
  · rw [← hid]
    exact Peer.ensures_call fun w hw r w' h =>
      (outcome_route hw h).imp (fun _ _ hl => hl.underway) fun _ he => he
  · cases huri : networking.toHttpsEndpoint x.network.crates route.ipAddress route.portNumber with
    | error e => exact .throw fun _ hw => hw.unheard
    | ok uri => exact .pure fun _ hw => ⟨d, ⟨rfl, rfl, rfl, rfl, rfl, hid⟩, hw⟩

theorem ensures_sendMessage (n : Nat) (self : Node) (content : List UInt8) :
    Prog.Ensures (x.exec n self) (Unheard members received jobs)
      (Commander.sendMessage x.network.crates accessKey toUid content)
      (fun a w => a = ⟨some "Message sent"⟩ ∧ ∃ c, ∃ d : Errand,
        d.Of accessKey toUid content received jobs c ∧ d.Handed x members w)
      (Unheard members received jobs) := by
  refine .bind (ensures_initializeRoute n self content) fun route => .exists fun d =>
    .of_imp fun hd => ?_
  obtain ⟨rfl, rfl, rfl, rfl, rfl, hid⟩ := hd
  refine Peer.ensures_call_bind (B := fun _ => d.Underway members) (fun w hw r w' h => ?_)
    fun node => ?_
  · obtain ⟨n, rfl⟩ := Setting.exec_succ h
    cases h
    cases hd : x.network.dial route.uri route.publicKey route.domainName with
    | ok node => exact hw
    | error e => exact hw.unheard
  · rw [← hid]
    exact (ensures_sendCommand (fun m _ => conveys m) self node route.nonce).mono (fun _ hw => hw)
      fun _ _ hw => ⟨hw.1, _, d, ⟨rfl, rfl, rfl, rfl, rfl, rfl⟩, hw.2⟩

end

/-- Under the uid of the session whose key was used and with the content unchanged, the message is
in the channel of a client: of the recipient, where clients answer at their own endpoints only. -/
def Arrived (x : Setting) (members : Table String Member) (jobs : List Job)
    (accessKey toUid : String) (content : List UInt8) (a : String × TextMessage) : Prop :=
  ∃ sender sentAt, Authentic members jobs sender ∧ sender.accessKey = accessKey ∧
    a.2 = TextMessage.new sender.uid "myself" content sentAt ∧
    (x.network.Honest jobs → a.1 = RouteService.recipient ⟨accessKey, toUid⟩)

theorem Network.Honest.mono {net : Network} {jobs jobs' : List Job} (hj : jobs <+: jobs')
    (h : net.Honest jobs') : net.Honest jobs := fun info hi => h info (hi.mono hj)

theorem Arrived.mono {x : Setting} {members : Table String Member} {jobs jobs' : List Job}
    (hj : jobs <+: jobs') {accessKey toUid : String} {content : List UInt8}
    {a : String × TextMessage} (h : Arrived x members jobs accessKey toUid content a) :
    Arrived x members jobs' accessKey toUid content a :=
  let ⟨sender, sentAt, hs, hk, hm, hto⟩ := h
  ⟨sender, sentAt, hs.mono hj, hk, hm, fun hhonest => hto (hhonest.mono hj)⟩

theorem message_handed {x : Setting} {members : Table String Member} {n : Nat} {self : Node}
    {accessKey toUid : String} {content : List UInt8} {r : Except Fault CommandResponse}
    {w w' : World} (hp : Reachable (Storage.start members) w.pool)
    (h : Prog.run (x.exec n self)
      (Commander.sendMessage x.network.crates accessKey toUid content) w = some (r, w')) :
    Reachable (Storage.start members) w'.pool ∧ w.pool.hist.jobs <+: w'.pool.hist.jobs ∧
      ((∃ e, r = .error e) ∧ w'.received = w.received ∨
        r = .ok ⟨some "Message sent"⟩ ∧ ∃ a, w'.received = w.received ++ [a] ∧
          Arrived x members w'.pool.hist.jobs accessKey toUid content a) := by
  have hout := ensures_sendMessage n self content w ⟨hp, List.prefix_refl _, rfl⟩ r w' h
  cases r with
  | error e => exact ⟨hout.reach, hout.since, .inl ⟨⟨e, rfl⟩, hout.received⟩⟩
  | ok a =>
    obtain ⟨rfl, c, d, ⟨rfl, rfl, rfl, hreceived, hjobs, -⟩, uid, hheard, hhonest⟩ := hout
    obtain ⟨sentAt, hr⟩ := hheard.received
    rw [hreceived] at hr
    refine ⟨hheard.reach, hjobs ▸ hheard.since, .inr ⟨rfl, _, hr, ?_⟩⟩
    exact ⟨d.sender, sentAt, hheard.authentic, rfl, rfl, hhonest⟩

end FuzzyChat
