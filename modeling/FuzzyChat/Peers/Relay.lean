import FuzzyChat.Peers.Requests

/-! A message on its way: from the client over the proxies to the client it is for. -/

namespace FuzzyChat
open Interleave

namespace Peer
variable {ε ε' α W : Type} {exec : (op : PeerOp) → W → Option (op.Res × W)} {A : W → Prop}

theorem returns_ask {op : PeerOp} {B : op.Res → W → Prop}
    (hop : ∀ w, A w → ∃ r w', exec op w = some (r, w') ∧ B r w') :
    Prog.Returns exec A (ask op : Peer ε op.Res) B := by
  intro w hw
  obtain ⟨r, w', he, hB⟩ := hop w hw
  exact ⟨r, w', congrArg (Option.bind · _) he, hB⟩

theorem returns_call {op : PeerOp} {f : ε → ε'} {g : op.Res → Except ε α} {B : α → W → Prop}
    (hop : ∀ w, A w → ∃ r a w', exec op w = some (r, w') ∧ g r = .ok a ∧ B a w') :
    Prog.Returns exec A (ask op >>= fun r => mapErr f (g r) : Peer ε' α) B := by
  refine Prog.Returns.bind (B := fun r w => ∃ a, g r = .ok a ∧ B a w) (returns_ask fun w hw => ?_)
    fun r => .exists fun a => .of_imp fun hr => ?_
  · obtain ⟨r, a, w', he, hr, hB⟩ := hop w hw
    exact ⟨r, w', he, a, hr, hB⟩
  · rw [hr]
    exact .pure fun w hw => hw

theorem returns_call_bind {β : Type} {op : PeerOp} {f : ε → ε'} {g : op.Res → Except ε α}
    {k : α → Peer ε' β} {B : α → W → Prop} {Q : β → W → Prop}
    (hop : ∀ w, A w → ∃ r a w', exec op w = some (r, w') ∧ g r = .ok a ∧ B a w')
    (hk : ∀ a, Prog.Returns exec (B a) (k a) Q) :
    Prog.Returns exec A (ask op >>= fun r => mapErr f (g r) >>= k : Peer ε' β) Q := by
  rw [← bind_assoc]
  exact (returns_call hop).bind hk

end Peer

structure At (x : Setting) (d : Parties) (s₀ : Storage) (g : Progress) (hops : List String)
    (received : List (String × TextMessage)) (w : World) : Prop where
  reach : Reachable s₀ w.pool
  drawn : w.drawn = g.drawn
  stage : Stage x d g w.pool.hist
  hops : w.hops = hops
  received : w.received = received

section
variable {x : Setting} {d : Parties} {s₀ : Storage} {g : Progress} {hops : List String}
  {received : List (String × TextMessage)}

def Progress.drew (g : Progress) (request : Request) : Progress :=
  { g with drawn := if request.draws.isSome then g.drawn + 1 else g.drawn }

theorem Stage.accept {h : ControllerHist} (hs : Stage x d g h) (hids : Function.Injective x.ids)
    (request : Request) :
    Stage x d (g.drew request) (h.accept (x.jobOf request g.drawn)) where
  scene := hs.scene
  known := hs.known
  conversation := hs.conversation
  routes := hs.routes
  fresh j hj hdraws n hn := by
    rcases List.mem_append.mp hj with hold | hnew
    · refine hs.fresh j hold hdraws n (Nat.le_trans ?_ hn)
      unfold Progress.drew
      dsimp only
      split_ifs <;> omega
    · rw [List.mem_singleton.mp hnew] at hdraws ⊢
      have hsome : request.draws.isSome = true := Option.isSome_iff_ne_none.mpr hdraws
      simp only [Progress.drew, hsome, if_true] at hn
      simp only [Setting.jobOf, hsome, if_true, ne_eq, hids.eq_iff]
      omega

theorem Stage.admits {h : ControllerHist} (hs : Stage x d g h) (request : Request) :
    controller.admits h.jobs (x.jobOf request g.drawn) := by
  intro j hj hdraws hsame hid
  have hsome : request.draws.isSome = true := Option.isSome_iff_ne_none.mpr hdraws
  refine hs.fresh j hj (hsame ▸ hdraws) g.drawn (Nat.le_refl _) ?_
  rw [← hid, Setting.jobOf, if_pos hsome]

theorem call_at (hids : Function.Injective x.ids) (request : Request) {α : Type}
    (pick : Reply → Option α) (B : Except Abort α → Progress → Prop)
    {Q : Except Abort Reply → ControllerHist → Prop}
    (hserved : ∀ i, Served x d s₀ i (x.jobOf request g.drawn) (g.drew request)
      (Job.handler (x.jobOf request g.drawn)) Q)
    (hQ : ∀ a h, Q a h → ∃ g', B (answer pick a) g' ∧ g'.drawn = (g.drew request).drawn ∧
      Stage x d g' h)
    {w : World} (hw : At x d s₀ g hops received w) :
    ∃ r g' w', x.call request pick w = some (r, w') ∧ B r g' ∧ At x d s₀ g' hops received w' := by
  have hadm := hw.stage.admits (x := x) request
  obtain ⟨a, t, p, hsub, hp, hq⟩ := Rivals.submit_ends hw.reach hadm
    (hw.stage.accept hids request) (hserved w.pool.tasks.length) w.turn
  obtain ⟨g', hB, hdrawn, hs⟩ := hQ a p.hist hq
  refine ⟨answer pick a, g', { w with pool := p, turn := t, drawn := (g.drew request).drawn }, ?_,
    hB, ⟨hp, hdrawn.symm, hs, hw.hops, hw.received⟩⟩
  rw [Setting.call, hw.drawn, hsub]
  rfl

/-! The conversation of the message, and the routes it has at each hop. -/

structure Ours (d : Parties) (v : Conversation) : Prop where
  routingId : v.routingId = 1
  fromUid : v.fromUid = d.sender.uid
  toUid : v.toUid = d.toUid

structure InTransit (d : Parties) (m : Nat) (uid : String) (g : Progress) : Prop where
  drawn : g.drawn = m + 2
  conversation : ∃ v, g.conversation = some v ∧ Ours d v ∧ v.routes.length = m + 1
  route : ∃ route, g.routes m = some route ∧ route.endRoute = false
  others : ∀ n, n ≠ m → g.routes n = none
  known : g.known uid

structure Between (d : Parties) (m : Nat) (g : Progress) : Prop where
  drawn : g.drawn = m + 1
  conversation : ∃ v, g.conversation = some v ∧ Ours d v ∧ v.routes.length = m
  routes : ∀ n, g.routes n = none

structure Landing (d : Parties) (g : Progress) : Prop where
  drawn : g.drawn = 5
  conversation : ∃ v, g.conversation = some v ∧ Ours d v
  route : ∃ route, g.routes 3 = some route ∧ route.endRoute = true
  others : ∀ n, n ≠ 3 → g.routes n = none

theorem InTransit.redeemed {m : Nat} {uid : String} (ht : InTransit d m uid g) :
    Between d (m + 1) (g.redeemed m) where
  drawn := ht.drawn
  conversation := ht.conversation
  routes n := by
    unfold Progress.redeemed
    dsimp only
    split_ifs with hn
    · rfl
    · exact ht.others n hn

/-- The message has been put into the channel of the client it is for, and nothing of its
conversation is left. -/
structure Delivered (x : Setting) (d : Parties) (s₀ : Storage) (content : List UInt8)
    (received : List (String × TextMessage)) (hops : List String) (w : World) : Prop where
  reach : Reachable s₀ w.pool
  drawn : w.drawn = 5
  hops : w.hops = hops
  received : ∃ sentAt, w.received =
    received ++ [(d.toUid, TextMessage.new d.sender.uid "myself" content sentAt)]
  conversation : w.pool.state.routes.getConversation (x.ids 0) = none
  routes : ∀ n c, w.pool.state.routes.getRoute c (x.ids (n + 1)) = none

theorem admitted_of_known {uid k : String}
    (hk : x.network.clientSession (.proxy uid) = ⟨some k, some uid⟩)
    (hg : g.known uid) : Admitted x d g k := by
  intro s hs hknown
  obtain ⟨k', hl⟩ := hknown uid hg
  have hr := hs.proxies uid k' hl
  have hkk : k' = k := by simpa using hr.session.symm.trans hk
  obtain ⟨info, hinfo, -⟩ := hr.stored
  exact ⟨info, hkk ▸ hinfo⟩

theorem At.session {uid : String} {w : World} (hw : At x d s₀ g hops received w)
    (hg : g.known uid) : ∃ k, x.network.clientSession (.proxy uid) = ⟨some k, some uid⟩ :=
  let ⟨k, hl⟩ := hw.stage.known uid hg
  ⟨k, (hw.stage.scene.proxies uid k hl).session⟩

/-! The services. -/

section
variable (n : Nat)

theorem returns_checkAuthentication {uid k : String}
    (hk : x.network.clientSession (.proxy uid) = ⟨some k, some uid⟩) {A : World → Prop} :
    Prog.Returns (x.exec (n + 1) (.proxy uid)) A ProxyServiceImpl.checkAuthentication
      fun a w => a = k ∧ A w := by
  refine .bind (B := fun r w => r = true ∧ A w) (Peer.returns_ask fun w hw => ?_) fun r =>
    .of_imp fun hr => ?_
  · exact ⟨_, w, rfl, by rw [hk]; rfl, hw⟩
  · rw [if_pos hr]
    refine .bind (B := fun r w => r = ⟨some k, some uid⟩ ∧ A w) (Peer.returns_ask fun w hw => ?_)
      fun r => .of_imp fun hr => ?_
    · exact ⟨_, w, rfl, hk, hw⟩
    · rw [hr]
      exact .pure fun w hw => ⟨rfl, hw⟩

theorem getPublicEndpoint_routeTo {info : SessionInfo} {node : Node}
    (hr : x.network.Reaches info node) (nonce : String) (endRoute : Bool) :
    ∃ uri, (ProxyServiceImpl.routeSettings (routeTo nonce info endRoute)).getPublicEndpoint
        x.network.crates = pure uri ∧
      x.network.dial uri info.publicKey info.domainName = .ok node := by
  obtain ⟨uri, hu, hd⟩ := hr
  refine ⟨uri, ?_, hd⟩
  have hport : (ProxyServiceImpl.routeSettings (routeTo nonce info endRoute)).port =
      info.onPortNumber := UInt16.toUInt16_toUInt32 _
  rw [ConnectionSettings.getPublicEndpoint, hport]
  exact congrArg (Peer.mapErr _) hu

/-- What a command asked of a proxy comes to when `rest` more proxies are to follow. -/
def Forwards (x : Setting) (d : Parties) (s₀ : Storage) (content : List UInt8)
    (received : List (String × TextMessage)) (hops : List String) (rest : Nat)
    (a : CommandResponse) (w : World) : Prop :=
  a = ⟨some "Message sent"⟩ ∧
    ∃ more, more.length = rest ∧ Delivered x d s₀ content received (hops ++ more) w

def hopRequest (x : Setting) (m : Nat) (content : List UInt8) : CommandRequest :=
  ⟨x.ids 0, x.ids (m + 1), CommandType.send.toI32, some content⟩

theorem sendCommand_at {depth m rest : Nat} {self : Node} {uid : String} {content : List UInt8}
    (hnext : Prog.Returns (x.exec depth (.proxy uid)) (At x d s₀ g (hops ++ [uid]) received)
      (ProxyServiceImpl.executeCommand x.network.crates (hopRequest x m content))
      (Forwards x d s₀ content received (hops ++ [uid]) rest)) :
    Prog.Returns (x.exec (depth + 1) self) (At x d s₀ g hops received)
      (ProxyClient.sendCommand (.proxy uid) (x.ids 0) (x.ids (m + 1)) .send content)
      (Forwards x d s₀ content received hops (rest + 1)) := by
  refine Peer.returns_call fun w hw => ?_
  obtain ⟨a, w', hrun, ha, more, hmore, hd⟩ := hnext { w with hops := w.hops ++ [uid] }
    ⟨hw.reach, hw.drawn, hw.stage, congrArg (· ++ _) hw.hops, hw.received⟩
  refine ⟨_, a, w', hrun, rfl, ha, uid :: more, congrArg (· + 1) hmore, ?_⟩
  rwa [List.append_assoc] at hd

variable (hu : Undisturbed x d s₀) (hids : Function.Injective x.ids)
include hu hids

theorem redeem_at {k : String} (hk : Admitted x d g k) {v : Conversation}
    (hv : g.conversation = some v) {m : Nat} {route : Route} (hm : g.routes m = some route)
    {w : World} (hw : At x d s₀ g hops received w) :
    ∃ w', x.call (.redeem ⟨k, x.ids 0, x.ids (m + 1)⟩) Reply.redeem? w =
        some (.ok ⟨if route.endRoute then some ⟨v.fromUid⟩ else none⟩, w') ∧
      At x d s₀ (if route.endRoute then (g.redeemed m).finalized else g.redeemed m) hops received
        w' := by
  have hcall := call_at hids (.redeem ⟨k, x.ids 0, x.ids (m + 1)⟩) Reply.redeem?
    (fun r g' => r = .ok ⟨if route.endRoute then some ⟨v.fromUid⟩ else none⟩ ∧
      g' = if route.endRoute then (g.redeemed m).finalized else g.redeemed m)
    (fun i => served_redeem hu hids hk hv hm "") (fun a h hq => ?_) hw
  · obtain ⟨r, g', w', hc, ⟨rfl, rfl⟩, hw'⟩ := hcall
    exact ⟨w', hc, hw'⟩
  · split_ifs at hq ⊢
    · exact ⟨_, ⟨by rw [hq.1]; rfl, rfl⟩, rfl, hq.2⟩
    · exact ⟨_, ⟨by rw [hq.1]; rfl, rfl⟩, rfl, hq.2⟩

theorem hop_at {k : String} (hk : Admitted x d g k) {m : Nat} (hm : m < 3) (hb : Between d m g)
    {w : World} (hw : At x d s₀ g hops received w) :
    ∃ info uid g' w', x.call (.route ⟨k, x.ids 0⟩) Reply.route? w =
        some (.ok (routeTo (x.ids (m + 1)) info false), w') ∧
      x.network.Reaches info (.proxy uid) ∧ InTransit d m uid g' ∧
      At x d s₀ g' hops received w' := by
  obtain ⟨v, hv, hours, hlen⟩ := hb.conversation
  have hid : (x.jobOf (.route ⟨k, x.ids 0⟩) g.drawn) = ⟨.route ⟨k, x.ids 0⟩, x.ids (m + 1)⟩ := by
    rw [hb.drawn]
    rfl
  have hcall := call_at hids (.route ⟨k, x.ids 0⟩) Reply.route?
    (fun r g' => ∃ info uid, r = .ok (routeTo (x.ids (m + 1)) info false) ∧
      x.network.Reaches info (.proxy uid) ∧ InTransit d m uid g')
    (fun i => hid ▸ served_hop (g := g.drew (.route ⟨k, x.ids 0⟩)) hk hv (hb.routes m) hu hids
      hours.routingId (by omega)) (fun a h hq => ?_) hw
  · obtain ⟨r, g', w', hc, ⟨info, uid, rfl, hr, ht⟩, hw'⟩ := hcall
    exact ⟨info, uid, g', w', hc, hr, ht, hw'⟩
  · obtain ⟨info, uid, hr, rfl, hs⟩ := hq
    refine ⟨(g.drew _).hop x v m info uid, ⟨info, uid, rfl, hr, ?_⟩, rfl, hs⟩
    refine ⟨congrArg (· + 1) hb.drawn, ⟨_, rfl, ⟨hours.routingId, hours.fromUid, hours.toUid⟩, ?_⟩,
      ⟨_, if_pos rfl, rfl⟩, fun n hn => (if_neg hn).trans (hb.routes n), rfl⟩
    simp [Conversation.pushRoute, hlen]

theorem final_at {k : String} (hk : Admitted x d g k) (hb : Between d 3 g) {w : World}
    (hw : At x d s₀ g hops received w) :
    ∃ g' w', x.call (.route ⟨k, x.ids 0⟩) Reply.route? w =
        some (.ok (routeTo (x.ids 4) d.recipient true), w') ∧
      Landing d g' ∧ g'.known = g.known ∧ At x d s₀ g' hops received w' := by
  obtain ⟨v, hv, hours, hlen⟩ := hb.conversation
  have hid : (x.jobOf (.route ⟨k, x.ids 0⟩) g.drawn) = ⟨.route ⟨k, x.ids 0⟩, x.ids 4⟩ := by
    rw [hb.drawn]
    rfl
  have hcall := call_at hids (.route ⟨k, x.ids 0⟩) Reply.route?
    (fun r g' => r = .ok (routeTo (x.ids 4) d.recipient true) ∧ Landing d g' ∧ g'.known = g.known)
    (fun i => hid ▸ served_final (g := g.drew (.route ⟨k, x.ids 0⟩)) (m := 3) hk hv (hb.routes 3) hu
      hids hours.routingId hlen hours.toUid) (fun a h hq => ?_) hw
  · obtain ⟨r, g', w', hc, ⟨rfl, hl, hg⟩, hw'⟩ := hcall
    exact ⟨g', w', hc, hl, hg, hw'⟩
  · obtain ⟨rfl, hs⟩ := hq
    refine ⟨(g.drew _).stored x v 3 d.recipient true, ⟨rfl, ?_, rfl⟩, rfl, hs⟩
    exact ⟨congrArg (· + 1) hb.drawn, ⟨_, rfl, hours.routingId, hours.fromUid, hours.toUid⟩,
      ⟨_, rfl, rfl⟩,
      fun n hn => (if_neg hn).trans (hb.routes n)⟩

variable (hnet : x.network.dialController = .ok ())
include hnet

theorem returns_redeem {uid k : String} (hk : Admitted x d g k) {m : Nat}
    (ht : InTransit d m uid g) :
    Prog.Returns (x.exec (n + 1) (.proxy uid)) (At x d s₀ g hops received)
      (ProxyServiceImpl.redeem (x.ids 0) k (x.ids (m + 1)))
      fun _ => At x d s₀ (g.redeemed m) hops received := by
  obtain ⟨v, hv, -⟩ := ht.conversation
  obtain ⟨route, hm, hend⟩ := ht.route
  refine Peer.returns_call_bind (B := fun _ => At x d s₀ g hops received) (fun w hw => ?_)
    fun _ => ?_
  · exact ⟨_, (), w, rfl, hnet, hw⟩
  · refine .bind (.adapt _ (Peer.returns_call fun w hw => ?_)) fun a => .pure fun w hw => hw
    obtain ⟨w', hc, hw'⟩ := redeem_at hu hids hk hv hm hw
    rw [hend] at hc hw'
    exact ⟨_, _, w', hc, rfl, hw'⟩

theorem returns_receive {k : String} (hk : Admitted x d g k) (hl : Landing d g)
    (content : List UInt8) :
    Prog.Returns (x.exec (n + 1) (.client d.toUid)) (At x d s₀ g hops received)
      (LandingServiceImpl.receive ⟨x.ids 0, k, x.ids 4, content⟩)
      fun _ => Delivered x d s₀ content received hops := by
  obtain ⟨v, hv, hours⟩ := hl.conversation
  obtain ⟨route, hm, hend⟩ := hl.route
  refine Peer.returns_call_bind (B := fun _ => At x d s₀ g hops received) (fun w hw => ?_)
    fun _ => ?_
  · exact ⟨_, (), w, rfl, hnet, hw⟩
  · refine .bind (B := fun a w => a = ⟨some ⟨d.sender.uid⟩⟩ ∧
      At x d s₀ (g.redeemed 3).finalized hops received w)
      (.adapt _ (Peer.returns_call fun w hw => ?_)) fun a => .of_imp fun ha => ?_
    · obtain ⟨w', hc, hw'⟩ := redeem_at hu hids hk hv hm hw
      rw [hend] at hc hw'
      exact ⟨_, _, w', hc, rfl, by rw [← hours.fromUid]; rfl, hw'⟩
    · subst ha
      refine .bind (B := fun _ => At x d s₀ (g.redeemed 3).finalized hops received)
        (Peer.returns_ask fun w hw => ⟨_, w, rfl, hw⟩) fun now => ?_
      refine .bind (B := fun _ => Delivered x d s₀ content received hops)
        (Peer.returns_ask fun w hw => ⟨_, _, rfl, ?_⟩) fun _ => .pure fun w hw => hw
      refine ⟨hw.reach, hw.drawn.trans hl.drawn, hw.hops, ⟨now, congrArg (· ++ _) hw.received⟩,
        hw.stage.conversation,
        fun m c => (hw.stage.routes m c).trans ?_⟩
      change (if m = 3 then none else g.routes m) = none
      split_ifs with h3
      · rfl
      · exact hl.others m h3

theorem returns_landCommand {uid k : String} (hk : Admitted x d g k) (hl : Landing d g)
    (hr : x.network.Reaches d.recipient (.client d.toUid)) (content : List UInt8) :
    Prog.Returns (x.exec (n + 2) (.proxy uid)) (At x d s₀ g hops received)
      (ProxyServiceImpl.landCommand x.network.crates
        (ProxyServiceImpl.routeSettings (routeTo (x.ids 4) d.recipient true)) (x.ids 0) (x.ids 4) k
        content) fun _ => Delivered x d s₀ content received hops := by
  obtain ⟨uri, huri, hdial⟩ := getPublicEndpoint_routeTo hr (x.ids 4) true
  unfold ProxyServiceImpl.landCommand
  rw [huri, pure_bind]
  refine Peer.returns_call_bind (B := fun a w => a = .client d.toUid ∧ At x d s₀ g hops received w)
    (fun w hw => ⟨_, _, w, rfl, hdial, rfl, hw⟩) fun node => .of_imp fun hnode => ?_
  subst hnode
  refine .bind (.adapt _ (Peer.returns_call fun w hw => ?_)) fun a => .pure fun w hw => hw
  obtain ⟨a, w', hrun, hd⟩ := returns_receive n hu hids hnet hk hl content w hw
  exact ⟨_, a, w', hrun, rfl, hd⟩

theorem returns_send_final {uid k : String} (hk : Admitted x d g k) (hb : Between d 3 g)
    (content : List UInt8) :
    Prog.Returns (x.exec (n + 2) (.proxy uid)) (At x d s₀ g hops received)
      (ProxyServiceImpl.send x.network.crates (x.ids 0) k content)
      fun _ => Delivered x d s₀ content received hops := by
  refine Peer.returns_call_bind (B := fun _ => At x d s₀ g hops received)
    (fun w hw => ⟨_, (), w, rfl, hnet, hw⟩) fun _ => ?_
  refine .bind (B := fun r w => ∃ g', (r = routeTo (x.ids 4) d.recipient true ∧ Landing d g' ∧
      g'.known = g.known) ∧ At x d s₀ g' hops received w)
    (.adapt _ (Peer.returns_call fun w hw => ?_)) fun r => .exists fun g' => .of_imp fun hr => ?_
  · obtain ⟨g', w', hc, hl, hg, hw'⟩ := final_at hu hids hk hb hw
    exact ⟨_, _, w', hc, rfl, g', ⟨rfl, hl, hg⟩, hw'⟩
  · obtain ⟨rfl, hl, hg⟩ := hr
    rw [if_pos (show (routeTo (x.ids 4) d.recipient true).endRoute = true from rfl)]
    have hk' : Admitted x d g' k := fun s hs hknown => hk s hs (hg ▸ hknown)
    intro w hw
    exact returns_landCommand n hu hids hnet hk' hl hw.stage.scene.reaches content w hw

theorem returns_send_hop {depth m rest : Nat} {uid k : String} (hk : Admitted x d g k) (hm : m < 3)
    (hb : Between d m g) {content : List UInt8}
    (hnext : ∀ uid' g', InTransit d m uid' g' →
      Prog.Returns (x.exec depth (.proxy uid')) (At x d s₀ g' (hops ++ [uid']) received)
        (ProxyServiceImpl.executeCommand x.network.crates (hopRequest x m content))
        (Forwards x d s₀ content received (hops ++ [uid']) rest)) :
    Prog.Returns (x.exec (depth + 1) (.proxy uid)) (At x d s₀ g hops received)
      (ProxyServiceImpl.send x.network.crates (x.ids 0) k content)
      fun _ w => ∃ more, more.length = rest + 1 ∧
        Delivered x d s₀ content received (hops ++ more) w := by
  refine Peer.returns_call_bind (B := fun _ => At x d s₀ g hops received)
    (fun w hw => ⟨_, (), w, rfl, hnet, hw⟩) fun _ => ?_
  refine .bind (B := fun r w => ∃ g', (∃ info uid', r = routeTo (x.ids (m + 1)) info false ∧
      x.network.Reaches info (.proxy uid') ∧ InTransit d m uid' g') ∧ At x d s₀ g' hops received w)
    (.adapt _ (Peer.returns_call fun w hw => ?_)) fun r => .exists fun g' => .of_imp fun hr => ?_
  · obtain ⟨info, uid', g', w', hc, hr, ht, hw'⟩ := hop_at hu hids hk hm hb hw
    exact ⟨_, _, w', hc, rfl, g', ⟨info, uid', rfl, hr, ht⟩, hw'⟩
  · obtain ⟨info, uid', rfl, hr, ht⟩ := hr
    obtain ⟨uri, huri, hdial⟩ := getPublicEndpoint_routeTo hr (x.ids (m + 1)) false
    rw [if_neg (show (routeTo (x.ids (m + 1)) info false).endRoute ≠ true from Bool.false_ne_true)]
    unfold ProxyServiceImpl.routeCommand
    rw [huri, pure_bind]
    refine Peer.returns_call_bind (B := fun a w => a = .proxy uid' ∧ At x d s₀ g' hops received w)
      (fun w hw => ⟨_, _, w, rfl, hdial, rfl, hw⟩) fun node => .of_imp fun hnode => ?_
    subst hnode
    exact .bind (.adapt _ (sendCommand_at (hnext uid' g' ht))) fun a => .pure fun w hw => hw.2

theorem returns_redeemed {m : Nat} {uid : String} {content : List UInt8} {Q : World → Prop}
    (ht : InTransit d m uid g)
    (hsend : ∀ k, Admitted x d (g.redeemed m) k →
      Prog.Returns (x.exec (n + 1) (.proxy uid)) (At x d s₀ (g.redeemed m) hops received)
        (ProxyServiceImpl.send x.network.crates (x.ids 0) k content) fun _ => Q) :
    Prog.Returns (x.exec (n + 1) (.proxy uid)) (At x d s₀ g hops received)
      (ProxyServiceImpl.executeCommand x.network.crates (hopRequest x m content))
      fun a w => a = ⟨some "Message sent"⟩ ∧ Q w := by
  intro w hw
  obtain ⟨k, hk⟩ := hw.session ht.known
  have hadm : Admitted x d g k := admitted_of_known hk ht.known
  refine Prog.Returns.bind (returns_checkAuthentication n hk) (fun a => .of_imp fun ha => ?_) w hw
  subst ha
  refine .bind (returns_redeem n hu hids hnet hadm ht) fun _ => ?_
  simp only [hopRequest, CommandType.tryFrom_toI32, Option.getD_some]
  exact .bind (hsend _ hadm) fun _ => .pure fun w hw => ⟨rfl, hw⟩

/-- A proxy that is handed a route forwards the message, by as many further proxies as are missing
to three, to the client. -/
theorem returns_executeCommand (content : List UInt8) (rest : Nat) :
    ∀ {m : Nat} {uid : String} {g : Progress} {hops : List String}, m + rest = 2 →
      InTransit d m uid g →
      Prog.Returns (x.exec (n + rest + 2) (.proxy uid)) (At x d s₀ g hops received)
        (ProxyServiceImpl.executeCommand x.network.crates (hopRequest x m content))
        (Forwards x d s₀ content received hops rest) := by
  induction rest with
  | zero =>
    intro m uid g hops hm ht
    obtain rfl : m = 2 := by omega
    refine returns_redeemed (n + 1) hu hids hnet ht fun k hk w hw => ?_
    obtain ⟨a, w', hrun, hd⟩ := returns_send_final n hu hids hnet hk ht.redeemed content w hw
    exact ⟨a, w', hrun, [], rfl, (List.append_nil hops).symm ▸ hd⟩
  | succ rest ih =>
    intro m uid g hops hm ht
    refine returns_redeemed (n + rest + 2) hu hids hnet ht fun k hk => ?_
    exact returns_send_hop hu hids hnet hk (by omega) ht.redeemed
      fun uid' g' ht' => ih (by omega) ht'

end
end
end FuzzyChat
