import FuzzyChat.Peers.Services
import FuzzyChat.Interleave.Dialogue

/-! What a proxy asks of its collaborators, in which order, and what it answers in the end. -/

namespace FuzzyChat
open Interleave Peer

abbrev Exchange := Sigma PeerOp.Res

namespace Exchange

def failed : Exchange → Bool
  | ⟨.connectController, r⟩ => !r.isOk
  | ⟨.initConversation _, r⟩ => !r.isOk
  | ⟨.getRoute _, r⟩ => !r.isOk
  | ⟨.redeem _, r⟩ => !r.isOk
  | ⟨.getStatus _, r⟩ => !r.isOk
  | ⟨.connectProxy .., r⟩ => !r.isOk
  | ⟨.connectLander .., r⟩ => !r.isOk
  | ⟨.executeCommand .., r⟩ => !r.isOk
  | ⟨.receive .., r⟩ => !r.isOk
  | ⟨.isAuthenticated, r⟩ => !r
  | ⟨.getSession, _⟩ => false
  | ⟨.channel _, r⟩ => !r
  | ⟨.instantNow, _⟩ => false

def connected? : Exchange → Option Node
  | ⟨.connectProxy .., .ok node⟩ => some node
  | ⟨.connectLander .., .ok node⟩ => some node
  | _ => none

end Exchange

namespace PeerOp

def contacts : PeerOp → Bool
  | connectProxy .. | connectLander .. => true
  | _ => false

def delivers : PeerOp → Bool
  | executeCommand .. | receive .. => true
  | _ => false

/-- A route, a lander or a proxy is asked for, or handed a message. -/
@[simp] def onward : PeerOp → Bool
  | getRoute _ | connectProxy .. | connectLander .. | executeCommand .. | receive .. => true
  | connectController | initConversation _ | redeem _ | getStatus _ | isAuthenticated | getSession
  | channel _ | instantNow => false

theorem contacts_of_quiet {op : PeerOp} (h : op.onward = false) : op.contacts = false := by
  cases op with
  | connectProxy | connectLander => nomatch h
  | _ => rfl

theorem delivers_of_quiet {op : PeerOp} (h : op.onward = false) : op.delivers = false := by
  cases op with
  | executeCommand | receive => nomatch h
  | _ => rfl

end PeerOp

def contactsOf (said : List Exchange) : List PeerOp := (said.map Sigma.fst).filter PeerOp.contacts

def deliveriesOf (said : List Exchange) : List PeerOp :=
  (said.map Sigma.fst).filter PeerOp.delivers

def connectedTo (said : List Exchange) : List Node := said.filterMap Exchange.connected?

namespace RouteResponse

def Forms (c : Crates) (route : RouteResponse) (uri : Uri) : Prop :=
  route.portNumber.toNat < 2 ^ 16 ∧
    networking.toHttpsEndpoint c route.ipAddress route.portNumber = .ok uri

def contact (route : RouteResponse) (uri : Uri) : PeerOp :=
  if route.endRoute then .connectLander uri route.publicKey route.domainName
  else .connectProxy uri route.publicKey route.domainName

def delivery (route : RouteResponse) (conversationId accessKey : String) (content : List UInt8)
    (node : Node) : PeerOp :=
  if route.endRoute then .receive node ⟨conversationId, accessKey, route.nonce, content⟩
  else .executeCommand node
    { conversationId := conversationId, nonce := route.nonce, command := CommandType.send.toI32,
      content := some content }

end RouteResponse

structure CommandRequest.Redeemed (request : CommandRequest) (accessKey : String)
    (said : List Exchange) : Prop where
  authenticated : ⟨.isAuthenticated, true⟩ ∈ said
  session : ∃ uid, ⟨.getSession, ⟨some accessKey, uid⟩⟩ ∈ said
  redeemed : ∃ answer,
    ⟨.redeem ⟨accessKey, request.conversationId, request.nonce⟩, .ok answer⟩ ∈ said

def CommandRequest.isSend (request : CommandRequest) : Bool :=
  CommandType.tryFrom request.command == some .send

structure ForwardsFaithfully (c : Crates) (request : CommandRequest) (said : List Exchange)
    (res : Except Abort CommandResponse) : Prop where
  /-- Nothing is asked for onwards before the request is redeemed. -/
  gated : ∀ pre x post, said = pre ++ x :: post → x.1.onward = true →
    ∃ accessKey, request.Redeemed accessKey pre
  /-- A message that is not to be sent goes nowhere. -/
  quiet : request.isSend = false → ∀ x ∈ said, x.1.onward = false
  unrouted : (∀ q route, ⟨.getRoute q, .ok route⟩ ∉ said) →
    contactsOf said = [] ∧ deliveriesOf said = []
  /-- Whom the route leads to is contacted once, and handed the message at most once. -/
  routed : ∀ q route, ⟨.getRoute q, .ok route⟩ ∈ said → ∃ accessKey uri,
    request.Redeemed accessKey said ∧ q = ⟨accessKey, request.conversationId⟩ ∧
    route.Forms c uri ∧ contactsOf said = [route.contact uri] ∧
    deliveriesOf said = (connectedTo said).map
      (route.delivery request.conversationId accessKey (request.content.getD []))
  sent : res = .ok ⟨some "Message sent"⟩ → request.isSend = true ∧
    (∃ q route node, ⟨.getRoute q, .ok route⟩ ∈ said ∧ connectedTo said = [node]) ∧
    ∀ x ∈ said, x.failed = false
  /-- A message that nothing stops is sent. -/
  through : request.isSend = true → (∀ x ∈ said, x.failed = false) →
    (∀ session, ⟨.getSession, session⟩ ∈ said → session.isAuthenticated = true) →
    res = .ok ⟨some "Message sent"⟩
  /-- The first call that fails is the last that is made. -/
  stops : ∀ pre x post, said = pre ++ x :: post → x.failed = true →
    post = [] ∧ ∃ status, res = .error (.status status)

/-! How the programs go, from the first call to the last that is made. -/

def RouteResponse.endpoint (c : Crates) (route : RouteResponse) : Except Fault Uri :=
  networking.toHttpsEndpoint c route.ipAddress route.portNumber.toUInt16.toUInt32

section goes
variable (c : Crates) (conversationId accessKey : String) (content : List UInt8)

inductive Forwarding (route : RouteResponse) (uri : Uri) : List Exchange → Except Abort Unit → Prop
  | unlanded (h : route.endRoute = true) (e : Fault) (s : Status) :
      Forwarding route uri [⟨.connectLander uri route.publicKey route.domainName, .error e⟩]
        (.error (.status s))
  | landed (h : route.endRoute = true) (node : Node) (answer : Except Abort TextResponse)
      {res : Except Abort Unit} (hres : res.isOk = answer.isOk) :
      Forwarding route uri [⟨.connectLander uri route.publicKey route.domainName, .ok node⟩,
        ⟨.receive node ⟨conversationId, accessKey, route.nonce, content⟩, answer⟩] res
  | unrouted (h : route.endRoute = false) (e : Fault) (s : Status) :
      Forwarding route uri [⟨.connectProxy uri route.publicKey route.domainName, .error e⟩]
        (.error (.status s))
  | routed (h : route.endRoute = false) (node : Node) (answer : Except Abort CommandResponse)
      {res : Except Abort Unit} (hres : res.isOk = answer.isOk) :
      Forwarding route uri [⟨.connectProxy uri route.publicKey route.domainName, .ok node⟩,
        ⟨.executeCommand node
          { conversationId := conversationId, nonce := route.nonce,
            command := CommandType.send.toI32, content := some content }, answer⟩] res

inductive Sending : List Exchange → Except Abort Unit → Prop
  | noRouter (e : Fault) (s : Status) :
      Sending [⟨.connectController, .error e⟩] (.error (.status s))
  | noRoute (a : Abort) (s : Status) :
      Sending [⟨.connectController, .ok ()⟩, ⟨.getRoute ⟨accessKey, conversationId⟩, .error a⟩]
        (.error (.status s))
  | noEndpoint (route : RouteResponse) {e : Fault} (h : route.endpoint c = .error e) :
      Sending [⟨.connectController, .ok ()⟩, ⟨.getRoute ⟨accessKey, conversationId⟩, .ok route⟩]
        (.error .panic)
  | forwarded (route : RouteResponse) {uri : Uri} {said : List Exchange} {res : Except Abort Unit}
      (h : route.endpoint c = .ok uri)
      (hsaid : Forwarding conversationId accessKey content route uri said res) :
      Sending (⟨.connectController, .ok ()⟩ ::
        ⟨.getRoute ⟨accessKey, conversationId⟩, .ok route⟩ :: said) res

end goes

/-! What is contacted and handed over on the way. -/

section goes
variable {c : Crates} {conversationId accessKey : String} {content : List UInt8}
  {said : List Exchange} {res : Except Abort Unit}

theorem contactsOf_append (xs ys : List Exchange) :
    contactsOf (xs ++ ys) = contactsOf xs ++ contactsOf ys := by
  simp only [contactsOf, List.map_append, List.filter_append]

theorem deliveriesOf_append (xs ys : List Exchange) :
    deliveriesOf (xs ++ ys) = deliveriesOf xs ++ deliveriesOf ys := by
  simp only [deliveriesOf, List.map_append, List.filter_append]

theorem connectedTo_append (xs ys : List Exchange) :
    connectedTo (xs ++ ys) = connectedTo xs ++ connectedTo ys := List.filterMap_append

namespace Forwarding
variable {route : RouteResponse} {uri : Uri}

theorem contactsOf_eq (h : Forwarding conversationId accessKey content route uri said res) :
    contactsOf said = [route.contact uri] := by
  cases h with
  | unlanded hroute e s | landed hroute node answer =>
    rw [RouteResponse.contact, hroute]
    rfl
  | unrouted hroute e s | routed hroute node answer =>
    rw [RouteResponse.contact, hroute]
    rfl

theorem deliveriesOf_eq (h : Forwarding conversationId accessKey content route uri said res) :
    deliveriesOf said =
      (connectedTo said).map (route.delivery conversationId accessKey content) := by
  cases h with
  | unlanded hroute e s | unrouted hroute e s => rfl
  | landed hroute node answer =>
    change _ = [route.delivery conversationId accessKey content node]
    rw [RouteResponse.delivery, hroute]
    rfl
  | routed hroute node answer =>
    change _ = [route.delivery conversationId accessKey content node]
    rw [RouteResponse.delivery, hroute]
    rfl

theorem connectedTo_eq (h : Forwarding conversationId accessKey content route uri said res)
    (hres : res = .ok ()) : ∃ node, connectedTo said = [node] := by
  cases h with
  | unlanded hroute e s | unrouted hroute e s => nomatch hres
  | landed hroute node answer | routed hroute node answer => exact ⟨node, rfl⟩

theorem exists_failed (h : Forwarding conversationId accessKey content route uri said res)
    (hres : res.isOk = false) : ∃ x ∈ said, x.failed = true := by
  cases h with
  | unlanded hroute e s | unrouted hroute e s => exact ⟨_, List.mem_singleton_self _, rfl⟩
  | landed hroute node answer hanswer | routed hroute node answer hanswer =>
    refine ⟨_, List.mem_cons_of_mem _ (List.mem_singleton_self _), ?_⟩
    simp [Exchange.failed, ← hanswer, hres]

theorem not_asked (h : Forwarding conversationId accessKey content route uri said res)
    (q : RouteRequest) (answer : Except Abort RouteResponse) :
    ⟨.getRoute q, answer⟩ ∉ said := by
  cases h with
  | unlanded | landed | unrouted | routed => simp

end Forwarding

namespace Sending

theorem unrouted (h : Sending c conversationId accessKey content said res)
    (hno : ∀ q route, ⟨.getRoute q, .ok route⟩ ∉ said) :
    contactsOf said = [] ∧ deliveriesOf said = [] := by
  cases h with
  | noRouter e s | noRoute a s => exact ⟨rfl, rfl⟩
  | noEndpoint route | forwarded route =>
    exact absurd (List.mem_cons_of_mem _ List.mem_cons_self) (hno _ route)

theorem route_eq (h : Sending c conversationId accessKey content said res) {q q' : RouteRequest}
    {route route' : RouteResponse} (hmem : ⟨.getRoute q, .ok route⟩ ∈ said)
    (hmem' : ⟨.getRoute q', .ok route'⟩ ∈ said) : route' = route := by
  cases h with
  | noRouter e s | noRoute a s => simp at hmem
  | noEndpoint asked he =>
    have hroute : q = ⟨accessKey, conversationId⟩ ∧ route = asked := by simpa using hmem
    have hroute' : q' = ⟨accessKey, conversationId⟩ ∧ route' = asked := by simpa using hmem'
    rw [hroute.2, hroute'.2]
  | forwarded asked huri h =>
    have hroute : q = ⟨accessKey, conversationId⟩ ∧ route = asked := by
      simpa [h.not_asked] using hmem
    have hroute' : q' = ⟨accessKey, conversationId⟩ ∧ route' = asked := by
      simpa [h.not_asked] using hmem'
    rw [hroute.2, hroute'.2]

theorem routed (h : Sending c conversationId accessKey content said res) {q : RouteRequest}
    {route : RouteResponse} (hmem : ⟨.getRoute q, .ok route⟩ ∈ said) {uri : Uri}
    (huri : route.endpoint c = .ok uri) :
    q = ⟨accessKey, conversationId⟩ ∧ contactsOf said = [route.contact uri] ∧
      deliveriesOf said =
        (connectedTo said).map (route.delivery conversationId accessKey content) := by
  cases h with
  | noRouter e s | noRoute a s => simp at hmem
  | noEndpoint route' he =>
    obtain ⟨rfl, rfl⟩ : q = ⟨accessKey, conversationId⟩ ∧ route = route' := by simpa using hmem
    nomatch huri.symm.trans he
  | forwarded route' huri' h =>
    have hmem' : q = ⟨accessKey, conversationId⟩ ∧ route = route' := by
      simpa [h.not_asked] using hmem
    obtain ⟨rfl, rfl⟩ := hmem'
    obtain rfl := Except.ok.inj (huri.symm.trans huri')
    exact ⟨rfl, h.contactsOf_eq, h.deliveriesOf_eq⟩

theorem sent (h : Sending c conversationId accessKey content said res) (hres : res = .ok ()) :
    ∃ q route node, ⟨.getRoute q, .ok route⟩ ∈ said ∧ connectedTo said = [node] := by
  cases h with
  | noRouter e s | noRoute a s | noEndpoint route => nomatch hres
  | forwarded route huri h =>
    obtain ⟨node, hnode⟩ := h.connectedTo_eq hres
    exact ⟨_, route, node, List.mem_cons_of_mem _ List.mem_cons_self, hnode⟩

theorem exists_failed (h : Sending c conversationId accessKey content said res)
    (hvalid : ∀ q route, ⟨.getRoute q, .ok route⟩ ∈ said → ∃ uri, route.endpoint c = .ok uri)
    (hres : res.isOk = false) : ∃ x ∈ said, x.failed = true := by
  cases h with
  | noRouter e s => exact ⟨_, List.mem_singleton_self _, rfl⟩
  | noRoute a s => exact ⟨_, List.mem_cons_of_mem _ (List.mem_singleton_self _), rfl⟩
  | noEndpoint route he =>
    obtain ⟨uri, huri⟩ := hvalid _ route (List.mem_cons_of_mem _ (List.mem_singleton_self _))
    nomatch huri.symm.trans he
  | forwarded route huri h =>
    obtain ⟨x, hmem, hx⟩ := h.exists_failed hres
    exact ⟨x, List.mem_cons_of_mem _ (List.mem_cons_of_mem _ hmem), hx⟩

end Sending
end goes

inductive Executing (c : Crates) (request : CommandRequest) :
    List Exchange → Except Abort CommandResponse → Prop
  /-- It breaks off before the request is redeemed. -/
  | held {said : List Exchange} {e : Abort} (hquiet : ∀ x ∈ said, x.1.onward = false)
      (hwhy : (∃ x ∈ said, x.failed = true) ∨
        ∃ session, ⟨.getSession, session⟩ ∈ said ∧ session.isAuthenticated = false) :
      Executing c request said (.error e)
  | kept {said : List Exchange} {res : Except Abort CommandResponse}
      (hsend : request.isSend = false) (hquiet : ∀ x ∈ said, x.1.onward = false)
      (hres : res ≠ .ok ⟨some "Message sent"⟩) : Executing c request said res
  | sending {accessKey : String} {head said : List Exchange} {r : Except Abort Unit}
      (hsend : request.isSend = true) (hquiet : ∀ x ∈ head, x.1.onward = false)
      (hredeemed : request.Redeemed accessKey head)
      (h : Sending c request.conversationId accessKey (request.content.getD []) said r) :
      Executing c request (head ++ said) (r.map fun _ => ⟨some "Message sent"⟩)

section tells
variable {ε ε' α : Type} {es : List Exchange}

theorem tells_ask {op : PeerOp} {k : op.Res → Peer ε α} {res : Except ε α}
    (h : (ask op >>= k).run.Tells es res) :
    ∃ r es', es = ⟨op, r⟩ :: es' ∧ (k r).run.Tells es' res := Prog.Tells.of_call h

theorem tells_mapErr {f : ε → ε'} {r : Except ε α} {res : Except ε' α}
    (h : (mapErr f r).run.Tells es res) : es = [] ∧ res = r.mapError f := by
  cases r with
  | ok a => exact Prog.tells_pure h
  | error e => exact Prog.tells_throw h

theorem tells_mapErr_bind {β : Type} {f : ε → ε'} {r : Except ε α} {k : α → Peer ε' β}
    {res : Except ε' β} (h : (mapErr f r >>= k).run.Tells es res) :
    (∃ e, r = .error e ∧ es = [] ∧ res = .error (f e)) ∨
      ∃ a, r = .ok a ∧ (k a).run.Tells es res := by
  cases r with
  | ok a => exact .inr ⟨a, rfl, h⟩
  | error e =>
    obtain ⟨rfl, rfl⟩ := Prog.tells_throw h
    exact .inl ⟨e, rfl, rfl, rfl⟩

theorem tells_adapted {δ β : Type} {op : PeerOp} {v : op.Res → Except δ α} {g : δ → ε}
    {f : ε → ε'} {k : α → Peer ε' β} {res : Except ε' β}
    (h : ((ask op >>= fun r => mapErr g (v r)).adapt f >>= k).run.Tells es res) :
    ∃ r, (∃ e, v r = .error e ∧ es = [⟨op, r⟩] ∧ res = .error (f (g e))) ∨
      ∃ a es', v r = .ok a ∧ es = ⟨op, r⟩ :: es' ∧ (k a).run.Tells es' res := by
  have hsame : (ask op >>= fun r => mapErr g (v r)).adapt f >>= k =
      ask op >>= fun r => mapErr (f ∘ g) (v r) >>= k := by
    refine Prog.call_congr fun r => ?_
    change ((mapErr g (v r)).adapt f >>= k : Peer ε' β).run = (mapErr (f ∘ g) (v r) >>= k).run
    cases v r with
    | ok a => rfl
    | error e => rfl
  rw [hsame] at h
  obtain ⟨r, es', rfl, h'⟩ := tells_ask h
  refine ⟨r, ?_⟩
  rcases tells_mapErr_bind h' with ⟨e, hv, rfl, rfl⟩ | ⟨a, hv, h''⟩
  · exact .inl ⟨e, hv, rfl, rfl⟩
  · exact .inr ⟨a, es', hv, rfl, h''⟩

theorem tells_connected {δ δ' β γ : Type} {op : PeerOp} {v : op.Res → Except δ β} {f : δ → ε'}
    {op' : β → PeerOp} {w : ∀ b, (op' b).Res → Except δ' γ} {g : δ' → ε} {f' : ε → ε'}
    {res : Except ε' Unit}
    (h : (ask op >>= fun r => mapErr f (v r) >>= fun b =>
      (ask (op' b) >>= fun r => mapErr g (w b r)).adapt f' >>= fun _ => pure ()).run.Tells es res) :
    ∃ r, (∃ e, v r = .error e ∧ es = [⟨op, r⟩] ∧ res = .error (f e)) ∨
      ∃ b answer, v r = .ok b ∧ es = [⟨op, r⟩, ⟨op' b, answer⟩] ∧
        res.isOk = (w b answer).isOk := by
  obtain ⟨r, es₁, rfl, h₁⟩ := tells_ask h
  refine ⟨r, ?_⟩
  rcases tells_mapErr_bind h₁ with ⟨e, hv, rfl, rfl⟩ | ⟨b, hv, h₂⟩
  · exact .inl ⟨e, hv, rfl, rfl⟩
  · obtain ⟨answer, ⟨e, hw, rfl, rfl⟩ | ⟨a, es₂, hw, rfl, h₃⟩⟩ := tells_adapted h₂
    · exact .inr ⟨b, answer, hv, rfl, by rw [hw]; rfl⟩
    · obtain ⟨rfl, rfl⟩ := Prog.tells_pure h₃
      exact .inr ⟨b, answer, hv, rfl, by rw [hw]; rfl⟩

namespace ProxyServiceImpl
variable {c : Crates} {conversationId accessKey nonce : String} {content : List UInt8}

theorem tells_checkAuthentication {res : Except Abort String}
    (h : checkAuthentication.run.Tells es res) :
    (es = [⟨.isAuthenticated, false⟩] ∧ ∃ e, res = .error e) ∨
      ∃ session, es = [⟨.isAuthenticated, true⟩, ⟨.getSession, session⟩] ∧
        res = session.accessKey.elim (.error .panic) .ok := by
  obtain ⟨authenticated, es₁, rfl, h₁⟩ := tells_ask h
  cases authenticated with
  | false =>
    obtain ⟨rfl, rfl⟩ := Prog.tells_throw h₁
    exact .inl ⟨rfl, _, rfl⟩
  | true =>
    obtain ⟨session, es₂, rfl, h₂⟩ := tells_ask h₁
    refine .inr ⟨session, ?_⟩
    cases hkey : session.accessKey with
    | none =>
      rw [hkey] at h₂
      obtain ⟨rfl, rfl⟩ := Prog.tells_throw h₂
      exact ⟨rfl, rfl⟩
    | some key =>
      rw [hkey] at h₂
      obtain ⟨rfl, rfl⟩ := Prog.tells_pure h₂
      exact ⟨rfl, rfl⟩

theorem tells_redeem {res : Except Abort Unit}
    (h : (redeem conversationId accessKey nonce).run.Tells es res) :
    (∃ e, es = [⟨.connectController, .error e⟩] ∧ ∃ e, res = .error e) ∨
      ∃ answer, es = [⟨.connectController, .ok ()⟩,
        ⟨.redeem ⟨accessKey, conversationId, nonce⟩, answer⟩] ∧ res.isOk = answer.isOk := by
  obtain ⟨r, ⟨e, rfl, rfl, rfl⟩ | ⟨⟨⟩, answer, rfl, rfl, hres⟩⟩ := tells_connected h
  · exact .inl ⟨e, rfl, _, rfl⟩
  · exact .inr ⟨answer, rfl, hres⟩

theorem tells_status {res : Except Abort StatusResponse}
    (h : (status accessKey).run.Tells es res) : ∀ x ∈ es, x.1.onward = false := by
  obtain ⟨r, es₁, rfl, h₁⟩ := tells_ask h
  rcases tells_mapErr_bind h₁ with ⟨e, rfl, rfl, rfl⟩ | ⟨⟨⟩, rfl, h₂⟩
  · simp
  · obtain ⟨answer, es₂, rfl, h₃⟩ := tells_ask h₂
    obtain ⟨rfl, -⟩ := tells_mapErr h₃
    simp

theorem tells_landCommand {route : RouteResponse} {uri : Uri} (hroute : route.endRoute = true)
    (huri : route.endpoint c = .ok uri) {res : Except Abort Unit}
    (h : (landCommand c (routeSettings route) conversationId route.nonce accessKey
      content).run.Tells es res) :
    Forwarding conversationId accessKey content route uri es res := by
  rcases tells_mapErr_bind h with ⟨e, he, -, -⟩ | ⟨endpoint, hendpoint, h₁⟩
  · nomatch huri.symm.trans he
  · obtain rfl : uri = endpoint := Except.ok.inj (huri.symm.trans hendpoint)
    obtain ⟨r, ⟨e, rfl, rfl, rfl⟩ | ⟨node, answer, rfl, rfl, hres⟩⟩ := tells_connected h₁
    · exact .unlanded hroute e _
    · exact .landed hroute node answer hres

theorem tells_routeCommand {route : RouteResponse} {uri : Uri} (hroute : route.endRoute = false)
    (huri : route.endpoint c = .ok uri) {res : Except Abort Unit}
    (h : (routeCommand c (routeSettings route) conversationId route.nonce content).run.Tells es
      res) :
    Forwarding conversationId accessKey content route uri es res := by
  rcases tells_mapErr_bind h with ⟨e, he, -, -⟩ | ⟨endpoint, hendpoint, h₁⟩
  · nomatch huri.symm.trans he
  · obtain rfl : uri = endpoint := Except.ok.inj (huri.symm.trans hendpoint)
    obtain ⟨r, ⟨e, rfl, rfl, rfl⟩ | ⟨node, answer, rfl, rfl, hres⟩⟩ := tells_connected h₁
    · exact .unrouted hroute e _
    · exact .routed hroute node answer hres

theorem tells_unwrap (settings : ConnectionSettings) {e : Fault} {k : Uri → Peer Abort Unit}
    (he : networking.toHttpsEndpoint c settings.ip settings.port.toUInt32 = .error e)
    {res : Except Abort Unit} (h : (settings.getPublicEndpoint c >>= k).run.Tells es res) :
    es = [] ∧ res = .error .panic := by
  rcases tells_mapErr_bind h with ⟨e', -, hes, hres⟩ | ⟨endpoint, hendpoint, -⟩
  · exact ⟨hes, hres⟩
  · nomatch he.symm.trans hendpoint

theorem tells_send {res : Except Abort Unit}
    (h : (send c conversationId accessKey content).run.Tells es res) :
    Sending c conversationId accessKey content es res := by
  obtain ⟨r, es₁, rfl, h₁⟩ := tells_ask h
  rcases tells_mapErr_bind h₁ with ⟨e, rfl, rfl, rfl⟩ | ⟨⟨⟩, rfl, h₂⟩
  · exact .noRouter e _
  obtain ⟨answer, ⟨e, rfl, rfl, rfl⟩ | ⟨route, es₂, rfl, rfl, h₃⟩⟩ := tells_adapted h₂
  · exact .noRoute e _
  cases huri : route.endpoint c with
  | error e =>
    split_ifs at h₃ with hend
    · unfold landCommand at h₃
      obtain ⟨rfl, rfl⟩ := tells_unwrap (routeSettings route) huri h₃
      exact .noEndpoint route huri
    · unfold routeCommand at h₃
      obtain ⟨rfl, rfl⟩ := tells_unwrap (routeSettings route) huri h₃
      exact .noEndpoint route huri
  | ok uri =>
    split_ifs at h₃ with hend
    · exact .forwarded route huri (tells_landCommand hend huri h₃)
    · exact .forwarded route huri (tells_routeCommand (Bool.eq_false_iff.mpr hend) huri h₃)

theorem tells_executeCommand {request : CommandRequest} {res : Except Abort CommandResponse}
    (h : (executeCommand c request).run.Tells es res) : Executing c request es res := by
  rcases Prog.tells_bind h with ⟨e, hauth, rfl⟩ | ⟨es₁, es₂, accessKey, rfl, hauth, h₁⟩
  · rcases tells_checkAuthentication hauth with ⟨rfl, -⟩ | ⟨session, rfl, hkey⟩
    · exact .held (by simp) (.inl ⟨_, List.mem_singleton_self _, rfl⟩)
    · refine .held (by simp) (.inr ⟨session, by simp, ?_⟩)
      cases hnone : session.accessKey with
      | none => simp [ClientSession.isAuthenticated, hnone]
      | some key =>
        rw [hnone] at hkey
        nomatch hkey
  rcases tells_checkAuthentication hauth with ⟨-, e, he⟩ | ⟨⟨key, uid⟩, rfl, hkey⟩
  · nomatch he
  obtain rfl : key = some accessKey := by
    cases key with
    | none => nomatch hkey
    | some key => exact congrArg some (Except.ok.inj hkey.symm)
  rcases Prog.tells_bind h₁ with ⟨e, hredeem, rfl⟩ | ⟨es₃, es₄, ⟨⟩, rfl, hredeem, h₂⟩
  · rcases tells_redeem hredeem with ⟨e', rfl, -⟩ | ⟨answer, rfl, hanswer⟩
    · exact .held (by simp) (.inl ⟨⟨.connectController, .error e'⟩, by simp, rfl⟩)
    · refine .held (by simp) (.inl ⟨_, List.mem_append_right _ (List.mem_cons_of_mem _
        (List.mem_singleton_self _)), ?_⟩)
      change (!answer.isOk) = true
      rw [← hanswer]
      rfl
  rcases tells_redeem hredeem with ⟨-, -, e, he⟩ | ⟨answer, rfl, hanswer⟩
  · nomatch he
  cases answer with
  | error e => nomatch hanswer
  | ok answer =>
    rw [← List.append_assoc]
    generalize hhead : ([⟨.isAuthenticated, true⟩, ⟨.getSession, ⟨some accessKey, uid⟩⟩] ++
      [⟨.connectController, .ok ()⟩,
        ⟨.redeem ⟨accessKey, request.conversationId, request.nonce⟩, .ok answer⟩] :
      List Exchange) = head
    have hquiet : ∀ x ∈ head, x.1.onward = false := by simp [← hhead]
    have hredeemed : request.Redeemed accessKey head := by
      subst hhead
      exact ⟨by simp, ⟨uid, by simp⟩, ⟨answer, by simp⟩⟩
    cases hcommand : CommandType.tryFrom request.command with
    | none =>
      rw [hcommand] at h₂
      obtain ⟨rfl, rfl⟩ := Prog.tells_pure h₂
      exact .kept (by simp [CommandRequest.isSend, hcommand]) (by simpa using hquiet) (by simp)
    | some t =>
      rw [hcommand] at h₂
      cases t with
      | unknown =>
        obtain ⟨rfl, rfl⟩ := Prog.tells_pure h₂
        exact .kept (by simp [CommandRequest.isSend, hcommand]) (by simpa using hquiet) (by simp)
      | send =>
        have hsend : request.isSend = true := by simp [CommandRequest.isSend, hcommand]
        rcases Prog.tells_bind h₂ with ⟨e, h₃, rfl⟩ | ⟨es₅, es₆, ⟨⟩, rfl, h₃, h₄⟩
        · exact .sending hsend hquiet hredeemed (tells_send h₃)
        · obtain ⟨rfl, rfl⟩ := Prog.tells_pure h₄
          rw [List.append_nil]
          exact .sending hsend hquiet hredeemed (tells_send h₃)
      | status =>
        have hkept : request.isSend = false := by simp [CommandRequest.isSend, hcommand]
        rcases Prog.tells_bind h₂ with ⟨e, h₃, rfl⟩ | ⟨es₅, es₆, answer', rfl, h₃, h₄⟩
        · exact .kept hkept (List.forall_mem_append.mpr ⟨hquiet, tells_status h₃⟩) (by simp)
        · obtain ⟨rfl, rfl⟩ := Prog.tells_pure h₄
          rw [List.append_nil]
          refine .kept hkept (List.forall_mem_append.mpr ⟨hquiet, tells_status h₃⟩) fun heq => ?_
          have htext : "Status: " ++ c.debug answer' = "Message sent" := by simpa using heq
          have hfirst := congrArg (fun text : String => text.toList.head?) htext
          simp at hfirst

end ProxyServiceImpl
end tells

/-! The first call that fails is the last. -/

def Abort.IsStatus (a : Abort) : Prop := ∃ s, a = .status s

section stops
variable {ε δ α β : Type} {E : ε → Prop}

abbrev Stops (E : ε → Prop) (p : Peer ε α) : Prop := Prog.StopsAt (Exchange.failed · = true) E p

theorem stops_mapErr {f : δ → ε} {r : Except δ α} : Stops E (mapErr f r) :=
  .of_silent fun _ _ h => (tells_mapErr h).1

theorem stops_ask {op : PeerOp} {v : op.Res → Except δ α} {f : δ → ε}
    (hv : ∀ r, Exchange.failed ⟨op, r⟩ = !(v r).isOk) (hf : ∀ e, E (f e)) :
    Stops E (ask op >>= fun r => mapErr f (v r)) := by
  refine Prog.StopsAt.call (fun r hr => ?_) fun r => stops_mapErr
  have herr : (v r).isOk = false := by simpa [hv] using hr
  change ∃ e, (mapErr f (v r) : Peer ε α) = throw e ∧ E e
  cases hr' : v r with
  | ok a =>
    rw [hr'] at herr
    nomatch herr
  | error e => exact ⟨f e, rfl, hf e⟩

theorem stops_step {op : PeerOp} {v : op.Res → Except δ α} {f : δ → ε} {k : α → Peer ε β}
    (hv : ∀ r, Exchange.failed ⟨op, r⟩ = !(v r).isOk) (hf : ∀ e, E (f e))
    (hk : ∀ a, Stops E (k a)) : Stops E (ask op >>= fun r => mapErr f (v r) >>= k) :=
  (stops_ask hv hf).bind hk

theorem stops_adapted {op : PeerOp} {v : op.Res → Except δ α} {g : δ → ε}
    {f : ε → Abort} {k : α → Peer Abort β} (hv : ∀ r, Exchange.failed ⟨op, r⟩ = !(v r).isOk)
    (hf : ∀ e, (f e).IsStatus) (hk : ∀ a, Stops Abort.IsStatus (k a)) :
    Stops Abort.IsStatus ((ask op >>= fun r => mapErr g (v r)).adapt f >>= k) :=
  (Prog.StopsAt.adapt (stops_ask (E := fun _ => True) hv fun _ => trivial) fun e _ => hf e).bind hk

end stops

namespace ProxyServiceImpl
variable {c : Crates} {settings : ConnectionSettings} {conversationId accessKey nonce : String}
  {content : List UInt8}

theorem stops_checkAuthentication : Stops Abort.IsStatus checkAuthentication := by
  refine Prog.StopsAt.call (fun r hr => ?_) fun r => ?_
  · cases r with
    | true => cases hr
    | false => exact ⟨_, rfl, _, rfl⟩
  · cases r with
    | true =>
      refine Prog.StopsAt.call (fun session hsession => ?_) fun session => ?_
      · cases hsession
      · obtain ⟨accessKey⟩ := session
        cases accessKey with
        | none => exact .throw _
        | some accessKey => exact .pure _
    | false => exact .throw _

theorem stops_redeem : Stops Abort.IsStatus (redeem conversationId accessKey nonce) := by
  refine stops_step (fun _ => rfl) (fun _ => ⟨_, rfl⟩) fun _ => ?_
  exact stops_adapted (fun _ => rfl) (fun _ => ⟨_, rfl⟩) fun _ => .pure _

theorem stops_status : Stops Abort.IsStatus (status accessKey) := by
  refine stops_step (fun _ => rfl) (fun _ => ⟨_, rfl⟩) fun _ => ?_
  exact stops_ask (fun _ => rfl) fun _ => ⟨_, rfl⟩

theorem stops_landCommand :
    Stops Abort.IsStatus (landCommand c settings conversationId nonce accessKey content) := by
  refine stops_mapErr.bind fun endpoint => ?_
  refine stops_step (fun _ => rfl) (fun _ => ⟨_, rfl⟩) fun node => ?_
  exact stops_adapted (fun _ => rfl) (fun _ => ⟨_, rfl⟩) fun _ => .pure _

theorem stops_routeCommand :
    Stops Abort.IsStatus (routeCommand c settings conversationId nonce content) := by
  refine stops_mapErr.bind fun endpoint => ?_
  refine stops_step (fun _ => rfl) (fun _ => ⟨_, rfl⟩) fun node => ?_
  exact stops_adapted (fun _ => rfl) (fun _ => ⟨_, rfl⟩) fun _ => .pure _

theorem stops_send : Stops Abort.IsStatus (send c conversationId accessKey content) := by
  refine stops_step (fun _ => rfl) (fun _ => ⟨_, rfl⟩) fun _ => ?_
  refine stops_adapted (fun _ => rfl) (fun _ => ⟨_, rfl⟩) fun route => ?_
  split_ifs
  · exact stops_landCommand
  · exact stops_routeCommand

theorem stops_executeCommand {request : CommandRequest} :
    Stops Abort.IsStatus (executeCommand c request) := by
  refine stops_checkAuthentication.bind fun accessKey => ?_
  refine stops_redeem.bind fun _ => ?_
  split
  · exact stops_status.bind fun _ => .pure _
  · exact stops_send.bind fun _ => .pure _
  · exact .pure _

end ProxyServiceImpl

section main
variable {c : Crates} {request : CommandRequest} {said : List Exchange}
  {res : Except Abort CommandResponse}

theorem RouteResponse.Forms.endpoint_eq {route : RouteResponse} {uri : Uri}
    (h : route.Forms c uri) : route.endpoint c = .ok uri := by
  rw [RouteResponse.endpoint, (toUInt32_toUInt16_eq route.portNumber).mpr h.1]
  exact h.2

theorem filter_of_quiet {f : PeerOp → Bool} (hf : ∀ {op : PeerOp}, op.onward = false → f op = false)
    (h : ∀ x ∈ said, x.1.onward = false) : (said.map Sigma.fst).filter f = [] := by
  rw [List.filter_eq_nil_iff]
  intro op hop
  obtain ⟨x, hx, rfl⟩ := List.mem_map.mp hop
  simp [hf (h x hx)]

theorem contactsOf_of_quiet (h : ∀ x ∈ said, x.1.onward = false) : contactsOf said = [] :=
  filter_of_quiet PeerOp.contacts_of_quiet h

theorem deliveriesOf_of_quiet (h : ∀ x ∈ said, x.1.onward = false) : deliveriesOf said = [] :=
  filter_of_quiet PeerOp.delivers_of_quiet h

theorem connectedTo_of_quiet (h : ∀ x ∈ said, x.1.onward = false) : connectedTo said = [] := by
  rw [connectedTo, List.filterMap_eq_nil_iff]
  rintro ⟨op, r⟩ hx
  have hop := h _ hx
  cases op with
  | connectProxy | connectLander => nomatch hop
  | _ => rfl

theorem before_of_onward {head sent pre post : List Exchange} {x : Exchange}
    (hquiet : ∀ x ∈ head, x.1.onward = false) (h : head ++ sent = pre ++ x :: post)
    (hx : x.1.onward = true) : ∃ mid, pre = head ++ mid := by
  rcases List.append_eq_append_iff.mp h with ⟨mid, rfl, -⟩ | ⟨mid, rfl, hmid⟩
  · exact ⟨mid, rfl⟩
  · cases mid with
    | nil => exact ⟨[], by simp⟩
    | cons y mid =>
      obtain ⟨rfl, -⟩ := List.cons.inj hmid
      have hno := hquiet x (List.mem_append_right _ List.mem_cons_self)
      rw [hx] at hno
      nomatch hno

theorem CommandRequest.Redeemed.mono {accessKey : String} {head : List Exchange}
    (h : request.Redeemed accessKey head) (hsub : head ⊆ said) :
    request.Redeemed accessKey said where
  authenticated := hsub h.authenticated
  session := h.session.imp fun _ hmem => hsub hmem
  redeemed := h.redeemed.imp fun _ hmem => hsub hmem

theorem ForwardsFaithfully.of_quiet (hquiet : ∀ x ∈ said, x.1.onward = false)
    (hres : res ≠ .ok ⟨some "Message sent"⟩)
    (hbroken : request.isSend = true → (∃ x ∈ said, x.failed = true) ∨
      ∃ session, ⟨.getSession, session⟩ ∈ said ∧ session.isAuthenticated = false)
    (hstops : ∀ pre x post, said = pre ++ x :: post → x.failed = true →
      post = [] ∧ ∃ status, res = .error (.status status)) :
    ForwardsFaithfully c request said res where
  gated := by
    rintro pre x post rfl hx
    have hno := hquiet x (List.mem_append_right _ List.mem_cons_self)
    rw [hx] at hno
    nomatch hno
  quiet := fun _ => hquiet
  unrouted := fun _ => ⟨contactsOf_of_quiet hquiet, deliveriesOf_of_quiet hquiet⟩
  routed := fun q route hmem => nomatch hquiet _ hmem
  sent := fun h => absurd h hres
  through := by
    intro hsend hok hsession
    rcases hbroken hsend with ⟨x, hx, hfailed⟩ | ⟨session, hx, hno⟩
    · rw [hok x hx] at hfailed
      nomatch hfailed
    · rw [hsession session hx] at hno
      nomatch hno
  stops := hstops

/-- Every run of a command forwards as it should, whatever the collaborators answer. -/
theorem forwards_faithfully
    (htells : (ProxyServiceImpl.executeCommand c request).run.Tells said res)
    (hvalid : ∀ q route, ⟨.getRoute q, .ok route⟩ ∈ said → ∃ uri, route.Forms c uri) :
    ForwardsFaithfully c request said res := by
  have hstops : ∀ pre x post, said = pre ++ x :: post → x.failed = true →
      post = [] ∧ ∃ status, res = .error (.status status) := by
    intro pre x post hsaid hx
    obtain ⟨hpost, e, hres, status, rfl⟩ :=
      ProxyServiceImpl.stops_executeCommand said res htells pre x post hsaid hx
    exact ⟨hpost, status, hres⟩
  cases ProxyServiceImpl.tells_executeCommand htells with
  | held hquiet hwhy => exact .of_quiet hquiet (by simp) (fun _ => hwhy) hstops
  | kept hsend hquiet hres =>
    exact .of_quiet hquiet hres (fun h => by simp [hsend] at h) hstops
  | @sending accessKey head sent r hsend hquiet hredeemed h =>
    have hhead : ∀ q route, (⟨.getRoute q, .ok route⟩ : Exchange) ∉ head :=
      fun q route hmem => nomatch hquiet _ hmem
    have hsent : ∀ q route, ⟨.getRoute q, .ok route⟩ ∈ head ++ sent →
        ⟨.getRoute q, .ok route⟩ ∈ sent :=
      fun q route hmem => (List.mem_append.mp hmem).resolve_left (hhead q route)
    have hendpoint : ∀ q route, ⟨.getRoute q, .ok route⟩ ∈ sent →
        ∃ uri, route.endpoint c = .ok uri := by
      intro q route hmem
      obtain ⟨uri, huri⟩ := hvalid q route (List.mem_append_right _ hmem)
      exact ⟨uri, huri.endpoint_eq⟩
    constructor
    case gated =>
      intro pre x post hsaid hx
      obtain ⟨mid, rfl⟩ := before_of_onward hquiet hsaid hx
      exact ⟨accessKey, hredeemed.mono (List.subset_append_left _ _)⟩
    case quiet =>
      intro hno
      rw [hsend] at hno
      nomatch hno
    case unrouted =>
      intro hno
      obtain ⟨hcontacts, hdeliveries⟩ :=
        h.unrouted fun q route hmem => hno q route (List.mem_append_right _ hmem)
      rw [contactsOf_append, deliveriesOf_append, contactsOf_of_quiet hquiet,
        deliveriesOf_of_quiet hquiet, hcontacts, hdeliveries]
      exact ⟨rfl, rfl⟩
    case routed =>
      intro q route hmem
      obtain ⟨uri, huri⟩ := hvalid q route hmem
      obtain ⟨hq, hcontacts, hdeliveries⟩ := h.routed (hsent q route hmem) huri.endpoint_eq
      refine ⟨accessKey, uri, hredeemed.mono (List.subset_append_left _ _), hq, huri, ?_, ?_⟩
      · rw [contactsOf_append, contactsOf_of_quiet hquiet, List.nil_append, hcontacts]
      · rw [deliveriesOf_append, deliveriesOf_of_quiet hquiet, connectedTo_append,
          connectedTo_of_quiet hquiet, List.nil_append, List.nil_append, hdeliveries]
    case sent =>
      intro hres
      refine ⟨hsend, ?_, ?_⟩
      · have hr : r = .ok () := by
          cases r with
          | ok => rfl
          | error e => nomatch hres
        obtain ⟨q, route, node, hmem, hnode⟩ := h.sent hr
        refine ⟨q, route, node, List.mem_append_right _ hmem, ?_⟩
        rw [connectedTo_append, connectedTo_of_quiet hquiet, List.nil_append, hnode]
      · intro x hx
        apply Bool.eq_false_iff.mpr
        intro hfailed
        obtain ⟨pre, post, hsaid⟩ := List.append_of_mem hx
        obtain ⟨-, status, herr⟩ := hstops pre x post hsaid hfailed
        nomatch hres.symm.trans herr
    case through =>
      intro _ hok _
      cases r with
      | ok => rfl
      | error e =>
        obtain ⟨x, hx, hfailed⟩ := h.exists_failed hendpoint rfl
        rw [hok x (List.mem_append_right _ hx)] at hfailed
        nomatch hfailed
    case stops => exact hstops

end main

def sampleCrates : Crates where
  parse text := if text.toList.contains ' ' then none else some ⟨text⟩
  display _ := "status"
  debug _ := "up"

def handedOn : List Exchange := [⟨.isAuthenticated, true⟩,
  ⟨.getSession, ⟨some "k-north", some "north"⟩⟩, ⟨.connectController, .ok ()⟩,
  ⟨.redeem ⟨"k-north", "c", "n0"⟩, .ok ⟨none⟩⟩, ⟨.connectController, .ok ()⟩,
  ⟨.getRoute ⟨"k-north", "c"⟩, .ok ⟨"10.0.0.2", 8080, [2], "south", "n1", false⟩⟩,
  ⟨.connectProxy ⟨"https://10.0.0.2:8080"⟩ [2] "south", .ok (.proxy "south")⟩,
  ⟨.executeCommand (.proxy "south") ⟨"c", "n1", 1, some [104, 105]⟩, .ok ⟨some "Message sent"⟩⟩]

theorem forwards_faithfully_sample :
    ForwardsFaithfully sampleCrates ⟨"c", "n0", 1, some [104, 105]⟩ handedOn
      (.ok ⟨some "Message sent"⟩) := by
  apply forwards_faithfully
  case htells =>
    exact .step (.step (.step (.step (.step (.step (.step (.step (.done _))))))))
  case hvalid =>
    intro q route hmem
    obtain ⟨rfl, rfl⟩ : q = ⟨"k-north", "c"⟩ ∧
        route = ⟨"10.0.0.2", 8080, [2], "south", "n1", false⟩ := by simpa [handedOn] using hmem
    exact ⟨⟨"https://10.0.0.2:8080"⟩, by decide, by decide⟩

end FuzzyChat
