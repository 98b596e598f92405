import FuzzyChat.Interleave.Twins
import FuzzyChat.Peers.Services

/-! Where a component's access key goes: two runs of a service that differ in the key alone, and what
they send. -/

namespace FuzzyChat
open Interleave Peer

/-- What a component is answered at one of its steps, whichever operation it is that it asks for. -/
structure Answers where
  connectController : Except Fault Unit
  initConversation : Except Abort InitResponse
  getRoute : Except Abort RouteResponse
  redeem : Except Abort RedeemResponse
  getStatus : Except Abort StatusResponse
  connect : Except Fault Node
  executeCommand : Except Abort CommandResponse
  receive : Except Abort TextResponse
  isAuthenticated : Bool
  uid : Option String
  channel : Bool
  instantNow : Nat

def Answers.answer (accessKey : String) (a : Answers) : (op : PeerOp) → op.Res
  | .connectController => a.connectController
  | .initConversation _ => a.initConversation
  | .getRoute _ => a.getRoute
  | .redeem _ => a.redeem
  | .getStatus _ => a.getStatus
  | .connectProxy .. | .connectLander .. => a.connect
  | .executeCommand .. => a.executeCommand
  | .receive .. => a.receive
  | .isAuthenticated => a.isAuthenticated
  | .getSession => ⟨some accessKey, a.uid⟩
  | .channel _ => a.channel
  | .instantNow => a.instantNow

namespace PeerOp

def toProxies : PeerOp → Bool
  | connectProxy .. | executeCommand .. => true
  | _ => false

def toClients : PeerOp → Bool
  | connectLander .. | receive .. => true
  | _ => false

def toOthers (op : PeerOp) : Bool := op.toProxies || op.toClients

def withKey (accessKey : String) : PeerOp → PeerOp
  | initConversation r => initConversation { r with accessKey := accessKey }
  | getRoute r => getRoute { r with accessKey := accessKey }
  | redeem r => redeem { r with accessKey := accessKey }
  | getStatus r => getStatus { r with accessKey := accessKey }
  | receive node r => receive node { r with accessKey := accessKey }
  | op => op

theorem withKey_of_toProxies {accessKey : String} {op : PeerOp} (h : op.toProxies = true) :
    op.withKey accessKey = op := by
  cases op with
  | connectProxy | executeCommand => rfl
  | _ => nomatch h

@[simp] theorem toProxies_withKey (accessKey : String) (op : PeerOp) :
    (op.withKey accessKey).toProxies = op.toProxies := by
  cases op <;> rfl

@[simp] theorem toClients_withKey (accessKey : String) (op : PeerOp) :
    (op.withKey accessKey).toClients = op.toClients := by
  cases op <;> rfl

@[simp] theorem toOthers_withKey (accessKey : String) (op : PeerOp) :
    (op.withKey accessKey).toOthers = op.toOthers := by
  rw [toOthers, toProxies_withKey, toClients_withKey, toOthers]

end PeerOp

def Peer.asked {ε α : Type} (accessKey : String) (answers : Nat → Answers) (p : Peer ε α) :
    List PeerOp × Except ε α :=
  Prog.asked (fun n => (answers n).answer accessKey) 0 p.run

def Peer.sent {ε α : Type} (whom : PeerOp → Bool) (accessKey : String) (answers : Nat → Answers)
    (p : Peer ε α) : List PeerOp := (p.asked accessKey answers).1.filter whom

def Rekeyed (accessKey : String) (op op' : PeerOp) : Prop := op' = op.withKey accessKey

def RekeyedWithin (accessKey : String) (op op' : PeerOp) : Prop :=
  Rekeyed accessKey op op' ∧ (op.toOthers = true → op' = op)

section
variable {ε ε' α β : Type} {answers : Nat → Answers} {k k' : String} {E : PeerOp → PeerOp → Prop}
  {n : Nat}

abbrev Paired (answers : Nat → Answers) (k k' : String) (E : PeerOp → PeerOp → Prop) (n : Nat)
    (p : Peer ε α) (p' : Peer ε β) (Q : α → β → Prop) : Prop :=
  Prog.Twins (fun n => (answers n).answer k) (fun n => (answers n).answer k') E n p p' Q

theorem paired_mapErr (f : ε → ε') (x : Except ε α) :
    Paired answers k k' E n (mapErr f x : Peer ε' α) (mapErr f x) Eq := by
  cases x with
  | ok a => exact Prog.Twins.pure rfl
  | error e => exact Prog.Twins.throw (f e)

theorem paired_ask {op op' : PeerOp} {Q : op.Res → op'.Res → Prop} (hop : E op op')
    (h : Q ((answers n).answer k op) ((answers n).answer k' op')) :
    Paired answers k k' E n (ask op : Peer ε op.Res) (ask op') Q := Prog.Twins.call hop h

theorem paired_call {op op' : PeerOp} {g : op.Res → Except ε α} {g' : op'.Res → Except ε α}
    (f : ε → ε') (hop : E op op')
    (h : g ((answers n).answer k op) = g' ((answers n).answer k' op')) :
    Paired answers k k' E n (ask op >>= fun r => mapErr f (g r) : Peer ε' α)
      (ask op' >>= fun r => mapErr f (g' r)) Eq := by
  refine (paired_ask hop (Q := fun r r' => g r = g' r') h).bind fun m r r' hr => ?_
  rw [hr]
  exact paired_mapErr f _

section clients
variable (hE : ∀ op op', RekeyedWithin k' op op' → E op op')
include hE

theorem paired_initConversation (c : Crates) (toUid : String) :
    Paired answers k k' E n (RouteClient.initConversation c k toUid)
      (RouteClient.initConversation c k' toUid) Eq :=
  paired_call _ (hE _ _ ⟨rfl, fun h => nomatch h⟩) rfl

theorem paired_getRoute (c : Crates) (conversationId : String) :
    Paired answers k k' E n (RouteClient.getRoute c conversationId k)
      (RouteClient.getRoute c conversationId k') Eq :=
  paired_call _ (hE _ _ ⟨rfl, fun h => nomatch h⟩) rfl

theorem paired_redeem (conversationId nonce : String) :
    Paired answers k k' E n (RouteClient.redeem conversationId k nonce)
      (RouteClient.redeem conversationId k' nonce) Eq :=
  paired_call _ (hE _ _ ⟨rfl, fun h => nomatch h⟩) rfl

theorem paired_connectController {f : Fault → ε} :
    Paired answers k k' E n (ask .connectController >>= fun r => mapErr f r : Peer ε Unit)
      (ask .connectController >>= fun r => mapErr f r) Eq :=
  paired_call _ (hE _ _ ⟨rfl, fun _ => rfl⟩) rfl

theorem paired_connectProxy {f : Fault → ε} (endpoint : Uri) (publicKey : List UInt8)
    (domainName : String) : Paired answers k k' E n
      (ask (.connectProxy endpoint publicKey domainName) >>= fun r => mapErr f r : Peer ε Node)
      (ask (.connectProxy endpoint publicKey domainName) >>= fun r => mapErr f r) Eq :=
  paired_call _ (hE _ _ ⟨rfl, fun _ => rfl⟩) rfl

theorem paired_connectLander {f : Fault → ε} (endpoint : Uri) (publicKey : List UInt8)
    (domainName : String) : Paired answers k k' E n
      (ask (.connectLander endpoint publicKey domainName) >>= fun r => mapErr f r : Peer ε Node)
      (ask (.connectLander endpoint publicKey domainName) >>= fun r => mapErr f r) Eq :=
  paired_call _ (hE _ _ ⟨rfl, fun _ => rfl⟩) rfl

theorem paired_sendCommand (node : Node) (conversationId nonce : String) (command : CommandType)
    (content : List UInt8) :
    Paired answers k k' E n (ProxyClient.sendCommand node conversationId nonce command content)
      (ProxyClient.sendCommand node conversationId nonce command content) Eq :=
  paired_call _ (hE _ _ ⟨rfl, fun _ => rfl⟩) rfl

theorem paired_initializeRoute (c : Crates) (toUid : String) :
    Paired answers k k' E n (Commander.initializeRoute c k toUid)
      (Commander.initializeRoute c k' toUid) Eq := by
  refine (paired_connectController hE).bind fun m _ _ _ => ?_
  refine (paired_initConversation hE c toUid).bind fun m init _ hinit => ?_
  cases hinit
  refine (paired_getRoute hE c init.conversationId).bind fun m route _ hroute => ?_
  cases hroute
  refine (paired_mapErr id _).bind fun m uri _ huri => ?_
  cases huri
  exact Prog.Twins.pure rfl

theorem paired_command (c : Crates) (toUid : String) (commandType : CommandType)
    (content : List UInt8) :
    Paired answers k k' E n (Commander.command c k toUid commandType content)
      (Commander.command c k' toUid commandType content) Eq := by
  refine (paired_initializeRoute hE c toUid).bind fun m route _ hroute => ?_
  cases hroute
  refine (paired_connectProxy hE _ _ _).bind fun m node _ hnode => ?_
  cases hnode
  exact paired_sendCommand hE node _ _ commandType content

theorem paired_status :
    Paired answers k k' E n (ProxyServiceImpl.status k) (ProxyServiceImpl.status k') Eq :=
  (paired_connectController hE).bind fun _ _ _ _ =>
    paired_call _ (hE _ _ ⟨rfl, fun h => nomatch h⟩) rfl

theorem paired_proxyRedeem (conversationId nonce : String) :
    Paired answers k k' E n (ProxyServiceImpl.redeem conversationId k nonce)
      (ProxyServiceImpl.redeem conversationId k' nonce) Eq := by
  refine (paired_connectController hE).bind fun m _ _ _ => ?_
  refine ((paired_redeem hE conversationId nonce).adapt _).bind fun m _ _ _ => ?_
  exact Prog.Twins.pure rfl

theorem paired_routeCommand (c : Crates) (settings : ConnectionSettings)
    (conversationId nonce : String) (content : List UInt8) :
    Paired answers k k' E n (ProxyServiceImpl.routeCommand c settings conversationId nonce content)
      (ProxyServiceImpl.routeCommand c settings conversationId nonce content) Eq := by
  refine (paired_mapErr _ _).bind fun m endpoint _ hendpoint => ?_
  cases hendpoint
  refine (paired_connectProxy hE _ _ _).bind fun m node _ hnode => ?_
  cases hnode
  refine ((paired_sendCommand hE node _ _ .send content).adapt _).bind fun m _ _ _ => ?_
  exact Prog.Twins.pure rfl

theorem paired_checkAuthentication :
    Paired answers k k' E n ProxyServiceImpl.checkAuthentication
      ProxyServiceImpl.checkAuthentication fun x x' => x = k ∧ x' = k' := by
  have hasked : Paired answers k k' E n (ask .isAuthenticated : Peer Abort Bool)
      (ask .isAuthenticated) Eq := paired_ask (hE _ _ ⟨rfl, fun _ => rfl⟩) rfl
  refine hasked.bind fun m b _ hb => ?_
  cases hb
  cases b with
  | false => exact Prog.Twins.throw _
  | true =>
    have hsession : Paired answers k k' E m (ask .getSession : Peer Abort ClientSession)
        (ask .getSession) fun s s' => s.accessKey = some k ∧ s'.accessKey = some k' :=
      paired_ask (hE _ _ ⟨rfl, fun _ => rfl⟩) ⟨rfl, rfl⟩
    refine hsession.bind fun m s s' hs => ?_
    rw [hs.1, hs.2]
    exact Prog.Twins.pure ⟨rfl, rfl⟩

end clients

theorem paired_landCommand (c : Crates) (settings : ConnectionSettings)
    (conversationId nonce : String) (content : List UInt8) :
    Paired answers k k' (Rekeyed k') n
      (ProxyServiceImpl.landCommand c settings conversationId nonce k content)
      (ProxyServiceImpl.landCommand c settings conversationId nonce k' content) Eq := by
  refine (paired_mapErr _ _).bind fun m endpoint _ hendpoint => ?_
  cases hendpoint
  refine (paired_connectLander (fun _ _ h => h.1) _ _ _).bind fun m node _ hnode => ?_
  cases hnode
  have hland : Paired answers k k' (Rekeyed k') m
      (LandingClient.sendMessage node conversationId k nonce content)
      (LandingClient.sendMessage node conversationId k' nonce content) Eq := paired_call _ rfl rfl
  refine (hland.adapt _).bind fun m _ _ _ => ?_
  exact Prog.Twins.pure rfl

theorem paired_send (c : Crates) (conversationId : String) (content : List UInt8) :
    Paired answers k k' (Rekeyed k') n (ProxyServiceImpl.send c conversationId k content)
      (ProxyServiceImpl.send c conversationId k' content) Eq := by
  have hE : ∀ op op', RekeyedWithin k' op op' → Rekeyed k' op op' := fun _ _ h => h.1
  refine (paired_connectController hE).bind fun m _ _ _ => ?_
  refine ((paired_getRoute hE c conversationId).adapt _).bind fun m route _ hroute => ?_
  cases hroute
  -- the answer is the same in both runs, and with it where the command goes
  cases hend : route.endRoute with
  | true =>
    simp only [if_true]
    exact paired_landCommand c _ conversationId _ content
  | false =>
    simp only [Bool.false_eq_true, if_false]
    exact paired_routeCommand hE c _ conversationId _ content

theorem paired_executeCommand (c : Crates) (request : CommandRequest) :
    Paired answers k k' (Rekeyed k') n (ProxyServiceImpl.executeCommand c request)
      (ProxyServiceImpl.executeCommand c request) Eq := by
  have hE : ∀ op op', RekeyedWithin k' op op' → Rekeyed k' op op' := fun _ _ h => h.1
  refine (paired_checkAuthentication hE).bind fun m x x' hx => ?_
  obtain ⟨rfl, rfl⟩ := hx
  refine (paired_proxyRedeem hE request.conversationId request.nonce).bind fun m _ _ _ => ?_
  split
  · refine (paired_status hE).bind fun m status _ hstatus => ?_
    cases hstatus
    exact Prog.Twins.pure rfl
  · refine (paired_send c request.conversationId _).bind fun m _ _ _ => ?_
    exact Prog.Twins.pure rfl
  · exact Prog.Twins.pure rfl

end

/-! What the others get to see of the key. -/

section
variable {ε α : Type} {answers : Nat → Answers} {k k' : String} {p p' : Peer ε α}

/-- The two runs show the same to everyone but the controller. -/
structure SameToOthers (answers : Nat → Answers) (k k' : String) (p p' : Peer ε α) : Prop where
  sent : p'.sent PeerOp.toOthers k' answers = p.sent PeerOp.toOthers k answers
  result : (p'.asked k' answers).2 = (p.asked k answers).2

/-- The same to proxies and to who has called, and to clients but for the key. -/
structure SameButKey (answers : Nat → Answers) (k k' : String) (p p' : Peer ε α) : Prop where
  proxies : p'.sent PeerOp.toProxies k' answers = p.sent PeerOp.toProxies k answers
  clients : p'.sent PeerOp.toClients k' answers =
    (p.sent PeerOp.toClients k answers).map (PeerOp.withKey k')
  result : (p'.asked k' answers).2 = (p.asked k answers).2

theorem asked_rekeyed (h : Paired answers k k' (Rekeyed k') 0 p p' Eq) :
    (p'.asked k' answers).1 = (p.asked k answers).1.map (PeerOp.withKey k') := by
  have hasked : List.Forall₂ (Rekeyed k') (p.asked k answers).1 (p'.asked k' answers).1 := h.1
  generalize (p.asked k answers).1 = ops, (p'.asked k' answers).1 = ops' at hasked ⊢
  induction hasked with
  | nil => rfl
  | cons hop _ ih => exact congrArg₂ List.cons hop ih

theorem sameButKey (h : Paired answers k k' (Rekeyed k') 0 p p' Eq) :
    SameButKey answers k k' p p' := by
  have hasked := asked_rekeyed h
  constructor
  case proxies =>
    rw [Peer.sent, hasked, List.filter_map, Peer.sent]
    have hto : PeerOp.toProxies ∘ PeerOp.withKey k' = PeerOp.toProxies :=
      funext fun op => PeerOp.toProxies_withKey k' op
    rw [hto]
    -- what goes to proxies has no key in it to change
    conv_rhs => rw [← List.map_id (List.filter _ _)]
    apply List.map_congr_left
    intro op hop
    exact PeerOp.withKey_of_toProxies (List.mem_filter.mp hop).2
  case clients =>
    have hto : PeerOp.toClients ∘ PeerOp.withKey k' = PeerOp.toClients :=
      funext fun op => PeerOp.toClients_withKey k' op
    rw [Peer.sent, hasked, List.filter_map, hto, Peer.sent]
  case result => exact (exceptRel_eq h.2).symm

theorem sameToOthers (h : Paired answers k k' (RekeyedWithin k') 0 p p' Eq) :
    SameToOthers answers k k' p p' := by
  refine ⟨?_, (exceptRel_eq h.2).symm⟩
  have hasked : List.Forall₂ (RekeyedWithin k') (p.asked k answers).1 (p'.asked k' answers).1 := h.1
  unfold Peer.sent
  generalize (p.asked k answers).1 = ops, (p'.asked k' answers).1 = ops' at hasked ⊢
  induction hasked with
  | nil => rfl
  | @cons op op' _ _ hop _ ih =>
    have hto : op'.toOthers = op.toOthers := by
      rw [hop.1, PeerOp.toOthers_withKey]
    rw [List.filter_cons, List.filter_cons, hto, ih]
    split_ifs with ho
    · rw [hop.2 ho]
    · rfl

end

/-- Two runs of a service that differ in the component's key alone: a client shows the same to
everyone but the controller, and a proxy too, but for the key in the texts that it lands. -/
theorem credentials_confined (c : Crates) (answers : Nat → Answers) (k k' : String) :
    (∀ request, SameButKey answers k k' (ProxyServiceImpl.executeCommand c request)
      (ProxyServiceImpl.executeCommand c request)) ∧
    (∀ toUid content, SameToOthers answers k k' (Commander.sendMessage c k toUid content)
      (Commander.sendMessage c k' toUid content)) ∧
    SameToOthers answers k k' (Commander.getStatus c k) (Commander.getStatus c k') := by
  have hcommand : ∀ toUid commandType content, SameToOthers answers k k'
      (Commander.command c k toUid commandType content)
      (Commander.command c k' toUid commandType content) := fun toUid commandType content =>
    sameToOthers (paired_command (fun _ _ h => h) c toUid commandType content)
  exact ⟨fun request => sameButKey (paired_executeCommand c request),
    fun toUid content => hcommand toUid .send content, hcommand "" .status []⟩

def landing : Answers where
  connectController := .ok ()
  initConversation := .ok ⟨"c"⟩
  getRoute := .ok
    { ipAddress := "10.0.0.4", portNumber := 50054, publicKey := [4], domainName := "bob",
      nonce := "n2", endRoute := true }
  redeem := .ok ⟨none⟩
  getStatus := .error .panic
  connect := .ok (.client "bob")
  executeCommand := .error .panic
  receive := .ok {}
  isAuthenticated := true
  uid := some "north"
  channel := true
  instantNow := 0

/-- The client is told the key of the proxy that lands the text. -/
theorem key_landed : ¬ ∀ (c : Crates) (answers : Nat → Answers) (k k' : String)
    (request : CommandRequest), SameToOthers answers k k'
      (ProxyServiceImpl.executeCommand c request) (ProxyServiceImpl.executeCommand c request) := by
  intro hall
  have h := hall ⟨fun text => some ⟨text⟩, fun _ => "", fun _ => ""⟩ (fun _ => landing) "k1" "k2"
    ⟨"c", "n1", 1, some [104, 105]⟩
  exact absurd h.sent (by decide)

end FuzzyChat
