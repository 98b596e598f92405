import FuzzyChat.Peers.Models

/-! The client's commander, the proxies' service and the client's landing service. -/

namespace FuzzyChat
open Interleave Peer

def ConnectionSettings.getPublicEndpoint (c : Crates) (settings : ConnectionSettings) :
    Peer Abort Uri :=
  mapErr (fun _ => .panic) (networking.toHttpsEndpoint c settings.ip settings.port.toUInt32)

theorem toUInt32_toUInt16_eq (port : UInt32) :
    port.toUInt16.toUInt32 = port ↔ port.toNat < 2 ^ 16 := by
  rw [← UInt32.toNat_inj, UInt16.toNat_toUInt32, UInt32.toNat_toUInt16]
  constructor
  · intro h
    rw [← h]
    exact Nat.mod_lt _ (by decide)
  · exact Nat.mod_eq_of_lt

namespace RouteClient

def initConversation (c : Crates) (accessKey toUid : String) : Peer Fault InitResponse := do
  mapErr (fun status => .text ("Impossible to initialize the conversation: " ++ c.display status))
    (← ask (.initConversation ⟨accessKey, toUid⟩))

def getRoute (c : Crates) (conversationId accessKey : String) : Peer Fault RouteResponse := do
  mapErr (fun status => .text ("Impossible to get a route: " ++ c.display status))
    (← ask (.getRoute ⟨accessKey, conversationId⟩))

def redeem (conversationId accessKey nonce : String) : Peer Fault RedeemResponse := do
  mapErr (fun _ => .text "Impossible to redeem a route")
    (← ask (.redeem ⟨accessKey, conversationId, nonce⟩))

end RouteClient

namespace ProxyClient

def sendCommand (node : Node) (conversationId nonce : String) (command : CommandType)
    (content : List UInt8) : Peer Fault CommandResponse := do
  mapErr .abort (← ask (.executeCommand node
    { conversationId := conversationId, nonce := nonce, command := command.toI32,
      content := some content }))

end ProxyClient

namespace LandingClient

def sendMessage (node : Node) (conversationId accessKey nonce : String) (content : List UInt8) :
    Peer Fault TextResponse := do
  mapErr .abort (← ask (.receive node ⟨conversationId, accessKey, nonce, content⟩))

end LandingClient

/-- What a service of the peers turns an error of a collaborator into. -/
def internal (message : String) : Abort := .status (Status.internal message)

namespace Commander

structure Route where
  conversationId : String
  nonce : String
  publicKey : List UInt8
  domainName : String
  uri : Uri
  deriving DecidableEq, Repr

def initializeRoute (c : Crates) (accessKey toUid : String) : Peer Fault Route := do
  mapErr id (← ask .connectController)
  let initResponse ← RouteClient.initConversation c accessKey toUid
  let routeResponse ← RouteClient.getRoute c initResponse.conversationId accessKey
  let uri ← mapErr id
    (networking.toHttpsEndpoint c routeResponse.ipAddress routeResponse.portNumber)
  pure
    { conversationId := initResponse.conversationId
      nonce := routeResponse.nonce
      publicKey := routeResponse.publicKey
      domainName := routeResponse.domainName
      uri := uri }

/-- What `send_message` and `get_status` both are. -/
def command (c : Crates) (accessKey toUid : String) (commandType : CommandType)
    (content : List UInt8) : Peer Fault CommandResponse := do
  let route ← initializeRoute c accessKey toUid
  let proxyClient ← mapErr
    (fun e => .abort (internal ("Impossible to initialize proxy client: " ++ e.display c)))
    (← ask (.connectProxy route.uri route.publicKey route.domainName))
  ProxyClient.sendCommand proxyClient route.conversationId route.nonce commandType content

def sendMessage (c : Crates) (accessKey toUid : String) (content : List UInt8) :
    Peer Fault CommandResponse := command c accessKey toUid .send content

def getStatus (c : Crates) (accessKey : String) : Peer Fault CommandResponse :=
  command c accessKey "" .status []

end Commander

namespace ProxyServiceImpl

def checkAuthentication : Peer Abort String := do
  if ← ask .isAuthenticated then
    let session ← ask .getSession
    match session.accessKey with
    | some accessKey => pure accessKey
    | none => throw .panic
  else throw (.status (Status.unauthenticated "Not authenticated"))

def status (accessKey : String) : Peer Abort StatusResponse := do
  mapErr (fun _ => internal "Failed to initialize the informer") (← ask .connectController)
  mapErr (fun _ => internal "Failed to get status") (← ask (.getStatus ⟨accessKey⟩))

def redeem (conversationId accessKey nonce : String) : Peer Abort Unit := do
  mapErr (fun _ => internal "Failed to initialize the router") (← ask .connectController)
  let _ ← (RouteClient.redeem conversationId accessKey nonce).adapt
    fun _ => internal "Failed to redeem route"

def landCommand (c : Crates) (settings : ConnectionSettings)
    (conversationId nonce accessKey : String) (content : List UInt8) : Peer Abort Unit := do
  let endpoint ← settings.getPublicEndpoint c
  let landingClient ← mapErr
    (fun e => internal ("Impossible to initialize landing client: " ++ e.display c))
    (← ask (.connectLander endpoint settings.certificate settings.domainName))
  let _ ← (LandingClient.sendMessage landingClient conversationId accessKey nonce content).adapt
    fun e => internal ("Failed to deliver the message: " ++ e.display c)

def routeCommand (c : Crates) (settings : ConnectionSettings) (conversationId nonce : String)
    (content : List UInt8) : Peer Abort Unit := do
  let endpoint ← settings.getPublicEndpoint c
  let proxyClient ← mapErr
    (fun e => internal ("Impossible to initialize proxy client: " ++ e.display c))
    (← ask (.connectProxy endpoint settings.certificate settings.domainName))
  let _ ← (ProxyClient.sendCommand proxyClient conversationId nonce .send content).adapt
    fun e => internal ("Failed to route command: " ++ e.display c)

def routeSettings (route : RouteResponse) : ConnectionSettings where
  ip := route.ipAddress
  port := route.portNumber.toUInt16
  domainName := route.domainName
  certificate := route.publicKey

def send (c : Crates) (conversationId accessKey : String) (content : List UInt8) :
    Peer Abort Unit := do
  mapErr (fun _ => internal "Failed to initialize the router") (← ask .connectController)
  let route ← (RouteClient.getRoute c conversationId accessKey).adapt
    fun _ => internal "Failed to get route"
  if route.endRoute then
    landCommand c (routeSettings route) conversationId route.nonce accessKey content
  else routeCommand c (routeSettings route) conversationId route.nonce content

def executeCommand (c : Crates) (request : CommandRequest) : Peer Abort CommandResponse := do
  let accessKey ← checkAuthentication
  let content := request.content.getD []
  redeem request.conversationId accessKey request.nonce
  match CommandType.tryFrom request.command with
  | some .status =>
    let status ← status accessKey
    pure ⟨some ("Status: " ++ c.debug status)⟩
  | some .send =>
    send c request.conversationId accessKey content
    pure ⟨some "Message sent"⟩
  | _ => pure ⟨none⟩

end ProxyServiceImpl

namespace LandingServiceImpl

/-- What the channel answers is not looked at. -/
def receive (request : TextRequest) : Peer Abort TextResponse := do
  mapErr (fun _ => internal "Failed to initialize the router") (← ask .connectController)
  let redeemResponse ← (RouteClient.redeem request.conversationId request.accessKey
    request.nonce).adapt fun _ => internal "Failed to redeem"
  match redeemResponse.sourceInfo with
  | some source =>
    let now ← ask .instantNow
    let _ ← ask (.channel (TextMessage.new source.fromUid "myself" request.content now))
    pure {}
  | none => throw .panic

end LandingServiceImpl
end FuzzyChat
