import FuzzyChat.Controller.Storage

/-! The controller's managers and request handlers, each one a program over the operations of the
storage. -/

namespace FuzzyChat
open Interleave

/-- A handler ends early with a status, or by a panic. -/
inductive Abort where
  | status (s : Status)
  | panic
  deriving DecidableEq, Repr

abbrev Handler (α : Type) := ExceptT Abort (Prog RepoOp.Res) α

namespace Handler
variable {α : Type}

def ask (op : RepoOp) : Handler op.Res := Prog.call op fun r => .ret (.ok r)

def unwrap : Option α → Handler α
  | some a => pure a
  | none => throw .panic

def okOr (s : Status) : Option α → Handler α
  | some a => pure a
  | none => throw (.status s)

def fail (s : Status) : Handler α := throw (.status s)

variable {β : Type}

@[simp] theorem unwrap_some (a : α) : unwrap (some a) = pure a := rfl

@[simp] theorem unwrap_none : unwrap (none : Option α) = throw .panic := rfl

end Handler

open Handler

/-! The session repository, section by section. -/

def setSession (info : SessionInfo) : Handler Unit := do
  let c ← unwrap (Component.fromU8 info.componentType)
  ask (.insertIndex c info.uid info.accessKey)
  ask (.insertSession info)

def getSession (accessKey : String) : Handler (Option SessionInfo) := ask (.getSession accessKey)

def removeSession (accessKey : String) : Handler Unit := do
  match ← ask (.takeSession accessKey) with
  | some w => ask (.removeClient w.value.uid)
  | none => pure ()

def getProxies (accessKey : String) : Handler (Option (List SessionInfo)) :=
  ask (.getProxies accessKey)

def getClient (uid : String) : Handler (Option SessionInfo) := do
  match ← ask (.clientKey uid) with
  | some client => ask (.sessionOf client)
  | none => pure none

namespace SessionManager

def sessionInfo (accessKey uid : String) (componentType : Component) (clientIp : SocketAddr)
    (settings : ConnectionSettings) : SessionInfo where
  accessKey := accessKey
  uid := uid
  clientIp := clientIp
  componentType := componentType.toU8
  onIpAddress := settings.ip
  onPortNumber := settings.port
  publicKey := settings.certificate
  domainName := settings.domainName

/-- `accessKey` is what `generate_access_key` draws. -/
def setSession (accessKey uid : String) (componentType : Component) (clientIp : SocketAddr)
    (settings : ConnectionSettings) : Handler String := do
  FuzzyChat.setSession (sessionInfo accessKey uid componentType clientIp settings)
  pure accessKey

end SessionManager

/-! Routing. -/

structure RouteStrategy where
  getId : UInt8
  hasReachedFinalRoute : Conversation → Bool
  getNextRoute : Conversation → List SessionInfo → Handler (Option SessionInfo)

/-- The range ends before `proxies.len() - 1`, a subtraction that panics on the empty list. -/
def randomRouteStrategy : RouteStrategy where
  getId := 1
  hasReachedFinalRoute conversation := conversation.routes.length == 3
  getNextRoute _ proxies := do
    if proxies.isEmpty then throw .panic
    let numbers := List.range (proxies.length - 1)
    let index ← ask (.choose numbers)
    pure proxies[index.getD 0]?

def strategies : List RouteStrategy := [randomRouteStrategy]

def getRoutingId (_fromUid _toUid : String) : Handler UInt8 := do
  let strategy ← unwrap strategies.head?
  pure strategy.getId

def getStrategy (conversation : Conversation) : Handler RouteStrategy :=
  unwrap (strategies.find? fun strategy => strategy.getId == conversation.routingId)

namespace RouteManager

/-- `conversationId` is what `create_conversation_id` draws. -/
def initializeConversation (conversationId fromUid toUid : String) : Handler (Option String) := do
  let routingId ← getRoutingId fromUid toUid
  ask (.setConversation (Conversation.new conversationId fromUid toUid routingId))

def finalize (conversationId : String) : Handler Unit := ask (.removeConversation conversationId)

def getConversation (conversationId : String) : Handler (Option Conversation) :=
  ask (.getConversation conversationId)

def storedRoute (nonce : String) (settings : ConnectionSettings) (endRoute : Bool) : Route where
  onIpAddress := settings.ip
  onPortNumber := settings.port
  publicKey := settings.certificate
  domainName := settings.domainName
  nonce := nonce
  endRoute := endRoute

/-- `nonce` is what `create_nonce` draws. -/
def storeRoute (nonce conversationId : String) (settings : ConnectionSettings) (endRoute : Bool) :
    Handler (Option String) :=
  ask (.setRoute conversationId (storedRoute nonce settings endRoute))

/-- The route is read under one lock and removed under another. -/
def redeemRoute (conversationId nonce : String) : Handler (Option Route) := do
  match ← ask (.getRoute conversationId nonce) with
  | some route =>
    ask (.removeRoute nonce)
    pure (some route)
  | none => pure none

def getNextRoute (conversation : Conversation) (proxies : List SessionInfo) :
    Handler (Option SessionInfo) := do
  let strategy ← getStrategy conversation
  strategy.getNextRoute conversation proxies

def checkForFinalRoute (conversation : Conversation) : Handler Bool := do
  let strategy ← getStrategy conversation
  pure (strategy.hasReachedFinalRoute conversation)

end RouteManager

namespace guards

def checkSession (accessKey : String) : Handler Unit := do
  let _ ← okOr (Status.unauthenticated "Invalid access key") (← getSession accessKey)

def checkConversation (conversationId : String) : Handler Unit := do
  let _ ← okOr (Status.notFound "Invalid conversation")
    (← RouteManager.getConversation conversationId)

end guards

namespace AuthService

def validateCredentials (uid pwd : String) : Handler Bool := do
  let member ← ask (.getMember uid)
  pure ((member.map fun m => m.pwd == pwd).getD false)

def ping (remoteAddr : Option SocketAddr) (request : PingRequest) : Handler PingResponse := do
  let clientIp ← okOr (Status.internal "Could not get client IP address") remoteAddr
  guards.checkSession request.accessKey
  let session ← unwrap (← getSession request.accessKey)
  if session.clientIp ≠ clientIp then fail (Status.unauthenticated "Invalid connection")
  let timestamp ← ask .utcNow
  pure ⟨"PONG", timestamp⟩

def connectionSettings (request : LoginRequest) : ConnectionSettings where
  ip := request.onIp
  port := request.onPort.toUInt16
  certificate := request.publicKey
  domainName := request.domainName

/-- The password's emptiness is not looked at: the uid's is, twice. -/
def login (accessKey : String) (remoteAddr : Option SocketAddr) (request : LoginRequest) :
    Handler LoginResponse := do
  let clientIp ← okOr (Status.internal "Could not get client IP address") remoteAddr
  if request.uid.isEmpty || request.uid.isEmpty then
    fail (Status.invalidArgument "UID and PWD cannot be empty")
  let componentType ← unwrap (Component.fromI32 request.componentType)
  if componentType = .controller then fail (Status.invalidArgument "Invalid component type")
  if ← validateCredentials request.uid request.pwd then
    let accessKey ← SessionManager.setSession accessKey request.uid componentType clientIp
      (connectionSettings request)
    pure ⟨accessKey, "Login successful"⟩
  else fail (Status.unauthenticated "Invalid credentials")

def logout (request : LogoutRequest) : Handler Unit := do
  guards.checkSession request.accessKey
  removeSession request.accessKey

end AuthService

namespace InfoService

/-- A count beyond the range of `u32` is reported as zero. -/
def toU32 (n : Nat) : UInt32 := if n < 2 ^ 32 then UInt32.ofNat n else 0

def status (version : String) (request : StatusRequest) : Handler StatusResponse := do
  guards.checkSession request.accessKey
  let proxiesCount ← ask (.count .proxy)
  let clientsCount ← ask (.count .client)
  let controllersCount ← ask (.count .controller)
  pure
    { version := version
      connectedClients := toU32 clientsCount
      connectedProxies := toU32 proxiesCount
      connectedControllers := toU32 controllersCount }

end InfoService

namespace RouteService

def CONTROLLER_UID : String := "controller_uid"

def handleRoute (nonce conversationId : String) (info : SessionInfo) (endRoute : Bool) :
    Handler RouteResponse := do
  let settings := info.toConnectionSettings
  let nonce ← okOr (Status.internal "Failed to store route")
    (← RouteManager.storeRoute nonce conversationId settings endRoute)
  pure
    { ipAddress := info.onIpAddress
      portNumber := info.onPortNumber.toUInt32
      publicKey := info.publicKey
      domainName := info.domainName
      nonce := nonce
      endRoute := endRoute }

def recipient (request : InitRequest) : String :=
  if request.toUid.isEmpty then CONTROLLER_UID else request.toUid

def initializeConversation (conversationId : String) (request : InitRequest) :
    Handler InitResponse := do
  guards.checkSession request.accessKey
  let info ← unwrap (← getSession request.accessKey)
  let conversationId ← okOr (Status.internal "Failed to initialize conversation")
    (← RouteManager.initializeConversation conversationId info.uid (recipient request))
  pure ⟨conversationId⟩

def route (nonce : String) (request : RouteRequest) : Handler RouteResponse := do
  guards.checkSession request.accessKey
  guards.checkConversation request.conversationId
  let conversation ← unwrap (← RouteManager.getConversation request.conversationId)
  if ← RouteManager.checkForFinalRoute conversation then
    match ← getClient conversation.toUid with
    | some info => handleRoute nonce request.conversationId info true
    | none =>
      fail (Status.notFound "Reached final route, no more routes available as no client found")
  else
    match ← getProxies request.accessKey with
    | none => fail (Status.notFound "No proxies found")
    | some proxies =>
      match ← RouteManager.getNextRoute conversation proxies with
      | some info => handleRoute nonce request.conversationId info false
      | none => fail (Status.notFound "Next route wasn't found, no more routes available")

def redeem (request : RedeemRequest) : Handler RedeemResponse := do
  guards.checkSession request.accessKey
  guards.checkConversation request.conversationId
  match ← RouteManager.redeemRoute request.conversationId request.nonce with
  | some route =>
    if route.endRoute then
      let conversation ← unwrap (← RouteManager.getConversation request.conversationId)
      RouteManager.finalize request.conversationId
      pure ⟨some ⟨conversation.fromUid⟩⟩
    else pure ⟨none⟩
  | none => fail (Status.internal "Failed to redeem route")

end RouteService
end FuzzyChat
