import FuzzyChat.Controller.Runs

/-! Each request's program spelled out: the operations it calls, and how it goes on from each
answer. -/

namespace FuzzyChat
open Interleave

abbrev Program := Prog RepoOp.Res (Except Abort Reply)

def reply (r : Reply) : Program := .ret (.ok r)

def refuse (s : Status) : Program := .ret (.error (.status s))

def crash : Program := .ret (.error .panic)

/-! The guards, and the fetches that unwrap what a guard has seen. -/

def checkedSession (accessKey : String) (next : SessionInfo → Program) : Program :=
  .call (.getSession accessKey) fun
    | none => refuse (Status.unauthenticated "Invalid access key")
    | some info => next info

def checkedConversation (conversationId : String) (next : Conversation → Program) : Program :=
  .call (.getConversation conversationId) fun
    | none => refuse (Status.notFound "Invalid conversation")
    | some conversation => next conversation

def fetchedSession (accessKey : String) (next : SessionInfo → Program) : Program :=
  .call (.getSession accessKey) fun
    | none => crash
    | some info => next info

def fetchedConversation (conversationId : String) (next : Conversation → Program) : Program :=
  .call (.getConversation conversationId) fun
    | none => crash
    | some conversation => next conversation

/-- What the program may still unwrap the answer of: a lookup of a route may find an end route. -/
def relies : Program → List RepoOp
  | .call (.getSession k) next =>
    if (next none).result? = some (.error .panic) then [.getSession k] else []
  | .call (.getConversation c) next =>
    if (next none).result? = some (.error .panic) then [.getConversation c] else []
  | .call (.getRoute _ n) next => relies (next (some ⟨"", 0, [], "", n, true⟩))
  | .call (.removeRoute _) next => relies (next ())
  | _ => []

def storeProgram (nonce conversationId : String) (info : SessionInfo) (endRoute : Bool) : Program :=
  .call (.setRoute conversationId
      (RouteManager.storedRoute nonce info.toConnectionSettings endRoute)) fun
    | none => refuse (Status.internal "Failed to store route")
    | some nonce => reply (.route
        { ipAddress := info.onIpAddress
          portNumber := info.onPortNumber.toUInt32
          publicKey := info.publicKey
          domainName := info.domainName
          nonce := nonce
          endRoute := endRoute })

def finalProgram (nonce : String) (r : RouteRequest) (conversation : Conversation) : Program :=
  .call (.clientKey conversation.toUid) fun
    | none => refuse (Status.notFound
        "Reached final route, no more routes available as no client found")
    | some key => .call (.sessionOf key) fun
      | none => refuse (Status.notFound
          "Reached final route, no more routes available as no client found")
      | some info => storeProgram nonce r.conversationId info true

def hopProgram (nonce : String) (r : RouteRequest) : Program :=
  .call (.getProxies r.accessKey) fun
    | none => refuse (Status.notFound "No proxies found")
    | some proxies =>
      if proxies.isEmpty then crash
      else .call (.choose (List.range (proxies.length - 1))) fun index =>
        match proxies[index.getD 0]? with
        | none => refuse (Status.notFound "Next route wasn't found, no more routes available")
        | some info => storeProgram nonce r.conversationId info false

theorem getStrategy_eq (conversation : Conversation) :
    getStrategy conversation =
      if conversation.routingId = 1 then pure randomRouteStrategy else throw .panic := by
  unfold getStrategy strategies
  by_cases h : conversation.routingId = 1
  · simp [h, randomRouteStrategy]
  · simp [h, randomRouteStrategy, Ne.symm h]

theorem checkForFinalRoute_eq (conversation : Conversation) :
    RouteManager.checkForFinalRoute conversation =
      if conversation.routingId = 1 then pure (decide (conversation.routes.length = 3))
      else throw .panic := by
  unfold RouteManager.checkForFinalRoute
  rw [getStrategy_eq]
  split_ifs
  · rfl
  · rfl

theorem getNextRoute_eq (conversation : Conversation) (proxies : List SessionInfo) :
    RouteManager.getNextRoute conversation proxies =
      if conversation.routingId = 1 then randomRouteStrategy.getNextRoute conversation proxies
      else throw .panic := by
  unfold RouteManager.getNextRoute
  rw [getStrategy_eq]
  split_ifs
  · rfl
  · rfl

theorem handler_route (r : RouteRequest) (nonce : String) :
    Job.handler ⟨.route r, nonce⟩ =
      checkedSession r.accessKey fun _ => checkedConversation r.conversationId fun _ =>
        fetchedConversation r.conversationId fun conversation =>
          if conversation.routingId = 1 then
            if conversation.routes.length = 3 then finalProgram nonce r conversation
            else hopProgram nonce r
          else crash := by
  refine Prog.call_congr fun | none => rfl | some _ => ?_
  refine Prog.call_congr fun | none => rfl | some _ => ?_
  refine Prog.call_congr fun | none => rfl | some conversation => ?_
  simp only [Prog.bind, ExceptT.bindCont, Handler.unwrap_some, pure_bind, checkForFinalRoute_eq,
    getNextRoute_eq]
  split_ifs with hid hlen
  · simp only [pure_bind, hlen, decide_true, if_true]
    refine Prog.call_congr fun | none => rfl | some key => ?_
    refine Prog.call_congr fun | none => rfl | some info => ?_
    exact Prog.call_congr fun | none => rfl | some nonce => rfl
  · simp only [pure_bind, hlen, decide_false, Bool.false_eq_true, if_false]
    refine Prog.call_congr fun | none => rfl | some proxies => ?_
    cases proxies with
    | nil => rfl
    | cons info infos =>
      refine Prog.call_congr fun index => ?_
      simp only [Prog.bind, ExceptT.bindCont]
      cases (info :: infos)[index.getD 0]? with
      | none => rfl
      | some next => exact Prog.call_congr fun | none => rfl | some nonce => rfl
  · rfl

theorem handler_redeem (r : RedeemRequest) (id : String) :
    Job.handler ⟨.redeem r, id⟩ =
      checkedSession r.accessKey fun _ => checkedConversation r.conversationId fun _ =>
        .call (.getRoute r.conversationId r.nonce) fun
        | none => refuse (Status.internal "Failed to redeem route")
        | some route => .call (.removeRoute r.nonce) fun _ =>
          if route.endRoute then
            fetchedConversation r.conversationId fun conversation =>
              .call (.removeConversation r.conversationId) fun _ =>
                reply (.redeem ⟨some ⟨conversation.fromUid⟩⟩)
          else reply (.redeem ⟨none⟩) := by
  refine Prog.call_congr fun | none => rfl | some _ => ?_
  refine Prog.call_congr fun | none => rfl | some _ => ?_
  refine Prog.call_congr fun | none => rfl | some route => ?_
  refine Prog.call_congr fun _ => ?_
  rcases route with ⟨_, _, _, _, _, _ | _⟩
  · rfl
  · exact Prog.call_congr fun | none => rfl | some _ => rfl

theorem handler_init (r : InitRequest) (conversationId : String) :
    Job.handler ⟨.init r, conversationId⟩ =
      checkedSession r.accessKey fun _ => fetchedSession r.accessKey fun info =>
        .call (.setConversation
          (Conversation.new conversationId info.uid (RouteService.recipient r) 1)) fun
        | none => refuse (Status.internal "Failed to initialize conversation")
        | some conversationId => reply (.init ⟨conversationId⟩) := by
  refine Prog.call_congr fun | none => rfl | some _ => ?_
  refine Prog.call_congr fun | none => rfl | some info => ?_
  exact Prog.call_congr fun | none => rfl | some _ => rfl

theorem handler_ping (remoteAddr : Option SocketAddr) (r : PingRequest) (id : String) :
    Job.handler ⟨.ping remoteAddr r, id⟩ =
      match remoteAddr with
      | none => refuse (Status.internal "Could not get client IP address")
      | some clientIp =>
        checkedSession r.accessKey fun _ => fetchedSession r.accessKey fun session =>
          if session.clientIp = clientIp then
            .call .utcNow fun timestamp => reply (.ping ⟨"PONG", timestamp⟩)
          else refuse (Status.unauthenticated "Invalid connection") := by
  cases remoteAddr with
  | none => rfl
  | some clientIp =>
    refine Prog.call_congr fun | none => rfl | some _ => ?_
    refine Prog.call_congr fun | none => rfl | some session => ?_
    by_cases hip : session.clientIp = clientIp
    · simp only [Prog.bind, ExceptT.bindCont, Handler.unwrap_some, pure_bind, hip, ne_eq,
        not_true_eq_false, if_false, if_true]
      rfl
    · simp only [Prog.bind, ExceptT.bindCont, Handler.unwrap_some, pure_bind, hip, ne_eq,
        not_false_eq_true, if_false, if_true]
      rfl

theorem handler_logout (r : LogoutRequest) (id : String) :
    Job.handler ⟨.logout r, id⟩ =
      checkedSession r.accessKey fun _ => .call (.takeSession r.accessKey) fun
        | none => reply .logout
        | some w => .call (.removeClient w.value.uid) fun _ => reply .logout := by
  refine Prog.call_congr fun | none => rfl | some _ => ?_
  exact Prog.call_congr fun | none => rfl | some _ => rfl

def storeSession (info : SessionInfo) (componentType : Component) (next : Program) : Program :=
  .call (.insertIndex componentType info.uid info.accessKey) fun _ =>
    .call (.insertSession info) fun _ => next

theorem handler_login (remoteAddr : Option SocketAddr) (r : LoginRequest) (accessKey : String) :
    Job.handler ⟨.login remoteAddr r, accessKey⟩ =
      match remoteAddr with
      | none => refuse (Status.internal "Could not get client IP address")
      | some clientIp =>
        if r.uid.isEmpty then refuse (Status.invalidArgument "UID and PWD cannot be empty")
        else match Component.fromI32 r.componentType with
          | none => crash
          | some componentType =>
            if componentType = .controller then
              refuse (Status.invalidArgument "Invalid component type")
            else .call (.getMember r.uid) fun member =>
              if (member.map fun m => m.pwd == r.pwd).getD false then
                storeSession (SessionManager.sessionInfo accessKey r.uid componentType clientIp
                  (AuthService.connectionSettings r)) componentType
                  (reply (.login ⟨accessKey, "Login successful"⟩))
              else refuse (Status.unauthenticated "Invalid credentials") := by
  cases remoteAddr with
  | none => rfl
  | some clientIp =>
    cases hu : r.uid.isEmpty with
    | true => simp only [Job.handler, AuthService.login, hu]; rfl
    | false =>
      cases hc : Component.fromI32 r.componentType with
      | none => simp only [Job.handler, AuthService.login, hu, hc]; rfl
      | some componentType =>
        simp only [Job.handler, AuthService.login, hu, hc]
        cases componentType with
        | controller => rfl
        | proxy | client =>
          refine Prog.call_congr fun member => ?_
          simp only [Prog.bind, ExceptT.bindCont]
          cases (member.map fun m => m.pwd == r.pwd).getD false with
          | false => rfl
          | true => rfl

theorem handler_status (version : String) (r : StatusRequest) (id : String) :
    Job.handler ⟨.status version r, id⟩ =
      checkedSession r.accessKey fun _ => .call (.count .proxy) fun proxies =>
        .call (.count .client) fun clients => .call (.count .controller) fun controllers =>
          reply (.status
            { version := version
              connectedClients := InfoService.toU32 clients
              connectedProxies := InfoService.toU32 proxies
              connectedControllers := InfoService.toU32 controllers }) :=
  Prog.call_congr fun | none => rfl | some _ => rfl

end FuzzyChat
