import FuzzyChat.Controller.Runs
import FuzzyChat.Interleave.Served
import FuzzyChat.Peers.Services

/-! Proxies, clients and the controller together: a call to the controller is a job among others in
its pool, a call to another peer is the run of that peer's own service. -/

namespace FuzzyChat
open Interleave

/-- The network while a command is under way: the crates, the way to the controller and to the
nodes, the session each node holds, and what comes back from a node without the service called. -/
structure Network where
  crates : Crates
  dialController : Except Fault Unit
  dial : Uri → List UInt8 → String → Except Fault Node
  clientSession : Node → ClientSession
  refusal : Abort

/-- The identifiers are those drawn for this command's requests, in their order. -/
structure Setting where
  network : Network
  rivals : Rivals controller
  ids : Nat → String

/-- `turn` counts the steps taken at the controller, `drawn` the identifiers used up; `hops` are the
proxies a command was executed at, and `received` the messages put into the clients' channels. -/
structure World where
  pool : ControllerPool
  turn : Nat
  drawn : Nat
  hops : List String
  received : List (String × TextMessage)

def World.start (pool : ControllerPool) : World := ⟨pool, 0, 0, [], []⟩

namespace Reply

def init? : Reply → Option InitResponse
  | .init r => some r
  | _ => none

def route? : Reply → Option RouteResponse
  | .route r => some r
  | _ => none

def redeem? : Reply → Option RedeemResponse
  | .redeem r => some r
  | _ => none

def status? : Reply → Option StatusResponse
  | .status r => some r
  | _ => none

end Reply

def answer {α : Type} (pick : Reply → Option α) : Except Abort Reply → Except Abort α
  | .ok r => match pick r with
    | some a => .ok a
    | none => .error .panic
  | .error e => .error e

namespace Setting
variable (x : Setting)

def jobOf (request : Request) (drawn : Nat) : Job :=
  ⟨request, if request.draws.isSome then x.ids drawn else ""⟩

def call {α : Type} (request : Request) (pick : Reply → Option α) (w : World) :
    Option (Except Abort α × World) :=
  (x.rivals.submit (x.jobOf request w.drawn) w.turn w.pool).map fun r =>
    (answer pick r.1,
      { w with
        pool := r.2.2
        turn := r.2.1
        drawn := if request.draws.isSome then w.drawn + 1 else w.drawn })

/-- One operation of a service at the given node. The number bounds how deep calls may nest. The
channels of running clients are open, and no message is too long for the transport. -/
def exec : Nat → Node → (op : PeerOp) → World → Option (op.Res × World)
  | 0, _, _, _ => none
  | n + 1, self, op, w =>
    match op with
    | .connectController => some (x.network.dialController, w)
    | .initConversation r => x.call (.init r) Reply.init? w
    | .getRoute r => x.call (.route r) Reply.route? w
    | .redeem r => x.call (.redeem r) Reply.redeem? w
    | .getStatus r => x.call (.status "1.0.0" r) Reply.status? w
    | .connectProxy endpoint publicKey domainName
    | .connectLander endpoint publicKey domainName =>
      some (x.network.dial endpoint publicKey domainName, w)
    | .executeCommand (.proxy uid) r =>
      Prog.run (exec n (.proxy uid)) (ProxyServiceImpl.executeCommand x.network.crates r)
        { w with hops := w.hops ++ [uid] }
    | .receive (.client uid) r =>
      Prog.run (exec n (.client uid)) (LandingServiceImpl.receive r) w
    | .executeCommand (.client _) _ | .receive (.proxy _) _ => some (.error x.network.refusal, w)
    | .isAuthenticated => some ((x.network.clientSession self).isAuthenticated, w)
    | .getSession => some (x.network.clientSession self, w)
    | .channel message =>
      match self with
      | .client uid => some (true, { w with received := w.received ++ [(uid, message)] })
      | .proxy _ => some (false, w)
    | .instantNow => some (w.pool.state.now, w)

def sendMessage (depth : Nat) (session : SessionInfo) (toUid : String) (content : List UInt8)
    (w : World) : Option (Except Fault CommandResponse × World) :=
  Prog.run (x.exec depth (.client session.uid))
    (Commander.sendMessage x.network.crates session.accessKey toUid content) w

end Setting
end FuzzyChat
