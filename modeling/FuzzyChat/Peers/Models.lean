import FuzzyChat.Controller.Services
import FuzzyChat.Utf8

/-! What proxies and clients send each other, and the operations they ask of their collaborators. -/

namespace FuzzyChat
open Interleave

structure Uri where
  text : String
  deriving DecidableEq, Repr

/-- What the crates outside the repository compute: the URI parser, and the text of an error and of
a debug print. -/
structure Crates where
  parse : String → Option Uri
  display : Abort → String
  debug : StatusResponse → String

/-- A boxed error: a text, or what a call came back with. -/
inductive Fault where
  | text (s : String)
  | abort (a : Abort)
  deriving DecidableEq, Repr

def Fault.display (c : Crates) : Fault → String
  | text s => s
  | abort a => c.display a

namespace networking

def toEndpoint (c : Crates) (scheme ip : String) (port : UInt32) : Except Fault Uri :=
  match c.parse (scheme ++ "://" ++ ip ++ ":" ++ toString port) with
  | some uri => .ok uri
  | none => .error (.text "Invalid endpoint URI")

def toHttpsEndpoint (c : Crates) (ip : String) (port : UInt32) : Except Fault Uri :=
  toEndpoint c "https" ip port

end networking

inductive CommandType where
  | unknown
  | send
  | status
  deriving DecidableEq, Repr

def CommandType.toI32 : CommandType → Int32
  | unknown => 0
  | send => 1
  | status => 2

def CommandType.tryFrom (value : Int32) : Option CommandType :=
  if value = 0 then some unknown
  else if value = 1 then some send
  else if value = 2 then some status
  else none

@[simp] theorem CommandType.tryFrom_toI32 (t : CommandType) : tryFrom t.toI32 = some t := by
  cases t <;> decide

structure CommandRequest where
  conversationId : String
  nonce : String
  command : Int32
  content : Option (List UInt8)
  deriving DecidableEq, Repr

structure CommandResponse where
  result : Option String
  deriving DecidableEq, Repr

structure TextRequest where
  conversationId : String
  accessKey : String
  nonce : String
  content : List UInt8
  deriving DecidableEq, Repr

structure TextResponse where
  deriving DecidableEq, Repr

/-- `fromUid` and `toUid` are the fields `from` and `to`; `sentAt` is `at`. -/
structure TextMessage where
  fromUid : String
  toUid : String
  content : String
  sentAt : Nat
  deriving DecidableEq, Repr

def TextMessage.new (fromUid toUid : String) (content : List UInt8) (now : Nat) : TextMessage :=
  ⟨fromUid, toUid, Utf8.fromUtf8Lossy content, now⟩

structure ClientSession where
  accessKey : Option String
  uid : Option String
  deriving DecidableEq, Repr

def ClientSession.isAuthenticated (s : ClientSession) : Bool :=
  s.uid.isSome && s.accessKey.isSome

/-- Whom a connection can be opened to, the controller aside. -/
inductive Node where
  | proxy (uid : String)
  | client (uid : String)
  deriving DecidableEq, Repr

/-- The operations of the routers, informers, landers, proxies, authenticators and channels that
the traits of the clients give to the services. -/
inductive PeerOp where
  | connectController
  | initConversation (r : InitRequest)
  | getRoute (r : RouteRequest)
  | redeem (r : RedeemRequest)
  | getStatus (r : StatusRequest)
  | connectProxy (endpoint : Uri) (publicKey : List UInt8) (domainName : String)
  | connectLander (endpoint : Uri) (publicKey : List UInt8) (domainName : String)
  | executeCommand (node : Node) (r : CommandRequest)
  | receive (node : Node) (r : TextRequest)
  | isAuthenticated
  | getSession
  | channel (message : TextMessage)
  | instantNow
  deriving DecidableEq

/-- A call is answered, comes back with a status, or breaks off when the other side panics. -/
abbrev PeerOp.Res : PeerOp → Type
  | connectController => Except Fault Unit
  | initConversation _ => Except Abort InitResponse
  | getRoute _ => Except Abort RouteResponse
  | redeem _ => Except Abort RedeemResponse
  | getStatus _ => Except Abort StatusResponse
  | connectProxy .. | connectLander .. => Except Fault Node
  | executeCommand .. => Except Abort CommandResponse
  | receive .. => Except Abort TextResponse
  | isAuthenticated => Bool
  | getSession => ClientSession
  | channel _ => Bool
  | instantNow => Nat

abbrev Peer (ε α : Type) := ExceptT ε (Prog PeerOp.Res) α

namespace Peer
variable {ε ε' α : Type}

def ask (op : PeerOp) : Peer ε op.Res := Prog.call op fun r => .ret (.ok r)

def mapErr (f : ε → ε') : Except ε α → Peer ε' α
  | .ok a => pure a
  | .error e => throw (f e)

end Peer
end FuzzyChat
