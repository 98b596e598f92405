import FuzzyChat.Table

/-! The records the controller keeps and the messages it answers. -/

namespace FuzzyChat

inductive Component where
  | controller
  | proxy
  | client
  deriving DecidableEq, Repr

namespace Component

/-- `none` is the conversion's panic on any other value. -/
def fromI32 (value : Int32) : Option Component :=
  if value = 0 then some controller
  else if value = 1 then some proxy
  else if value = 2 then some client
  else none

def fromU8 (value : UInt8) : Option Component := fromI32 (Int32.ofNat value.toNat)

def toU8 : Component → UInt8
  | controller => 0
  | proxy => 1
  | client => 2

@[simp] theorem fromU8_toU8 (c : Component) : fromU8 c.toU8 = some c := by
  cases c <;> decide

theorem ofNat_toNat_eq {value : UInt8} {n : Nat} (hn : n < 256)
    (h : Int32.ofNat value.toNat = Int32.ofNat n) : value = UInt8.ofNat n := by
  have hv := value.toNat_lt
  have hint := congrArg Int32.toInt h
  rw [Int32.toInt_ofNat_of_lt (by omega), Int32.toInt_ofNat_of_lt (by omega)] at hint
  apply UInt8.toNat_inj.mp
  rw [UInt8.toNat_ofNat']
  omega

theorem toU8_of_fromU8 {value : UInt8} {c : Component} (h : fromU8 value = some c) :
    value = c.toU8 := by
  unfold fromU8 fromI32 at h
  split_ifs at h with h0 h1 h2
  · cases h
    exact ofNat_toNat_eq (by decide) h0
  · cases h
    exact ofNat_toNat_eq (by decide) h1
  · cases h
    exact ofNat_toNat_eq (by decide) h2

theorem toU8_injective : Function.Injective toU8 := fun c c' h =>
  Option.some.inj ((fromU8_toU8 c).symm.trans ((congrArg fromU8 h).trans (fromU8_toU8 c')))

end Component

structure SocketAddr where
  ip : String
  port : UInt16
  deriving DecidableEq, Repr

structure ConnectionSettings where
  ip : String
  port : UInt16
  domainName : String
  certificate : List UInt8
  deriving DecidableEq, Repr

structure Route where
  onIpAddress : String
  onPortNumber : UInt16
  publicKey : List UInt8
  domainName : String
  nonce : String
  endRoute : Bool
  deriving DecidableEq, Repr

/-- `fromUid` and `toUid` are the fields `from` and `to`. -/
structure Conversation where
  id : String
  fromUid : String
  toUid : String
  routingId : UInt8
  routes : List Route
  deriving DecidableEq, Repr

def Conversation.new (id fromUid toUid : String) (routingId : UInt8) : Conversation :=
  ⟨id, fromUid, toUid, routingId, []⟩

structure Member where
  uid : String
  pwd : String
  deriving DecidableEq, Repr

structure SessionInfo where
  accessKey : String
  uid : String
  clientIp : SocketAddr
  onPortNumber : UInt16
  onIpAddress : String
  componentType : UInt8
  publicKey : List UInt8
  domainName : String
  deriving DecidableEq, Repr

def SessionInfo.toConnectionSettings (info : SessionInfo) : ConnectionSettings :=
  ⟨info.onIpAddress, info.onPortNumber, info.domainName, info.publicKey⟩

structure ExpirationWrapper (α : Type) where
  value : α
  expiresAt : Nat
  expirationTime : Nat
  deriving DecidableEq, Repr

namespace ExpirationWrapper
variable {α : Type}

def new (now : Nat) (value : α) (expirationTime : Nat) : ExpirationWrapper α :=
  ⟨value, now + expirationTime, expirationTime⟩

def isExpired (now : Nat) (w : ExpirationWrapper α) : Bool := decide (w.expiresAt < now)

def renew (now : Nat) (w : ExpirationWrapper α) : ExpirationWrapper α :=
  { w with expiresAt := now + w.expirationTime }

@[simp] theorem renew_value (now : Nat) (w : ExpirationWrapper α) :
    (w.renew now).value = w.value := rfl

end ExpirationWrapper

inductive Code where
  | invalidArgument
  | notFound
  | internal
  | unauthenticated
  deriving DecidableEq, Repr

structure Status where
  code : Code
  message : String
  deriving DecidableEq, Repr

def Status.invalidArgument (message : String) : Status := ⟨.invalidArgument, message⟩
def Status.notFound (message : String) : Status := ⟨.notFound, message⟩
def Status.internal (message : String) : Status := ⟨.internal, message⟩
def Status.unauthenticated (message : String) : Status := ⟨.unauthenticated, message⟩

structure LoginRequest where
  uid : String
  pwd : String
  onIp : String
  onPort : UInt32
  publicKey : List UInt8
  domainName : String
  componentType : Int32
  deriving DecidableEq, Repr

structure LoginResponse where
  accessKey : String
  message : String
  deriving DecidableEq, Repr

structure LogoutRequest where
  accessKey : String
  deriving DecidableEq, Repr

structure PingRequest where
  accessKey : String
  deriving DecidableEq, Repr

structure PingResponse where
  status : String
  timestamp : Nat
  deriving DecidableEq, Repr

/-- `toUid` is the field `to`. -/
structure InitRequest where
  accessKey : String
  toUid : String
  deriving DecidableEq, Repr

structure InitResponse where
  conversationId : String
  deriving DecidableEq, Repr

structure RouteRequest where
  accessKey : String
  conversationId : String
  deriving DecidableEq, Repr

structure RouteResponse where
  ipAddress : String
  portNumber : UInt32
  publicKey : List UInt8
  domainName : String
  nonce : String
  endRoute : Bool
  deriving DecidableEq, Repr

structure RedeemRequest where
  accessKey : String
  conversationId : String
  nonce : String
  deriving DecidableEq, Repr

/-- The one field is `from`. -/
structure SourceInfo where
  fromUid : String
  deriving DecidableEq, Repr

structure RedeemResponse where
  sourceInfo : Option SourceInfo
  deriving DecidableEq, Repr

structure StatusRequest where
  accessKey : String
  deriving DecidableEq, Repr

structure StatusResponse where
  version : String
  connectedProxies : UInt32
  connectedClients : UInt32
  connectedControllers : UInt32
  deriving DecidableEq, Repr

end FuzzyChat
