import FuzzyChat.Peers.Models
import FuzzyChat.Interleave.Sequence

/-! The authenticator, and the session cell it shares with the command handler. -/

namespace FuzzyChat
open Interleave

structure Credentials where
  uid : String
  pwd : String
  deriving DecidableEq, Repr

def Component.toI32 (c : Component) : Int32 := Int32.ofNat c.toU8.toNat

def ClientSession.blank : ClientSession := ⟨none, none⟩

/-- `set_session`. -/
def ClientSession.of (uid accessKey : String) : ClientSession := ⟨some accessKey, some uid⟩

/-- `session` is the number of the cell it refers to, and `connected` whether there is a
`client`. -/
structure AuthClient where
  session : Nat
  connected : Bool
  credentials : Credentials
  connectionSettings : ConnectionSettings
  componentType : Component

/-- The session cells made so far, of which the first is the one the constructor was given. -/
structure AuthState where
  cells : List ClientSession
  auth : AuthClient
  refers : auth.session < cells.length

namespace AuthState

def current (s : AuthState) : ClientSession := s.cells.get ⟨s.auth.session, s.refers⟩

def passed (s : AuthState) : ClientSession := s.cells.get ⟨0, Nat.zero_lt_of_lt s.refers⟩

def write (session : ClientSession) (s : AuthState) : AuthState where
  cells := s.cells.set s.auth.session session
  auth := s.auth
  refers := by rw [List.length_set]; exact s.refers

def replace (session : ClientSession) (s : AuthState) : AuthState where
  cells := s.cells ++ [session]
  auth := { s.auth with session := s.cells.length }
  refers := by simp

variable (s : AuthState) (session : ClientSession)

@[simp] theorem current_write : (s.write session).current = session := by
  simp [current, write]

@[simp] theorem current_replace : (s.replace session).current = session := by
  simp [current, replace]

@[simp] theorem passed_replace : (s.replace session).passed = s.passed := by
  have h : 0 < s.cells.length := Nat.zero_lt_of_lt s.refers
  simp [passed, replace, List.getElem_append_left h]

theorem passed_write :
    (s.write session).passed = if s.auth.session = 0 then session else s.passed := by
  simp [passed, write, List.getElem_set]

end AuthState

/-! The methods: `none` is the panic of a client that is not connected. The answers of the service
are given to them. -/

namespace AuthClient

def new (session : ClientSession) (credentials : Credentials)
    (connectionSettings : ConnectionSettings) (componentType : Component) : AuthState where
  cells := [session]
  auth := ⟨0, false, credentials, connectionSettings, componentType⟩
  refers := Nat.zero_lt_one

/-- `initialize`. -/
def initializeClient (connection : Except Fault Unit) (s : AuthState) :
    Except Fault Unit × AuthState :=
  match connection with
  | .ok () => (.ok (), { s with auth := { s.auth with connected := true } })
  | .error e => (.error e, s)

def loginRequest (a : AuthClient) : LoginRequest where
  uid := a.credentials.uid
  pwd := a.credentials.pwd
  onIp := a.connectionSettings.ip
  onPort := a.connectionSettings.port.toUInt32
  publicKey := a.connectionSettings.certificate
  domainName := a.connectionSettings.domainName
  componentType := a.componentType.toI32

def login (c : Crates) (answer : Except Abort LoginResponse) (s : AuthState) :
    Option (Except Fault Unit × AuthState) :=
  if s.auth.connected then
    match answer with
    | .error a => some (.error (.text ("Login failed: " ++ c.display a)), s)
    | .ok response =>
      some (.ok (), s.write (ClientSession.of s.auth.credentials.uid response.accessKey))
  else none

def logoutRequest (s : AuthState) : LogoutRequest := ⟨s.current.accessKey.getD ""⟩

def logout (c : Crates) (answer : Except Abort Unit) (s : AuthState) :
    Option (Except Fault Unit × AuthState) :=
  if s.auth.connected then
    match answer with
    | .error a => some (.error (.text ("Logout failed: " ++ c.display a)), s)
    | .ok () => some (.ok (), s.replace ClientSession.blank)
  else none

def pingRequest (s : AuthState) : PingRequest := ⟨s.current.accessKey.getD ""⟩

def ping (answer : Except Abort PingResponse) (s : AuthState) :
    Option (Except Fault (String × Nat) × AuthState) :=
  if s.auth.connected then
    match answer with
    | .error a => some (.error (.abort a), s)
    | .ok response => some (.ok (response.status, response.timestamp), s)
  else none

def getSession (s : AuthState) : ClientSession := s.current

def isAuthenticated (s : AuthState) : Bool := (getSession s).isAuthenticated

end AuthClient

/-! Calls of the methods in any order, with any answers. -/

inductive AuthOp where
  | initializeClient (connection : Except Fault Unit)
  | login (answer : Except Abort LoginResponse)
  | logout (answer : Except Abort Unit)
  | ping (answer : Except Abort PingResponse)

def AuthState.step (c : Crates) (s : AuthState) : AuthOp → Option AuthState
  | .initializeClient connection => some (AuthClient.initializeClient connection s).2
  | .login answer => (AuthClient.login c answer s).map Prod.snd
  | .logout answer => (AuthClient.logout c answer s).map Prod.snd
  | .ping answer => (AuthClient.ping answer s).map Prod.snd

/-- The first cell shows what `get_session` returns. -/
structure AuthState.Mirrors (s : AuthState) : Prop where
  uid : s.passed.uid = (AuthClient.getSession s).uid
  accessKey : s.passed.accessKey = (AuthClient.getSession s).accessKey

/-- A logout that succeeds while the first cell shows a session, or a later login, to another cell,
that gives a session the first does not show. -/
def AuthState.Detaches (s : AuthState) : AuthOp → Prop
  | .logout (.ok ()) => s.auth.connected = true ∧ s.passed ≠ ClientSession.blank
  | .login (.ok response) => s.auth.connected = true ∧ s.auth.session ≠ 0 ∧
      s.passed ≠ ClientSession.of s.auth.credentials.uid response.accessKey
  | _ => False

namespace AuthState
variable {c : Crates} {s s' : AuthState}

theorem mirrors_iff : s.Mirrors ↔ s.passed = s.current := by
  have hext : ∀ x y : ClientSession, x.uid = y.uid → x.accessKey = y.accessKey → x = y := by
    rintro ⟨_, _⟩ ⟨_, _⟩ rfl rfl
    rfl
  constructor
  · exact fun h => hext _ _ h.uid h.accessKey
  · exact fun h => ⟨congrArg ClientSession.uid h, congrArg ClientSession.accessKey h⟩

theorem step_cases {op : AuthOp} (h : s.step c op = some s') :
    s'.cells = s.cells ∧ s'.auth.session = s.auth.session ∨
      (∃ response, op = .login (.ok response) ∧ s.auth.connected = true ∧
        s' = s.write (ClientSession.of s.auth.credentials.uid response.accessKey)) ∨
      op = .logout (.ok ()) ∧ s.auth.connected = true ∧ s' = s.replace ClientSession.blank := by
  cases op with
  | initializeClient connection =>
    cases connection <;> (cases h; exact .inl ⟨rfl, rfl⟩)
  | login answer =>
    obtain ⟨⟨_, _⟩, hx, rfl⟩ := Option.map_eq_some_iff.mp h
    obtain ⟨hconnected, hx⟩ := Option.ite_none_right_eq_some.mp hx
    cases answer with
    | error a =>
      cases hx
      exact .inl ⟨rfl, rfl⟩
    | ok response =>
      cases hx
      exact .inr (.inl ⟨response, rfl, hconnected, rfl⟩)
  | logout answer =>
    obtain ⟨⟨_, _⟩, hx, rfl⟩ := Option.map_eq_some_iff.mp h
    obtain ⟨hconnected, hx⟩ := Option.ite_none_right_eq_some.mp hx
    cases answer with
    | error a =>
      cases hx
      exact .inl ⟨rfl, rfl⟩
    | ok _ =>
      cases hx
      exact .inr (.inr ⟨rfl, hconnected, rfl⟩)
  | ping answer =>
    obtain ⟨⟨_, _⟩, hx, rfl⟩ := Option.map_eq_some_iff.mp h
    obtain ⟨-, hx⟩ := Option.ite_none_right_eq_some.mp hx
    cases answer <;> (cases hx; exact .inl ⟨rfl, rfl⟩)

theorem mirrors_keep (hm : s.Mirrors) (hcells : s'.cells = s.cells)
    (hsession : s'.auth.session = s.auth.session) : s'.Mirrors := by
  rw [mirrors_iff] at hm ⊢
  simp only [passed, current, List.get_eq_getElem, hcells, hsession]
  exact hm

theorem mirrors_write (session : ClientSession) :
    (s.write session).Mirrors ↔ s.auth.session = 0 ∨ s.passed = session := by
  rw [mirrors_iff, current_write, passed_write]
  split_ifs with h
  · simp [h]
  · simp [h]

theorem mirrors_replace (session : ClientSession) :
    (s.replace session).Mirrors ↔ s.passed = session := by
  rw [mirrors_iff, current_replace, passed_replace]

theorem mirrors_step (hm : s.Mirrors) (op : AuthOp) :
    ¬ s.Detaches op ↔ ∀ s', s.step c op = some s' → s'.Mirrors := by
  constructor
  · intro hno s' h
    rcases step_cases h with ⟨hcells, hsession⟩ | ⟨response, rfl, hc, rfl⟩ | ⟨rfl, hc, rfl⟩
    · exact mirrors_keep hm hcells hsession
    · apply (mirrors_write _).mpr
      by_contra hor
      obtain ⟨hcell, hpassed⟩ := not_or.mp hor
      exact hno ⟨hc, hcell, hpassed⟩
    · apply (mirrors_replace _).mpr
      by_contra hpassed
      exact hno ⟨hc, hpassed⟩
  · intro hall hdetaches
    cases op with
    | initializeClient connection => exact hdetaches
    | ping answer => exact hdetaches
    | login answer =>
      cases answer with
      | error a => exact hdetaches
      | ok response =>
        obtain ⟨hc, hcell, hpassed⟩ := hdetaches
        have hafter := hall _ (congrArg (Option.map Prod.snd) (if_pos hc))
        exact ((mirrors_write _).mp hafter).elim hcell hpassed
    | logout answer =>
      cases answer with
      | error a => exact hdetaches
      | ok _ =>
        obtain ⟨hc, hpassed⟩ := hdetaches
        have hafter := hall _ (congrArg (Option.map Prod.snd) (if_pos hc))
        exact hpassed ((mirrors_replace _).mp hafter)

/-- The cell given to the constructor mirrors the authenticator exactly as long as no call detaches
the one from the other. -/
theorem always_mirrors_iff (c : Crates) (session : ClientSession) (credentials : Credentials)
    (settings : ConnectionSettings) (componentType : Component) (ops : List AuthOp) :
    Always (step c) Mirrors (AuthClient.new session credentials settings componentType) ops ↔
      Each (step c) (fun s op => ¬ s.Detaches op)
        (AuthClient.new session credentials settings componentType) ops := by
  apply always_iff_each (I := fun _ => True)
  · exact fun _ _ _ _ _ => trivial
  · exact fun s op _ hm => mirrors_step hm op
  · trivial
  · exact mirrors_iff.mpr rfl

/-- After a login and a logout the command handler still reads the key that has been logged out. -/
theorem logout_leaves_key : ¬ ∀ c session credentials settings componentType ops,
    Always (step c) Mirrors (AuthClient.new session credentials settings componentType) ops := by
  intro hall
  have h := hall ⟨fun _ => none, fun _ => "", fun _ => ""⟩ ClientSession.blank ⟨"alice", "alice"⟩
    ⟨"10.0.0.1", 50051, "alice", [1]⟩ .client
    [.initializeClient (.ok ()), .login (.ok ⟨"k-alice", "Login successful"⟩), .logout (.ok ())]
  have hlast := ((h.2 _ rfl).2 _ rfl).2 _ rfl
  exact absurd hlast.accessKey (by decide)

end AuthState
end FuzzyChat
