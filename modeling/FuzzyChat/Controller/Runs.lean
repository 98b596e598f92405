import FuzzyChat.Controller.Services
import FuzzyChat.Interleave.Safe

/-! The controller as a system: any number of requests and sweeper passes in flight, each advancing
by one operation of the storage at a time. -/

namespace FuzzyChat
open Interleave

inductive Request where
  | login (remoteAddr : Option SocketAddr) (r : LoginRequest)
  | logout (r : LogoutRequest)
  | ping (remoteAddr : Option SocketAddr) (r : PingRequest)
  | init (r : InitRequest)
  | route (r : RouteRequest)
  | redeem (r : RedeemRequest)
  | status (version : String) (r : StatusRequest)
  | register (uid : String) (clientIp : SocketAddr) (settings : ConnectionSettings)
  | sweepSessions
  | sweepRoutes
  deriving DecidableEq

inductive Reply where
  | login (r : LoginResponse)
  | logout
  | ping (r : PingResponse)
  | init (r : InitResponse)
  | route (r : RouteResponse)
  | redeem (r : RedeemResponse)
  | status (r : StatusResponse)
  | done
  deriving DecidableEq

inductive IdKind where
  | accessKey
  | conversationId
  | nonce
  deriving DecidableEq

def Request.draws : Request → Option IdKind
  | .login .. | .register .. => some .accessKey
  | .init _ => some .conversationId
  | .route _ => some .nonce
  | _ => none

/-- A request together with the identifier it draws; other requests leave theirs unused. -/
structure Job where
  request : Request
  id : String
  deriving DecidableEq

/-- Identifiers of one kind are pairwise distinct. -/
def Job.Apart (j j' : Job) : Prop :=
  j.request.draws ≠ none → j.request.draws = j'.request.draws → j.id ≠ j'.id

instance (j j' : Job) : Decidable (j.Apart j') := by unfold Job.Apart; infer_instance

namespace Job

def handler (j : Job) : Handler Reply :=
  match j.request with
  | .login remoteAddr r => do
    let r ← AuthService.login j.id remoteAddr r
    pure (.login r)
  | .logout r => do
    AuthService.logout r
    pure .logout
  | .ping remoteAddr r => do
    let r ← AuthService.ping remoteAddr r
    pure (.ping r)
  | .init r => do
    let r ← RouteService.initializeConversation j.id r
    pure (.init r)
  | .route r => do
    let r ← RouteService.route j.id r
    pure (.route r)
  | .redeem r => do
    let r ← RouteService.redeem r
    pure (.redeem r)
  | .status version r => do
    let r ← InfoService.status version r
    pure (.status r)
  | .register uid clientIp settings => do
    let _ ← SessionManager.setSession j.id uid .controller clientIp settings
    pure .done
  | .sweepSessions => do
    Handler.ask .killExpiredSessions
    pure .done
  | .sweepRoutes => do
    Handler.ask .killExpiredRoutes
    pure .done

end Job

abbrev controller : System where
  Op := RepoOp
  Res := RepoOp.Res
  State := Storage
  Choice := Choice
  Job := Job
  Out := Except Abort Reply
  exec _ c op s := some (s.step c op)
  prog := Job.handler
  admits js j := ∀ j' ∈ js, j.Apart j'
  decAdmits js j := by infer_instance

abbrev ControllerPool := Pool controller
abbrev ControllerHist := Hist controller
abbrev ControllerMove := Move controller

/-- All a step of the controller can do: the storage answers every operation. -/
theorem controller_step {p q : ControllerPool} {m : ControllerMove} (hq : p.step m = some q) :
    (∃ j, m = .spawn j ∧ q = p.accept j) ∨
      ∃ (i : Nat) (c : Choice) (j : Job) (op : RepoOp)
        (k : op.Res → Prog RepoOp.Res (Except Abort Reply)),
        m = .act i c ∧ p.tasks[i]? = some (j, .call op k) ∧
          q = p.advance (S := controller) i j op k (p.state.step c op).1 (p.state.step c op).2 := by
  rcases Pool.step_eq_some.mp hq with ⟨j, rfl, -, rfl⟩ | ⟨i, c, j, op, k, r, s, rfl, ht, hx, rfl⟩
  · exact .inl ⟨j, rfl, rfl⟩
  · have hstep : p.state.step c op = (r, s) := Option.some.inj hx
    refine .inr ⟨i, c, j, op, k, rfl, ht, ?_⟩
    rw [hstep]

theorem answer_of_did {C : ControllerPool → ControllerMove → Prop} {s₀ : Storage}
    {p : ControllerPool} (hp : Reach C s₀ p) {i : Nat} {pre : Storage} {op : RepoOp} {r : op.Res}
    (hd : p.hist.Did i pre op r) :
    ∃ p₀ c, Reach C s₀ p₀ ∧ p₀.hist.Before p.hist ∧ pre = p₀.state ∧ (p₀.state.step c op).1 = r := by
  obtain ⟨p₀, c, j, k, hp₀, hb, -, -, hpre, s, hx⟩ := hp.event _ hd
  exact ⟨p₀, c, hp₀, hb, hpre, congrArg Prod.fst (Option.some.inj hx)⟩

/-- Accept a job as task `i` and take `n` of its steps, with nothing in between. -/
def Job.alone (j : Job) (i n : Nat) : List ControllerMove :=
  .spawn j :: List.replicate n (.act i ⟨0, 0⟩)

def inTurn (jobs : List (Job × Nat)) : List ControllerMove :=
  (jobs.zipIdx.map fun x => x.1.1.alone x.2 x.1.2).flatten

/-! A small network for concrete runs: each member signs in with its own name as its password. -/

def sampleMembers : Table String Member :=
  ((∅ : Table String Member).insert "north" ⟨"north", "north"⟩).insert "alice" ⟨"alice", "alice"⟩
    |>.insert "south" ⟨"south", "south"⟩ |>.insert "bob" ⟨"bob", "bob"⟩

def signIn (uid : String) (componentType : Int32) (accessKey : String) : Job :=
  ⟨.login (some ⟨"10.0.0.1", 40000⟩)
    { uid := uid, pwd := uid, onIp := "10.0.0.1", onPort := 50051, publicKey := [1],
      domainName := uid, componentType := componentType }, accessKey⟩

def northRoute (nonce : String) : Route :=
  RouteManager.storedRoute nonce ⟨"10.0.0.1", 50051, "north", [1]⟩ false

def askRoute (accessKey nonce : String) : Job := ⟨.route ⟨accessKey, "c"⟩, nonce⟩

def redeemRoute (accessKey nonce : String) : Job := ⟨.redeem ⟨accessKey, "c", nonce⟩, ""⟩

def sampleSignIns : List (Job × Nat) :=
  [(signIn "north" 1 "k-north", 3), (signIn "south" 1 "k-south", 3), (signIn "bob" 2 "k-bob", 3),
    (signIn "alice" 2 "k-alice", 3)]

def sampleHops : List (Job × Nat) :=
  sampleSignIns ++ [(⟨.init ⟨"k-alice", "bob"⟩, "c"⟩, 3), (askRoute "k-alice" "n1", 6),
    (askRoute "k-north" "n2", 6), (askRoute "k-south" "n3", 6)]

def sampleEndRedeemed : List (Job × Nat) :=
  sampleHops ++ [(askRoute "k-north" "n4", 6), (redeemRoute "k-bob" "n4", 6)]

end FuzzyChat
