import FuzzyChat.Controller.SessionRepository
import FuzzyChat.Controller.RouteRepository
import FuzzyChat.Interleave.System

/-! The controller's storage as one state, and the atomic operations the requests perform on it. -/

namespace FuzzyChat
open Interleave

structure Storage where
  sessions : SessionStore
  routes : RouteStore
  members : Table String Member
  now : Nat

namespace Storage

def start (members : Table String Member) : Storage :=
  ⟨SessionStore.empty, RouteStore.empty, members, 0⟩

end Storage

/-- Each operation is one section under a lock of the repository; the last two ask the random
number generator and the wall clock. -/
inductive RepoOp where
  | insertIndex (c : Component) (uid accessKey : String)
  | insertSession (info : SessionInfo)
  | getSession (accessKey : String)
  | takeSession (accessKey : String)
  | removeClient (uid : String)
  | getProxies (accessKey : String)
  | clientKey (uid : String)
  | sessionOf (accessKey : String)
  | count (c : Component)
  | killExpiredSessions
  | setConversation (conversation : Conversation)
  | removeConversation (conversationId : String)
  | getConversation (conversationId : String)
  | setRoute (conversationId : String) (route : Route)
  | getRoute (conversationId nonce : String)
  | removeRoute (nonce : String)
  | killExpiredRoutes
  | getMember (uid : String)
  | choose (numbers : List Nat)
  | utcNow
  deriving DecidableEq

namespace RepoOp

abbrev Res : RepoOp → Type
  | insertIndex .. | insertSession _ | removeClient _ | killExpiredSessions | removeConversation _
  | removeRoute _ | killExpiredRoutes => Unit
  | getSession _ | sessionOf _ => Option SessionInfo
  | takeSession _ => Option (ExpirationWrapper SessionInfo)
  | getProxies _ => Option (List SessionInfo)
  | clientKey _ | setConversation _ | setRoute .. => Option String
  | count _ | utcNow => Nat
  | getConversation _ => Option Conversation
  | getRoute .. => Option Route
  | getMember _ => Option Member
  | choose _ => Option Nat

end RepoOp

/-- The time since the last step, and the outcome of whatever a step leaves open. -/
structure Choice where
  elapsed : Nat
  index : Nat
  deriving DecidableEq, Repr

/-- Any order of the list: the iteration order of a hash map is not specified. -/
def reorder (index : Nat) (proxies : List SessionInfo) : List SessionInfo :=
  proxies.permutations[index % proxies.permutations.length]?.getD proxies

/-- Any member of the list, and nothing from the empty one. -/
def chooseFrom (index : Nat) (numbers : List Nat) : Option Nat := numbers[index % numbers.length]?

theorem reorder_perm (index : Nat) (proxies : List SessionInfo) :
    (reorder index proxies).Perm proxies := by
  unfold reorder
  cases h : proxies.permutations[index % proxies.permutations.length]? with
  | none => exact List.Perm.refl _
  | some l => exact List.mem_permutations.mp (List.mem_of_getElem? h)

theorem chooseFrom_lt (index : Nat) {proxies : List SessionInfo} (h : proxies ≠ []) :
    (chooseFrom index (List.range (proxies.length - 1))).getD 0 < proxies.length := by
  have hpos := List.length_pos_iff.mpr h
  cases hc : chooseFrom index (List.range (proxies.length - 1)) with
  | none => exact hpos
  | some n =>
    have hn := List.mem_range.mp (List.mem_of_getElem? hc)
    exact Nat.lt_of_lt_of_le hn (Nat.sub_le _ _)

namespace Storage

def withSessions (s : Storage) (f : SessionStore → SessionStore) : Storage :=
  { s with sessions := f s.sessions }

def withRoutes (s : Storage) (f : RouteStore → RouteStore) : Storage :=
  { s with routes := f s.routes }

def exec (index : Nat) (s : Storage) : (op : RepoOp) → op.Res × Storage
  | .insertIndex c uid k => ((), s.withSessions (·.insertIndex c uid k))
  | .insertSession info => ((), s.withSessions (·.insertSession s.now info))
  | .getSession k =>
    ((s.sessions.getSession s.now k).1, s.withSessions fun t => (t.getSession s.now k).2)
  | .takeSession k => ((s.sessions.takeSession k).1, s.withSessions fun t => (t.takeSession k).2)
  | .removeClient uid => ((), s.withSessions (·.removeClient uid))
  | .getProxies k => ((s.sessions.getProxies k).map (reorder index), s)
  | .clientKey uid => (s.sessions.clientKey uid, s)
  | .sessionOf k => (s.sessions.sessionOf k, s)
  | .count c => (s.sessions.count c, s)
  | .killExpiredSessions => ((), s.withSessions (·.killExpiredSessions s.now))
  | .setConversation c =>
    ((s.routes.setConversation s.now c).1, s.withRoutes fun t => (t.setConversation s.now c).2)
  | .removeConversation c => ((), s.withRoutes (·.removeConversation c))
  | .getConversation c => (s.routes.getConversation c, s)
  | .setRoute c r =>
    ((s.routes.setRoute s.now c r).1, s.withRoutes fun t => (t.setRoute s.now c r).2)
  | .getRoute c n => (s.routes.getRoute c n, s)
  | .removeRoute n => ((), s.withRoutes (·.removeRoute n))
  | .killExpiredRoutes => ((), s.withRoutes (·.killExpired s.now))
  | .getMember uid => (s.members.lookup uid, s)
  | .choose numbers => (chooseFrom index numbers, s)
  | .utcNow => (s.now, s)

def tick (elapsed : Nat) (s : Storage) : Storage := { s with now := s.now + elapsed }

def step (c : Choice) (op : RepoOp) (s : Storage) : op.Res × Storage :=
  exec c.index (s.tick c.elapsed) op

end Storage
end FuzzyChat
