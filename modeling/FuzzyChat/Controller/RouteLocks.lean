import FuzzyChat.Controller.Admission
import FuzzyChat.Interleave.LockOrder

/-! The locks of the in-memory repositories of routes and of members, which are taken in one
order. -/

namespace FuzzyChat
open Interleave

inductive RouteLock where
  | routes
  | conversations
  | members
  deriving DecidableEq, Repr

/-- A call on the route repository or the members', or one pass of the sweep. -/
inductive RouteTask where
  | setConversation (conversation : Conversation)
  | removeConversation (conversationId : String)
  | getConversation (conversationId : String)
  | setRoute (conversationId : String) (route : Route)
  | getRoute (conversationId nonce : String)
  | removeRoute (nonce : String)
  | killExpiredRoutes
  | getMember (uid : String)
  | setMember (member : Member)
  deriving DecidableEq

namespace RouteTask

def guards : RouteTask → List (RouteLock × Mode)
  | setConversation _ => [(.conversations, .write)]
  | removeConversation _ => [(.conversations, .write)]
  | getConversation _ => [(.conversations, .read)]
  | setRoute _ _ => [(.routes, .write), (.conversations, .write)]
  | getRoute _ _ => [(.routes, .read)]
  | removeRoute _ => [(.routes, .write)]
  | killExpiredRoutes => [(.routes, .write), (.conversations, .write)]
  | getMember _ => [(.members, .read)]
  | setMember _ => [(.members, .write)]

/-- An operation that requests come to, or the setting of a member, which only a seeding does. -/
inductive Op where
  | repo (op : RepoOp)
  | setMember (member : Member)

abbrev Op.Res : Op → Type
  | repo op => op.Res
  | setMember _ => Unit

def Op.exec (c : Choice) : (op : Op) → Storage → op.Res × Storage
  | repo op, s => s.step c op
  | setMember member, s =>
    ((), { s.tick c.elapsed with members := MemberManager.setMember member s.members })

def op : RouteTask → Op
  | setConversation conversation => .repo (.setConversation conversation)
  | removeConversation c => .repo (.removeConversation c)
  | getConversation c => .repo (.getConversation c)
  | setRoute c route => .repo (.setRoute c route)
  | getRoute c n => .repo (.getRoute c n)
  | removeRoute n => .repo (.removeRoute n)
  | killExpiredRoutes => .repo .killExpiredRoutes
  | getMember uid => .repo (.getMember uid)
  | setMember member => .setMember member

def prog (t : RouteTask) : Prog (LockOp.Res (L := RouteLock) Op.Res) (Σ op : Op, op.Res) :=
  Sigma.mk t.op <$> Prog.under t.guards t.op

end RouteTask

abbrev routeLocks : System := locking RouteTask.Op.exec RouteTask.prog

theorem RouteTask.unguarded_prog (t : RouteTask) :
    t.prog.unguarded = .call t.op fun r => .ret ⟨t.op, r⟩ := by
  rw [prog, unguarded_map, unguarded_under]
  rfl

def RouteLock.rank : RouteLock → Nat
  | routes => 0
  | conversations => 1
  | members => 2

theorem RouteTask.scoped_prog (t : RouteTask) : Scoped (Ordered RouteLock.rank) [] t.prog := by
  refine (scoped_under (climbs_of_ordered ?_ fun h hh => ?_) t.op).map _
  · cases t <;> simp [guards, RouteLock.rank]
  · contradiction

/-- However many calls and sweeps there are, and however their steps are interleaved. -/
theorem route_locks_deadlockFree {s₀ : Storage} {p : Pool routeLocks}
    (hp : Reachable (S := routeLocks) ⟨[], s₀⟩ p) : DeadlockFree p :=
  have : Nonempty Choice := ⟨⟨0, 0⟩⟩
  deadlockFree_of_ordered RouteTask.scoped_prog rfl hp

theorem route_locks_deadlockFree_sample : ∃ p : Pool routeLocks,
    p.tasks.length = 5 ∧ p.state.held.length = 3 ∧ DeadlockFree p := by
  obtain ⟨p, hrun, hends⟩ : ∃ p, (Pool.start ⟨[], Storage.start ∅⟩ : Pool routeLocks).run
      [.spawn (.setRoute "c1" (RouteManager.storedRoute "n-1" ⟨"10.0.0.1", 50051, "north", [1]⟩
          false)), .spawn .killExpiredRoutes, .spawn (.getConversation "c1"),
        .spawn (.setMember ⟨"alice", "a"⟩), .spawn (.getMember "alice"),
        .act 0 ⟨0, 0⟩, .act 0 ⟨0, 0⟩, .act 3 ⟨0, 0⟩] = some p ∧
      (p.tasks.length, p.state.held.length) = (5, 3) := exists_run (by rfl)
  obtain ⟨hlength, hheld⟩ := Prod.mk.inj hends
  exact ⟨p, hlength, hheld, route_locks_deadlockFree (Reachable.of_run hrun)⟩

end FuzzyChat
