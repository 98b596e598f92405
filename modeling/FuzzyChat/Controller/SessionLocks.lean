import FuzzyChat.Controller.Services
import FuzzyChat.Interleave.RwLocks
import FuzzyChat.Interleave.Sequence

/-! The locks of the in-memory session repository: the guards each operation takes and drops around
its work on the maps. -/

namespace FuzzyChat
open Interleave

inductive RepoLock where
  | sessions
  | clients
  | controllers
  | proxies
  deriving DecidableEq, Repr

def Component.lock : Component → RepoLock
  | client => .clients
  | controller => .controllers
  | proxy => .proxies

abbrev GuardedProg (α : Type) := Prog (LockOp.Res (L := RepoLock) RepoOp.Res) α

namespace guarded

def acquire (l : RepoLock) (m : Mode) : GuardedProg Unit := .call (.acquire l m) .ret

def release (l : RepoLock) : GuardedProg Unit := .call (.release l) .ret

def run (op : RepoOp) : GuardedProg op.Res := .call (.run op) .ret

/-- The type is converted before any lock is taken: `none` is its panic. -/
def setSession (info : SessionInfo) : GuardedProg (Option Unit) :=
  match Component.fromU8 info.componentType with
  | none => pure none
  | some c => do
    acquire c.lock .write
    run (.insertIndex c info.uid info.accessKey)
    release c.lock
    acquire .sessions .write
    run (.insertSession info)
    release .sessions
    pure (some ())

def getSession (accessKey : String) : GuardedProg (Option SessionInfo) := do
  acquire .sessions .write
  let session ← run (.getSession accessKey)
  release .sessions
  pure session

/-- The guard on the sessions is held on to while the clients are waited for. -/
def removeSession (accessKey : String) : GuardedProg Unit := do
  acquire .sessions .write
  match ← run (.takeSession accessKey) with
  | some w =>
    acquire .clients .write
    run (.removeClient w.value.uid)
    release .clients
  | none => pure ()
  release .sessions

def getProxies (accessKey : String) : GuardedProg (Option (List SessionInfo)) := do
  acquire .proxies .read
  acquire .sessions .read
  let result ← run (.getProxies accessKey)
  release .sessions
  release .proxies
  pure result

def getClient (uid : String) : GuardedProg (Option SessionInfo) := do
  acquire .clients .read
  let result ← match ← run (.clientKey uid) with
    | some client => do
      acquire .sessions .read
      let wrapper ← run (.sessionOf client)
      release .sessions
      pure wrapper
    | none => pure none
  release .clients
  pure result

def count (c : Component) : GuardedProg Nat := do
  acquire c.lock .read
  let n ← run (.count c)
  release c.lock
  pure n

def killExpiredSessions : GuardedProg Unit := do
  acquire .sessions .write
  acquire .clients .write
  acquire .controllers .write
  acquire .proxies .write
  run .killExpiredSessions
  release .proxies
  release .controllers
  release .clients
  release .sessions

end guarded

inductive SessionTask where
  | setSession (info : SessionInfo)
  | getSession (accessKey : String)
  | removeSession (accessKey : String)
  | getProxies (accessKey : String)
  | getClient (uid : String)
  | count (c : Component)
  | killExpiredSessions
  deriving DecidableEq

def SessionTask.prog : SessionTask → GuardedProg Unit
  | setSession info => do let _ ← guarded.setSession info
  | getSession k => do let _ ← guarded.getSession k
  | removeSession k => guarded.removeSession k
  | getProxies k => do let _ ← guarded.getProxies k
  | getClient uid => do let _ ← guarded.getClient uid
  | count c => do let _ ← guarded.count c
  | killExpiredSessions => guarded.killExpiredSessions

abbrev sessionLocks : System := locking (fun c op s => Storage.step c op s) SessionTask.prog

abbrev LockPool := Pool sessionLocks
abbrev LockMove := Move sessionLocks

/-! Without the locks, these are the operations the requests are made of. -/

section unguarded

theorem unguarded_setSession (info : SessionInfo) : FuzzyChat.setSession info =
    (guarded.setSession info).unguarded >>= fun r =>
      (.ret (r.elim (.error .panic) .ok) : Prog RepoOp.Res (Except Abort Unit)) := by
  unfold FuzzyChat.setSession guarded.setSession
  cases Component.fromU8 info.componentType with
  | none => rfl
  | some c => rfl

theorem unguarded_getSession (k : String) : FuzzyChat.getSession k =
    ((guarded.getSession k).unguarded >>= fun r => .ret (.ok r) : Prog RepoOp.Res _) := rfl

theorem unguarded_removeSession (k : String) : FuzzyChat.removeSession k =
    ((guarded.removeSession k).unguarded >>= fun r => .ret (.ok r) : Prog RepoOp.Res _) :=
  Prog.call_congr fun | none => rfl | some _ => rfl

theorem unguarded_getProxies (k : String) : FuzzyChat.getProxies k =
    ((guarded.getProxies k).unguarded >>= fun r => .ret (.ok r) : Prog RepoOp.Res _) := rfl

theorem unguarded_getClient (uid : String) : FuzzyChat.getClient uid =
    ((guarded.getClient uid).unguarded >>= fun r => .ret (.ok r) : Prog RepoOp.Res _) :=
  Prog.call_congr fun | none => rfl | some _ => rfl

theorem unguarded_count (c : Component) : Handler.ask (.count c) =
    ((guarded.count c).unguarded >>= fun r => .ret (.ok r) : Prog RepoOp.Res _) := rfl

theorem unguarded_killExpiredSessions : Handler.ask .killExpiredSessions =
    (guarded.killExpiredSessions.unguarded >>= fun r => .ret (.ok r) : Prog RepoOp.Res _) := rfl

end unguarded

inductive Nesting : SessionTask → List (RepoLock × Mode) → RepoLock × Mode → Prop
  | setIndex (info : SessionInfo) (c : Component) : Nesting (.setSession info) [] (c.lock, .write)
  | setSession (info : SessionInfo) : Nesting (.setSession info) [] (.sessions, .write)
  | getSession (k : String) : Nesting (.getSession k) [] (.sessions, .write)
  | remove (k : String) : Nesting (.removeSession k) [] (.sessions, .write)
  | removeClient (k : String) : Nesting (.removeSession k) [(.sessions, .write)] (.clients, .write)
  | proxies (k : String) : Nesting (.getProxies k) [] (.proxies, .read)
  | proxySessions (k : String) : Nesting (.getProxies k) [(.proxies, .read)] (.sessions, .read)
  | client (uid : String) : Nesting (.getClient uid) [] (.clients, .read)
  | clientSession (uid : String) : Nesting (.getClient uid) [(.clients, .read)] (.sessions, .read)
  | count (c : Component) : Nesting (.count c) [] (c.lock, .read)
  | sweep : Nesting .killExpiredSessions [] (.sessions, .write)
  | sweepClients : Nesting .killExpiredSessions [(.sessions, .write)] (.clients, .write)
  | sweepControllers : Nesting .killExpiredSessions
      [(.clients, .write), (.sessions, .write)] (.controllers, .write)
  | sweepProxies : Nesting .killExpiredSessions
      [(.controllers, .write), (.clients, .write), (.sessions, .write)] (.proxies, .write)

theorem scoped_prog (t : SessionTask) : Scoped (Nesting t) [] t.prog := by
  cases t with
  | setSession info =>
    simp only [SessionTask.prog, guarded.setSession]
    cases Component.fromU8 info.componentType with
    | none => rfl
    | some c =>
      exact ⟨.setIndex _ _, fun _ => ⟨_, _, rfl, .setSession _, fun _ => ⟨_, _, rfl, rfl⟩⟩⟩
  | getSession k => exact ⟨.getSession _, fun _ => ⟨_, _, rfl, rfl⟩⟩
  | removeSession k =>
    refine ⟨.remove _, fun w => ?_⟩
    cases w with
    | none => exact ⟨_, _, rfl, rfl⟩
    | some w => exact ⟨.removeClient _, fun _ => ⟨_, _, rfl, _, _, rfl, rfl⟩⟩
  | getProxies k =>
    exact ⟨.proxies _, .proxySessions _, fun _ => ⟨_, _, rfl, _, _, rfl, rfl⟩⟩
  | getClient uid =>
    refine ⟨.client _, fun key => ?_⟩
    cases key with
    | none => exact ⟨_, _, rfl, rfl⟩
    | some key => exact ⟨.clientSession _, fun _ => ⟨_, _, rfl, _, _, rfl, rfl⟩⟩
  | count c => exact ⟨.count _, fun _ => ⟨_, _, rfl, rfl⟩⟩
  | killExpiredSessions =>
    exact ⟨.sweep, .sweepClients, .sweepControllers, .sweepProxies,
      fun _ => ⟨_, _, rfl, _, _, rfl, _, _, rfl, _, _, rfl, rfl⟩⟩

end FuzzyChat
