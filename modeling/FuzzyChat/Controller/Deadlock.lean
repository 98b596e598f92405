import FuzzyChat.Controller.SessionLocks
import FuzzyChat.Interleave.Sequence

/-! Cyclic waits on the locks of the session repository. -/

namespace FuzzyChat
open Interleave

def About (p : LockPool) (kind : SessionTask → Bool) (l : RepoLock) (m : Mode) : Prop :=
  ∃ t ∈ p.tasks, kind t.1 = true ∧ t.2.head? = some (.acquire l m)

def SessionTask.isGetClient : SessionTask → Bool
  | getClient _ => true
  | _ => false

def SessionTask.isGetProxies : SessionTask → Bool
  | getProxies _ => true
  | _ => false

def SessionTask.isSweep : SessionTask → Bool
  | killExpiredSessions => true
  | _ => false

def SessionTask.isRemoval : SessionTask → Bool
  | removeSession _ | killExpiredSessions => true
  | _ => false

/-- A `get_client` is about to lock the sessions and a removal or a sweep is about to lock the
clients, or a `get_proxies` is about to lock the sessions and a sweep is about to lock the
proxies. -/
def Crossed (p : LockPool) : Prop :=
  About p SessionTask.isGetClient .sessions .read ∧ About p SessionTask.isRemoval .clients .write ∨
    About p SessionTask.isGetProxies .sessions .read ∧ About p SessionTask.isSweep .proxies .write

instance (p : LockPool) : Decidable (Crossed p) := by
  unfold Crossed About
  infer_instance

def Deadlocked (p : LockPool) : Prop := ∃ i, Relation.TransGen (WaitsFor p) i i

namespace Nesting
variable {t : SessionTask} {st : List (RepoLock × Mode)} {l : RepoLock} {m : Mode}

theorem not_mem (h : Nesting t st (l, m)) (m' : Mode) : (l, m') ∉ st := by
  cases h <;> simp

theorem writer (h : Nesting t st (l, m)) (hw : (.sessions, .write) ∈ st) :
    m = .write ∧ (t.isRemoval = true ∧ l = .clients ∨ l = .controllers ∨
      t.isSweep = true ∧ l = .proxies) := by
  cases h with
  | removeClient k => exact ⟨rfl, .inl ⟨rfl, rfl⟩⟩
  | sweepClients => exact ⟨rfl, .inl ⟨rfl, rfl⟩⟩
  | sweepControllers => exact ⟨rfl, .inr (.inl rfl)⟩
  | sweepProxies => exact ⟨rfl, .inr (.inr ⟨rfl, rfl⟩)⟩
  | _ => simp at hw

theorem reader (h : Nesting t st (l, m)) (hne : st ≠ []) (hw : (.sessions, .write) ∉ st) :
    (l = .sessions ∧ m = .read) ∧ (t.isGetClient = true ∧ st = [(.clients, .read)] ∨
      t.isGetProxies = true ∧ st = [(.proxies, .read)]) := by
  cases h with
  | clientSession uid => exact ⟨⟨rfl, rfl⟩, .inl ⟨rfl, rfl⟩⟩
  | proxySessions k => exact ⟨⟨rfl, rfl⟩, .inr ⟨rfl, rfl⟩⟩
  | removeClient k => exact absurd List.mem_cons_self hw
  | sweepClients => exact absurd List.mem_cons_self hw
  | sweepControllers => exact absurd (by simp) hw
  | sweepProxies => exact absurd (by simp) hw
  | _ => exact absurd rfl hne

theorem of_getClient (h : Nesting t st (.sessions, m)) (hk : t.isGetClient = true) :
    st = [(.clients, .read)] := by
  generalize hl : RepoLock.sessions = l at h
  cases h with
  | clientSession uid => rfl
  | client uid => nomatch hl
  | _ => exact absurd hk (by simp [SessionTask.isGetClient])

theorem of_getProxies (h : Nesting t st (.sessions, m)) (hk : t.isGetProxies = true) :
    st = [(.proxies, .read)] := by
  generalize hl : RepoLock.sessions = l at h
  cases h with
  | proxySessions k => rfl
  | proxies k => nomatch hl
  | _ => exact absurd hk (by simp [SessionTask.isGetProxies])

theorem of_removal (h : Nesting t st (.clients, m)) (hk : t.isRemoval = true) :
    (.sessions, .write) ∈ st := by
  generalize hl : RepoLock.clients = l at h
  cases h with
  | removeClient k => exact List.mem_cons_self
  | sweepClients => exact List.mem_cons_self
  | remove k => nomatch hl
  | sweep => nomatch hl
  | sweepControllers => nomatch hl
  | sweepProxies => nomatch hl
  | _ => exact absurd hk (by simp [SessionTask.isRemoval])

theorem of_sweep (h : Nesting t st (.proxies, m)) (hk : t.isSweep = true) :
    (.sessions, .write) ∈ st := by
  generalize hl : RepoLock.proxies = l at h
  cases h with
  | sweepProxies => simp
  | sweep => nomatch hl
  | sweepClients => nomatch hl
  | sweepControllers => nomatch hl
  | _ => exact absurd hk (by simp [SessionTask.isSweep])

end Nesting

/-- A task on a cycle: what it is doing, what it holds, what it asks for, and who on the cycle is in
its way. -/
structure Stuck (p : LockPool) (i : Nat) (t : SessionTask) (l : RepoLock) (m : Mode) : Prop where
  task : ∃ pr, p.tasks[i]? = some (t, pr) ∧ pr.head? = some (.acquire l m)
  nested : Nesting t (stack p.state.held i) (l, m)
  holds : stack p.state.held i ≠ []
  blocked : ∃ i' m', (l, m') ∈ stack p.state.held i' ∧ m.conflicts m' = true ∧
    Relation.TransGen (WaitsFor p) i' i'

theorem Stuck.about {p : LockPool} {i : Nat} {t : SessionTask} {l : RepoLock} {m : Mode}
    (h : Stuck p i t l m) {kind : SessionTask → Bool} (hk : kind t = true) : About p kind l m :=
  let ⟨_, ht, hh⟩ := h.task
  ⟨_, List.mem_of_getElem? ht, hk, hh⟩

section cycle
variable {s₀ : Storage} {p : LockPool} (hp : Reachable (S := sessionLocks) ⟨[], s₀⟩ p)
include hp

theorem stuck_of_cycle {i : Nat} (h : Relation.TransGen (WaitsFor p) i i) :
    ∃ t l m, Stuck p i t l m := by
  obtain ⟨i', ⟨l, m, m', ⟨⟨t, pr⟩, ht, hh⟩, hg, hc⟩, hcyc⟩ := cycle_next h
  obtain ⟨i₀, -, ⟨l₀, -, m₀, -, hg₀, -⟩⟩ := Relation.TransGen.tail'_iff.mp h
  refine ⟨t, l, m, ⟨pr, ht, hh⟩, hp.allowed scoped_prog rfl ht hh, fun hnil => ?_,
    i', m', mem_stack.mpr hg, hc, hcyc⟩
  have := mem_stack.mpr hg₀
  rw [hnil] at this
  nomatch this

theorem crossed_of_writer {i : Nat} {t : SessionTask} {l : RepoLock} {m : Mode}
    (hs : Stuck p i t l m) (hw : (.sessions, .write) ∈ stack p.state.held i) : Crossed p := by
  obtain ⟨i', m', hm', -, hcyc⟩ := hs.blocked
  obtain ⟨t', l', m₁, hs'⟩ := stuck_of_cycle hp hcyc
  -- the one in the way is another task, and cannot have the sessions as well
  have hne : i ≠ i' := by
    rintro rfl
    exact hs.nested.not_mem m' hm'
  have hno : (.sessions, .write) ∉ stack p.state.held i' := fun hw' =>
    hne (hp.writer rfl (mem_stack.mp hw) (mem_stack.mp hw'))
  obtain ⟨rfl, hasks⟩ := hs.nested.writer hw
  obtain ⟨⟨rfl, rfl⟩, hreader⟩ := hs'.nested.reader hs'.holds hno
  rcases hreader with ⟨hk', hst⟩ | ⟨hk', hst⟩ <;> rw [hst, List.mem_singleton] at hm' <;> cases hm'
  · rcases hasks with ⟨hk, -⟩ | h | ⟨-, h⟩
    · exact .inl ⟨hs'.about hk', hs.about hk⟩
    · nomatch h
    · nomatch h
  · rcases hasks with ⟨-, h⟩ | h | ⟨hk, -⟩
    · nomatch h
    · nomatch h
    · exact .inr ⟨hs'.about hk', hs.about hk⟩

omit hp in
theorem deadlocked_of_crossing {t t' : SessionTask} {pr pr' : GuardedProg Unit} {i i' : Nat}
    {l : RepoLock} (ht : p.tasks[i]? = some (t, pr)) (hh : pr.head? = some (.acquire l .write))
    (hw : (.sessions, .write) ∈ stack p.state.held i) (ht' : p.tasks[i']? = some (t', pr'))
    (hh' : pr'.head? = some (.acquire .sessions .read))
    (hr : stack p.state.held i' = [(l, .read)]) : Deadlocked p := by
  have hblocked : WaitsFor p i i' :=
    ⟨l, .write, .read, ⟨_, ht, hh⟩, mem_stack.mp (hr ▸ List.mem_cons_self), rfl⟩
  have hblocks : WaitsFor p i' i := ⟨.sessions, .read, .write, ⟨_, ht', hh'⟩, mem_stack.mp hw, rfl⟩
  exact ⟨i, .tail (.single hblocked) hblocks⟩

/-- The cyclic waits are exactly these crossings. -/
theorem deadlocked_iff : Deadlocked p ↔ Crossed p := by
  constructor
  · rintro ⟨i, hcyc⟩
    obtain ⟨t, l, m, hs⟩ := stuck_of_cycle hp hcyc
    by_cases hw : (.sessions, .write) ∈ stack p.state.held i
    · exact crossed_of_writer hp hs hw
    · -- a reader waits for the sessions, so that next on the cycle is who has them to itself
      obtain ⟨⟨rfl, rfl⟩, -⟩ := hs.nested.reader hs.holds hw
      obtain ⟨i', m', hm', hc, hcyc'⟩ := hs.blocked
      obtain ⟨t', l', m₁, hs'⟩ := stuck_of_cycle hp hcyc'
      cases m' with
      | read => nomatch hc
      | write => exact crossed_of_writer hp hs' hm'
  · rintro (⟨⟨⟨t', pr'⟩, hm', hk', hh'⟩, ⟨t, pr⟩, hm, hk, hh⟩ |
      ⟨⟨⟨t', pr'⟩, hm', hk', hh'⟩, ⟨t, pr⟩, hm, hk, hh⟩) <;>
      obtain ⟨i, ht⟩ := List.getElem?_of_mem hm <;> obtain ⟨i', ht'⟩ := List.getElem?_of_mem hm' <;>
      have hn := hp.allowed scoped_prog rfl ht hh <;> have hn' := hp.allowed scoped_prog rfl ht' hh'
    · exact deadlocked_of_crossing ht hh (hn.of_removal hk) ht' hh' (hn'.of_getClient hk')
    · exact deadlocked_of_crossing ht hh (hn.of_sweep hk) ht' hh' (hn'.of_getProxies hk')

end cycle

/-! How a crossing comes about. -/

/-- The lock a call asks for next, on top of those it then holds, when it has taken this step. -/
def SessionTask.nests (s : Storage) :
    SessionTask → LockOp RepoLock RepoOp → Option (RepoLock × Mode)
  | getClient _, .run (.clientKey uid) => (s.sessions.clientKey uid).map fun _ => (.sessions, .read)
  | removeSession _, .run (.takeSession k) =>
    (s.sessions.sessions.lookup k).map fun _ => (.clients, .write)
  | getProxies _, .acquire .proxies .read => some (.sessions, .read)
  | killExpiredSessions, .acquire .sessions .write => some (.clients, .write)
  | killExpiredSessions, .acquire .clients .write => some (.controllers, .write)
  | killExpiredSessions, .acquire .controllers .write => some (.proxies, .write)
  | _, _ => none

def SessionTask.isNesting (t : SessionTask) : Bool := t.isGetClient || t.isGetProxies || t.isRemoval

theorem SessionTask.isRemoval_of_isSweep {t : SessionTask} (h : t.isSweep = true) :
    t.isRemoval = true := by
  cases t with
  | killExpiredSessions => rfl
  | _ => nomatch h

theorem SessionTask.getClient_or_removal {t : SessionTask} (h : t.isGetClient = true)
    (h' : t.isRemoval = true) : False := by
  cases t with
  | getClient uid => nomatch h'
  | _ => nomatch h

theorem SessionTask.getProxies_or_sweep {t : SessionTask} (h : t.isGetProxies = true)
    (h' : t.isSweep = true) : False := by
  cases t with
  | getProxies k => nomatch h'
  | _ => nomatch h

def Nests (t : SessionTask) (pr : GuardedProg Unit) : Prop :=
  pr.All fun op k => ∀ i c (s s' : Guarded RepoLock Storage) r,
    lockExec (fun c op s => Storage.step c op s) i c op s = some (r, s') →
      (k r).asks? = t.nests s.data op

theorem nests_call {t : SessionTask} {op : LockOp RepoLock RepoOp}
    {k : LockOp.Res RepoOp.Res op → GuardedProg Unit}
    (hop : ∀ r s, (k r).asks? = t.nests s op) (hk : ∀ r, Nests t (k r)) :
    Nests t (.call op k) := ⟨fun _ _ s _ r _ => hop r s.data, hk⟩

theorem nests_clientKey {uid : String} {k : Option String → GuardedProg Unit}
    (hnone : (k none).asks? = none) (hsome : ∀ key, (k (some key)).asks? = some (.sessions, .read))
    (hk : ∀ r, Nests (.getClient uid) (k r)) :
    Nests (.getClient uid) (.call (.run (.clientKey uid)) k) := by
  refine ⟨fun i c s s' r he => ?_, hk⟩
  cases he
  change (k (s.data.sessions.clientKey uid)).asks? = (s.data.sessions.clientKey uid).map _
  cases s.data.sessions.clientKey uid with
  | none => exact hnone
  | some key => exact hsome key

theorem nests_takeSession {accessKey : String}
    {k : Option (ExpirationWrapper SessionInfo) → GuardedProg Unit}
    (hnone : (k none).asks? = none) (hsome : ∀ w, (k (some w)).asks? = some (.clients, .write))
    (hk : ∀ r, Nests (.removeSession accessKey) (k r)) :
    Nests (.removeSession accessKey) (.call (.run (.takeSession accessKey)) k) := by
  refine ⟨fun i c s s' r he => ?_, hk⟩
  cases he
  change (k (s.data.sessions.sessions.lookup accessKey)).asks? =
    (s.data.sessions.sessions.lookup accessKey).map _
  cases s.data.sessions.sessions.lookup accessKey with
  | none => exact hnone
  | some w => exact hsome w

theorem nests_prog {t : SessionTask} (ht : t.isNesting = true) : Nests t t.prog := by
  cases t with
  | getClient uid =>
    refine nests_call (fun _ _ => rfl) fun _ => nests_clientKey rfl (fun _ => rfl) fun key => ?_
    cases key with
    | none => exact nests_call (fun _ _ => rfl) fun _ => trivial
    | some key =>
      exact nests_call (fun _ _ => rfl) fun _ => nests_call (fun _ _ => rfl) fun _ =>
        nests_call (fun _ _ => rfl) fun _ => nests_call (fun _ _ => rfl) fun _ => trivial
  | removeSession k =>
    refine nests_call (fun _ _ => rfl) fun _ => nests_takeSession rfl (fun _ => rfl) fun w => ?_
    cases w with
    | none => exact nests_call (fun _ _ => rfl) fun _ => trivial
    | some w =>
      exact nests_call (fun _ _ => rfl) fun _ => nests_call (fun _ _ => rfl) fun _ =>
        nests_call (fun _ _ => rfl) fun _ => nests_call (fun _ _ => rfl) fun _ => trivial
  | getProxies k =>
    exact nests_call (fun _ _ => rfl) fun _ => nests_call (fun _ _ => rfl) fun _ =>
      nests_call (fun _ _ => rfl) fun _ => nests_call (fun _ _ => rfl) fun _ =>
        nests_call (fun _ _ => rfl) fun _ => trivial
  | killExpiredSessions =>
    exact nests_call (fun _ _ => rfl) fun _ => nests_call (fun _ _ => rfl) fun _ =>
      nests_call (fun _ _ => rfl) fun _ => nests_call (fun _ _ => rfl) fun _ =>
        nests_call (fun _ _ => rfl) fun _ => nests_call (fun _ _ => rfl) fun _ =>
          nests_call (fun _ _ => rfl) fun _ => nests_call (fun _ _ => rfl) fun _ =>
            nests_call (fun _ _ => rfl) fun _ => trivial
  | _ => nomatch ht

theorem nests_of_reach {s₀ : Storage} {p : LockPool}
    (hp : Reachable (S := sessionLocks) ⟨[], s₀⟩ p) {i : Nat} {j : SessionTask}
    {op : LockOp RepoLock RepoOp} {k : LockOp.Res RepoOp.Res op → GuardedProg Unit}
    (ht : p.tasks[i]? = some (j, .call op k)) {c : Choice} {s : Guarded RepoLock Storage}
    {r : LockOp.Res RepoOp.Res op}
    (he : lockExec (fun c op s => Storage.step c op s) i c op p.state = some (r, s))
    (hj : j.isNesting = true) : (k r).asks? = j.nests p.state.data op := by
  have hall := hp.all (P := fun (j : SessionTask) op k => j.isNesting = true → ∀ i c s s' r,
    lockExec (fun c op s => Storage.step c op s) i c op s = some (r, s') →
      (k r).asks? = j.nests s.data op) (fun j => ?_) i j _ ht
  · exact hall.1 hj i c p.state s r he
  · by_cases hj : j.isNesting = true
    · exact (nests_prog hj).imp fun _ _ h _ => h
    · exact Prog.all_of_forall (fun _ _ h => absurd h hj) _

def Comes (p : LockPool) (i : Nat) (kind : SessionTask → Bool) (l : RepoLock) (m : Mode) : Prop :=
  ∃ t ∈ p.tasks[i]?, kind t.1 = true ∧ t.2.head?.bind (t.1.nests p.state.data) = some (l, m)

/-- One of two calls that cross is about to come to its second lock, and the other is there. -/
def Meets (p : LockPool) (i : Nat) (kind : SessionTask → Bool) (l : RepoLock) (m : Mode)
    (kind' : SessionTask → Bool) (l' : RepoLock) (m' : Mode) : Prop :=
  Comes p i kind l m ∧ About p kind' l' m' ∨ Comes p i kind' l' m' ∧ About p kind l m

/-- The step brings a `get_client` and a removal or a sweep, or a `get_proxies` and a sweep, to
their second locks at once. -/
def Crosses (p : LockPool) : LockMove → Prop
  | .spawn _ => False
  | .act i _ =>
    Meets p i SessionTask.isGetClient .sessions .read SessionTask.isRemoval .clients .write ∨
      Meets p i SessionTask.isGetProxies .sessions .read SessionTask.isSweep .proxies .write

section crossing
variable {s₀ : Storage} {p : LockPool} {i : Nat} {j : SessionTask} {op : LockOp RepoLock RepoOp}
  {k : LockOp.Res RepoOp.Res op → GuardedProg Unit} {r : LockOp.Res RepoOp.Res op}
  {s : Guarded RepoLock Storage}

theorem about_advance (ht : p.tasks[i]? = some (j, .call op k)) {kind : SessionTask → Bool}
    (hnests : kind j = true → (k r).asks? = j.nests p.state.data op) {l : RepoLock} {m : Mode} :
    About (p.advance i j op k r s) kind l m ↔
      Comes p i kind l m ∨ ∃ i' t, i' ≠ i ∧ p.tasks[i']? = some t ∧ kind t.1 = true ∧
        t.2.head? = some (.acquire l m) := by
  constructor
  · rintro ⟨t, hm, hk, hh⟩
    obtain ⟨i', hi'⟩ := List.getElem?_of_mem hm
    rcases (Pool.tasks_advance ht).mp hi' with ⟨rfl, rfl⟩ | ⟨hne, hold⟩
    · exact .inl ⟨_, ht, hk, (hnests hk).symm.trans (Prog.asks?_eq_some.mpr hh)⟩
    · exact .inr ⟨i', t, hne, hold, hk, hh⟩
  · rintro (⟨t, hi, hk, hn⟩ | ⟨i', t, hne, hi', hk, hh⟩)
    · obtain rfl : (j, .call op k) = t := Option.some.inj (ht.symm.trans hi)
      refine ⟨_, List.mem_of_getElem? ((Pool.tasks_advance ht).mpr (.inl ⟨rfl, rfl⟩)), hk, ?_⟩
      exact Prog.asks?_eq_some.mp ((hnests hk).trans hn)
    · exact ⟨t, List.mem_of_getElem? ((Pool.tasks_advance ht).mpr (.inr ⟨hne, hi'⟩)), hk, hh⟩

theorem about_accept {t : SessionTask} {kind : SessionTask → Bool} {l : RepoLock} {m : Mode}
    (ht : kind t = true → t.prog.head? ≠ some (.acquire l m)) :
    About (p.accept t) kind l m ↔ About p kind l m := by
  constructor
  · rintro ⟨t', hm, hk, hh⟩
    rcases List.mem_append.mp hm with hold | hnew
    · exact ⟨t', hold, hk, hh⟩
    · rw [List.mem_singleton.mp hnew] at hk hh
      exact absurd hh (ht hk)
  · rintro ⟨t', hm, hk, hh⟩
    exact ⟨t', List.mem_append_left _ hm, hk, hh⟩

omit s₀ p i j op k r s in
theorem first_nesting {t : SessionTask} {l : RepoLock} {m : Mode}
    (h : t.prog.head? = some (.acquire l m)) : Nesting t [] (l, m) := by
  have hs := scoped_prog t
  cases hpr : t.prog with
  | ret a => rw [hpr] at h; nomatch h
  | call op k =>
    rw [hpr] at h hs
    cases Option.some.inj h
    exact hs.1

theorem meets_iff (ht : p.tasks[i]? = some (j, .call op k)) {kind kind' : SessionTask → Bool}
    (hkind : ∀ t, kind t = true → kind' t = true → False)
    (hnests : kind j = true → (k r).asks? = j.nests p.state.data op)
    (hnests' : kind' j = true → (k r).asks? = j.nests p.state.data op)
    {l l' : RepoLock} {m m' : Mode} (hno : ¬ (About p kind l m ∧ About p kind' l' m')) :
    About (p.advance i j op k r s) kind l m ∧ About (p.advance i j op k r s) kind' l' m' ↔
      Meets p i kind l m kind' l' m' := by
  rw [about_advance ht hnests, about_advance ht hnests']
  constructor
  · rintro ⟨h | ⟨i₁, t, -, hi, hk, hh⟩, h' | ⟨i₂, t', -, hi', hk', hh'⟩⟩
    · obtain ⟨t, hi, hk, -⟩ := h
      obtain ⟨t', hi', hk', -⟩ := h'
      cases Option.some.inj (hi.symm.trans hi')
      exact (hkind _ hk hk').elim
    · exact .inl ⟨h, t', List.mem_of_getElem? hi', hk', hh'⟩
    · exact .inr ⟨h', t, List.mem_of_getElem? hi, hk, hh⟩
    · exact absurd ⟨⟨t, List.mem_of_getElem? hi, hk, hh⟩, t', List.mem_of_getElem? hi', hk', hh'⟩ hno
  · rintro (⟨h, t', hm', hk', hh'⟩ | ⟨h', t, hm, hk, hh⟩)
    · refine ⟨.inl h, .inr ?_⟩
      obtain ⟨i', hi'⟩ := List.getElem?_of_mem hm'
      obtain ⟨t, hi, hk, -⟩ := h
      refine ⟨i', t', fun he => ?_, hi', hk', hh'⟩
      cases Option.some.inj ((he ▸ hi').symm.trans hi)
      exact hkind _ hk hk'
    · refine ⟨.inr ?_, .inl h'⟩
      obtain ⟨i', hi'⟩ := List.getElem?_of_mem hm
      obtain ⟨t', hi, hk', -⟩ := h'
      refine ⟨i', t, fun he => ?_, hi', hk, hh⟩
      cases Option.some.inj ((he ▸ hi').symm.trans hi)
      exact hkind _ hk hk'

end crossing

theorem crossed_step {s₀ : Storage} {p q : LockPool} {m : LockMove}
    (hp : Reachable (S := sessionLocks) ⟨[], s₀⟩ p) (hno : ¬ Crossed p)
    (hq : p.step m = some q) : Crossed q ↔ Crosses p m := by
  obtain ⟨hno₁, hno₂⟩ := not_or.mp hno
  rcases Pool.step_eq_some.mp hq with ⟨t, rfl, -, rfl⟩ | ⟨i, c, t, op, k, r, s, rfl, ht, he, rfl⟩
  · have hsame : Crossed (p.accept t) ↔ Crossed p := by
      refine or_congr (and_congr (about_accept fun hk hh => ?_) (about_accept fun hk hh => ?_))
        (and_congr (about_accept fun hk hh => ?_) (about_accept fun hk hh => ?_))
      · nomatch (first_nesting hh).of_getClient hk
      · nomatch (first_nesting hh).of_removal hk
      · nomatch (first_nesting hh).of_getProxies hk
      · nomatch (first_nesting hh).of_sweep hk
    exact iff_of_false (fun hx => hno (hsame.mp hx)) id
  · have hn := nests_of_reach hp ht he
    refine or_congr (meets_iff ht (fun _ => SessionTask.getClient_or_removal) (fun h => hn ?_)
        (fun h => hn ?_) hno₁)
      (meets_iff ht (fun _ => SessionTask.getProxies_or_sweep) (fun h => hn ?_) (fun h => hn ?_) hno₂)
    · simp [SessionTask.isNesting, h]
    · simp [SessionTask.isNesting, h]
    · simp [SessionTask.isNesting, h]
    · simp [SessionTask.isNesting, SessionTask.isRemoval_of_isSweep h]

/-- No cyclic wait ever arises exactly when no step that is taken makes two calls cross. -/
theorem never_deadlocked_iff (s₀ : Storage) (ms : List LockMove) :
    Always Pool.step (fun p => ¬ Deadlocked p) (Pool.start ⟨[], s₀⟩ : LockPool) ms ↔
      Each Pool.step (fun p m => (p.step m).isSome = true → ¬ Crosses p m)
        (Pool.start ⟨[], s₀⟩ : LockPool) ms := by
  refine always_iff_each (I := fun p => Reachable (S := sessionLocks) ⟨[], s₀⟩ p)
    (fun _ _ _ hp hq => hp.step trivial hq) (fun p m hp hnot => ?_) .start ?_
  · have hno : ¬ Crossed p := fun hx => hnot ((deadlocked_iff hp).mpr hx)
    constructor
    · intro h q hq hd
      have hx := (deadlocked_iff (Reach.step hp trivial hq)).mp hd
      exact h (by rw [hq]; rfl) ((crossed_step hp hno hq).mp hx)
    · intro h hsome hx
      obtain ⟨q, hq⟩ := Option.isSome_iff_exists.mp hsome
      exact h q hq
        ((deadlocked_iff (Reach.step hp trivial hq)).mpr ((crossed_step hp hno hq).mpr hx))
  · rintro ⟨i, hcyc⟩
    obtain ⟨_, ⟨_, _, _, ⟨t, ht, -⟩, -⟩, -⟩ := cycle_next hcyc
    nomatch ht

theorem always_run {P : LockPool → Prop} {p q : LockPool} {ms : List LockMove}
    (h : Always Pool.step P p ms) (hq : p.run ms = some q) : P q := by
  induction ms generalizing p with
  | nil => cases hq; exact h
  | cons m ms ih =>
    obtain ⟨p', hm, hq⟩ := Option.bind_eq_some_iff.mp hq
    exact ih (h.2 p' hm) hq

def SessionTask.alone (t : SessionTask) (i n : Nat) : List LockMove :=
  .spawn t :: List.replicate n (.act i ⟨0, 0⟩)

/-- A lookup of Alice has the clients and waits for the sessions, while the removal of her session
has the sessions and waits for the clients. -/
theorem lookup_and_removal_deadlock : ¬ ∀ (s₀ : Storage) (ms : List LockMove),
    Always Pool.step (fun p => ¬ Deadlocked p) (Pool.start ⟨[], s₀⟩ : LockPool) ms := by
  intro hall
  obtain ⟨p, hrun, hcrossed⟩ : ∃ p, (Pool.start ⟨[], Storage.start ∅⟩ : LockPool).run
      ((SessionTask.setSession (SessionManager.sessionInfo "k1" "alice" .client
          ⟨"10.0.0.1", 40000⟩ ⟨"10.0.0.1", 50051, "alice", [1]⟩)).alone 0 6 ++
        (SessionTask.getClient "alice").alone 1 2 ++ (SessionTask.removeSession "k1").alone 2 2) =
      some p ∧ decide (Crossed p) = true := exists_run (by decide)
  exact always_run (hall _ _) hrun
    ((deadlocked_iff (Reachable.of_run hrun)).mpr (of_decide_eq_true hcrossed))

end FuzzyChat
