import FuzzyChat.Controller.Programs
import FuzzyChat.Controller.SessionLocks
import FuzzyChat.Controller.RouteLocks

/-! The controller with all locks of its in-memory repositories: what it does with them it does
without, and which of its tasks can come to wait for each other in a circle. -/

namespace FuzzyChat
open Interleave

abbrev ControllerLock := RepoLock ⊕ RouteLock

namespace RepoOp

/-- The guards of `remove_session` and of `get_client` outlast the first operation under them. -/
def enter : RepoOp → List (ControllerLock × Mode)
  | insertIndex c _ _ => [(.inl c.lock, .write)]
  | insertSession _ => [(.inl .sessions, .write)]
  | getSession _ => [(.inl .sessions, .write)]
  | takeSession _ => [(.inl .sessions, .write)]
  | removeClient _ => [(.inl .clients, .write)]
  | getProxies _ => [(.inl .proxies, .read), (.inl .sessions, .read)]
  | clientKey _ => [(.inl .clients, .read)]
  | sessionOf _ => [(.inl .sessions, .read)]
  | count c => [(.inl c.lock, .read)]
  | killExpiredSessions =>
    [(.inl .sessions, .write), (.inl .clients, .write), (.inl .controllers, .write),
      (.inl .proxies, .write)]
  | setConversation _ => [(.inr .conversations, .write)]
  | removeConversation _ => [(.inr .conversations, .write)]
  | getConversation _ => [(.inr .conversations, .read)]
  | setRoute _ _ => [(.inr .routes, .write), (.inr .conversations, .write)]
  | getRoute _ _ => [(.inr .routes, .read)]
  | removeRoute _ => [(.inr .routes, .write)]
  | killExpiredRoutes => [(.inr .routes, .write), (.inr .conversations, .write)]
  | getMember _ => [(.inr .members, .read)]
  | choose _ | utcNow => []

def leave : (op : RepoOp) → op.Res → List ControllerLock
  | takeSession _, none => [.inl .sessions]
  | takeSession _, some _ => []
  | removeClient _, _ => [.inl .clients, .inl .sessions]
  | clientKey _, none => [.inl .clients]
  | clientKey _, some _ => []
  | sessionOf _, _ => [.inl .sessions, .inl .clients]
  | op, _ => op.enter.reverse.map Prod.fst

def sections : Sections ControllerLock RepoOp.Res := ⟨enter, leave⟩

end RepoOp

/-- The guards are those of the calls on the session repository. -/
theorem guarding_sessionTask (t : SessionTask) :
    t.prog.unguarded.guarding RepoOp.sections = t.prog.relocked Sum.inl := by
  cases t with
  | setSession info =>
    simp only [SessionTask.prog, guarded.setSession]
    cases Component.fromU8 info.componentType with
    | none => rfl
    | some c => rfl
  | getSession k => rfl
  | removeSession k =>
    refine Prog.call_congr fun _ => Prog.call_congr fun w => ?_
    cases w with
    | none => rfl
    | some w => rfl
  | getProxies k => rfl
  | getClient uid =>
    refine Prog.call_congr fun _ => Prog.call_congr fun key => ?_
    cases key with
    | none => rfl
    | some key => rfl
  | count c => rfl
  | killExpiredSessions => rfl

/-- And those of the calls on the repositories of routes and of members that requests make. -/
theorem guarding_routeTask {t : RouteTask} {op : RepoOp} (h : t.op = .repo op) :
    (Prog.call op .ret).guarding RepoOp.sections =
      (Prog.under (R := RepoOp.Res) t.guards op).relocked Sum.inr := by
  cases t <;> cases h <;> rfl

def Job.guarded (j : Job) :
    Prog (LockOp.Res (L := ControllerLock) RepoOp.Res) (Except Abort Reply) :=
  Prog.guarding RepoOp.sections j.handler

abbrev lockedController : System := locking (fun c op s => Storage.step c op s) Job.guarded

abbrev LockedPool := Pool lockedController

def Distinct (p : LockedPool) : Move lockedController → Prop
  | .spawn j => ∀ j' ∈ p.tasks.map Prod.fst, j.Apart j'
  | .act _ _ => True

instance (p : LockedPool) : ∀ m, Decidable (Distinct p m)
  | .spawn j => inferInstanceAs (Decidable (∀ j' ∈ p.tasks.map Prod.fst, j.Apart j'))
  | .act _ _ => inferInstanceAs (Decidable True)

inductive Nested : Job → List (ControllerLock × Mode) → ControllerLock × Mode → Prop
  | first (j : Job) (g : ControllerLock × Mode) : Nested j [] g
  | recipient (r : RouteRequest) (id : String) :
    Nested ⟨.route r, id⟩ [(.inl .clients, .read)] (.inl .sessions, .read)
  | proxies (r : RouteRequest) (id : String) :
    Nested ⟨.route r, id⟩ [(.inl .proxies, .read)] (.inl .sessions, .read)
  | store (r : RouteRequest) (id : String) :
    Nested ⟨.route r, id⟩ [(.inr .routes, .write)] (.inr .conversations, .write)
  | logout (r : LogoutRequest) (id : String) :
    Nested ⟨.logout r, id⟩ [(.inl .sessions, .write)] (.inl .clients, .write)
  | sweepClients (id : String) :
    Nested ⟨.sweepSessions, id⟩ [(.inl .sessions, .write)] (.inl .clients, .write)
  | sweepControllers (id : String) :
    Nested ⟨.sweepSessions, id⟩ [(.inl .clients, .write), (.inl .sessions, .write)]
      (.inl .controllers, .write)
  | sweepProxies (id : String) :
    Nested ⟨.sweepSessions, id⟩
      [(.inl .controllers, .write), (.inl .clients, .write), (.inl .sessions, .write)]
      (.inl .proxies, .write)
  | sweepRoutes (id : String) :
    Nested ⟨.sweepRoutes, id⟩ [(.inr .routes, .write)] (.inr .conversations, .write)

/-- What a request that removes sessions asks for while it has them to itself. -/
def Job.removes (j : Job) (l : RepoLock) : Bool :=
  match j.request with
  | .logout _ => l == .clients
  | .sweepSessions => l == .clients || l == .proxies
  | _ => false

/-! Every request drops the guards it takes, and nests them like that. -/

section nesting
variable {j : Job}

def Brackets (j : Job) (pr : Program) : Prop := Scoped (Nested j) [] (pr.guarding RepoOp.sections)

theorem brackets_ret (a : Except Abort Reply) : Brackets j (.ret a) := rfl

theorem brackets_call {op : RepoOp} {k : op.Res → Program} (hone : op.enter.length ≤ 1)
    (hleave : ∀ r, op.leave r = op.enter.reverse.map Prod.fst) (hk : ∀ r, Brackets j (k r)) :
    Brackets j (.call op k) := by
  refine scoped_guarding_call ?_ hleave hk
  show Climbs (Nested j) [] op.enter
  cases hguards : op.enter with
  | nil => trivial
  | cons g guards =>
    rw [hguards, List.length_cons] at hone
    rw [List.length_eq_zero_iff.mp (by omega : guards.length = 0)]
    exact ⟨.first j g, trivial⟩

theorem brackets_checkedSession {k : String} {next : SessionInfo → Program}
    (h : ∀ info, Brackets j (next info)) : Brackets j (checkedSession k next) := by
  refine brackets_call (Nat.le_refl 1) (fun _ => rfl) fun r => ?_
  cases r with
  | none => exact brackets_ret _
  | some info => exact h info

theorem brackets_fetchedSession {k : String} {next : SessionInfo → Program}
    (h : ∀ info, Brackets j (next info)) : Brackets j (fetchedSession k next) := by
  refine brackets_call (Nat.le_refl 1) (fun _ => rfl) fun r => ?_
  cases r with
  | none => exact brackets_ret _
  | some info => exact h info

theorem brackets_checkedConversation {c : String} {next : Conversation → Program}
    (h : ∀ conversation, Brackets j (next conversation)) :
    Brackets j (checkedConversation c next) := by
  refine brackets_call (Nat.le_refl 1) (fun _ => rfl) fun r => ?_
  cases r with
  | none => exact brackets_ret _
  | some conversation => exact h conversation

theorem brackets_fetchedConversation {c : String} {next : Conversation → Program}
    (h : ∀ conversation, Brackets j (next conversation)) :
    Brackets j (fetchedConversation c next) := by
  refine brackets_call (Nat.le_refl 1) (fun _ => rfl) fun r => ?_
  cases r with
  | none => exact brackets_ret _
  | some conversation => exact h conversation

theorem brackets_storeSession {info : SessionInfo} {c : Component} {next : Program}
    (h : Brackets j next) : Brackets j (storeSession info c next) :=
  brackets_call (Nat.le_refl 1) (fun _ => rfl) fun _ =>
    brackets_call (Nat.le_refl 1) (fun _ => rfl) fun _ => h

theorem brackets_storeProgram (r : RouteRequest) (id c : String) (info : SessionInfo)
    (endRoute : Bool) : Brackets ⟨.route r, id⟩ (storeProgram id c info endRoute) := by
  refine scoped_guarding_call ⟨.first _ _, .store _ _, trivial⟩ (fun _ => rfl) fun stored => ?_
  cases stored with
  | none => exact brackets_ret _
  | some nonce => exact brackets_ret _

theorem brackets_finalProgram (r : RouteRequest) (id : String) (conversation : Conversation) :
    Brackets ⟨.route r, id⟩ (finalProgram id r conversation) := by
  refine ⟨.first _ _, fun key => ?_⟩
  cases key with
  | none => exact ⟨_, _, rfl, brackets_ret _⟩
  | some key =>
    refine ⟨.recipient _ _, fun info => ⟨_, _, rfl, _, _, rfl, ?_⟩⟩
    cases info with
    | none => exact brackets_ret _
    | some info => exact brackets_storeProgram _ _ _ _ _

theorem brackets_hopProgram (r : RouteRequest) (id : String) :
    Brackets ⟨.route r, id⟩ (hopProgram id r) := by
  refine scoped_guarding_call ⟨.first _ _, .proxies _ _, trivial⟩ (fun _ => rfl) fun listed => ?_
  cases listed with
  | none => exact brackets_ret _
  | some proxies =>
    simp only
    split_ifs with hempty
    · exact brackets_ret _
    · refine brackets_call (Nat.zero_le 1) (fun _ => rfl) fun index => ?_
      cases proxies[index.getD 0]? with
      | none => exact brackets_ret _
      | some info => exact brackets_storeProgram _ _ _ _ _

theorem brackets_handler (j : Job) : Brackets j j.handler := by
  obtain ⟨request, id⟩ := j
  cases request with
  | login remoteAddr r =>
    rw [handler_login]
    cases remoteAddr with
    | none => exact brackets_ret _
    | some clientIp =>
      simp only
      split_ifs
      · exact brackets_ret _
      · cases Component.fromI32 r.componentType with
        | none => exact brackets_ret _
        | some componentType =>
          simp only
          split_ifs
          · exact brackets_ret _
          · refine brackets_call (Nat.le_refl 1) (fun _ => rfl) fun member => ?_
            split_ifs
            · exact brackets_storeSession (brackets_ret _)
            · exact brackets_ret _
  | logout r =>
    rw [handler_logout]
    refine brackets_checkedSession fun _ => ⟨.first _ _, fun w => ?_⟩
    cases w with
    | none => exact ⟨_, _, rfl, brackets_ret _⟩
    | some w => exact ⟨.logout _ _, fun _ => ⟨_, _, rfl, _, _, rfl, brackets_ret _⟩⟩
  | ping remoteAddr r =>
    rw [handler_ping]
    cases remoteAddr with
    | none => exact brackets_ret _
    | some clientIp =>
      refine brackets_checkedSession fun _ => brackets_fetchedSession fun session => ?_
      split_ifs
      · exact brackets_call (Nat.zero_le 1) (fun _ => rfl) fun _ => brackets_ret _
      · exact brackets_ret _
  | init r =>
    rw [handler_init]
    refine brackets_checkedSession fun _ => brackets_fetchedSession fun info => ?_
    refine brackets_call (Nat.le_refl 1) (fun _ => rfl) fun stored => ?_
    cases stored with
    | none => exact brackets_ret _
    | some c => exact brackets_ret _
  | route r =>
    rw [handler_route]
    refine brackets_checkedSession fun _ => brackets_checkedConversation fun _ =>
      brackets_fetchedConversation fun conversation => ?_
    split_ifs
    · exact brackets_finalProgram _ _ _
    · exact brackets_hopProgram _ _
    · exact brackets_ret _
  | redeem r =>
    rw [handler_redeem]
    refine brackets_checkedSession fun _ => brackets_checkedConversation fun _ => ?_
    refine brackets_call (Nat.le_refl 1) (fun _ => rfl) fun found => ?_
    cases found with
    | none => exact brackets_ret _
    | some route =>
      refine brackets_call (Nat.le_refl 1) (fun _ => rfl) fun _ => ?_
      split_ifs
      · exact brackets_fetchedConversation fun _ =>
          brackets_call (Nat.le_refl 1) (fun _ => rfl) fun _ => brackets_ret _
      · exact brackets_ret _
  | status version r =>
    rw [handler_status]
    exact brackets_checkedSession fun _ => brackets_call (Nat.le_refl 1) (fun _ => rfl) fun _ =>
      brackets_call (Nat.le_refl 1) (fun _ => rfl) fun _ =>
        brackets_call (Nat.le_refl 1) (fun _ => rfl) fun _ => brackets_ret _
  | register uid clientIp settings =>
    show Brackets _ (storeSession (SessionManager.sessionInfo id uid .controller clientIp settings)
      .controller (reply .done))
    exact brackets_storeSession (brackets_ret _)
  | sweepSessions =>
    show Brackets _ (.call .killExpiredSessions fun _ => reply .done)
    refine scoped_guarding_call ?_ (fun _ => rfl) fun _ => brackets_ret _
    exact ⟨.first _ _, .sweepClients _, .sweepControllers _, .sweepProxies _, trivial⟩
  | sweepRoutes =>
    show Brackets _ (.call .killExpiredRoutes fun _ => reply .done)
    refine scoped_guarding_call ?_ (fun _ => rfl) fun _ => brackets_ret _
    exact ⟨.first _ _, .sweepRoutes _, trivial⟩

end nesting

/-! Waiting in a circle. -/

/-- The two requests that wait for each other: a route request that looks up a client or the proxies
asks for the sessions, and a logout or a sweep that holds the sessions asks for these. -/
structure Crossing (p : LockedPool) (reader writer : Nat) (l : RepoLock) : Prop where
  looking : ∃ r id pr, p.tasks[reader]? = some (⟨.route r, id⟩, pr) ∧
    pr.head? = some (.acquire (.inl .sessions) .read)
  read : stack p.state.held reader = [(.inl l, .read)]
  removing : ∃ j pr, p.tasks[writer]? = some (j, pr) ∧ pr.head? = some (.acquire (.inl l) .write) ∧
    j.removes l = true
  written : (.inl .sessions, .write) ∈ stack p.state.held writer

namespace Nested
variable {j : Job} {held : List (ControllerLock × Mode)} {l : ControllerLock} {m : Mode}

theorem writer (h : Nested j held (l, m)) (hw : (.inl .sessions, .write) ∈ held) :
    m = .write ∧ (∀ m', (l, m') ∉ held) ∧
      ∃ l', l = .inl l' ∧ (l' = .controllers ∨ j.removes l' = true) := by
  cases h with
  | logout r id => exact ⟨rfl, by simp, .clients, rfl, .inr rfl⟩
  | sweepClients id => exact ⟨rfl, by simp, .clients, rfl, .inr rfl⟩
  | sweepControllers id => exact ⟨rfl, by simp, .controllers, rfl, .inl rfl⟩
  | sweepProxies id => exact ⟨rfl, by simp, .proxies, rfl, .inr rfl⟩
  | _ => simp at hw

theorem other (h : Nested j held (l, m)) (hheld : held ≠ [])
    (hw : (.inl .sessions, .write) ∉ held) :
    (l = .inl .sessions ∧ m = .read ∧ (∃ r id, j = ⟨.route r, id⟩) ∧
        (held = [(.inl .clients, .read)] ∨ held = [(.inl .proxies, .read)])) ∨
      l = .inr .conversations ∧ held = [(.inr .routes, .write)] := by
  cases h with
  | first j g => exact absurd rfl hheld
  | recipient r id => exact .inl ⟨rfl, rfl, ⟨r, id, rfl⟩, .inl rfl⟩
  | proxies r id => exact .inl ⟨rfl, rfl, ⟨r, id, rfl⟩, .inr rfl⟩
  | store r id => exact .inr ⟨rfl, rfl⟩
  | sweepRoutes id => exact .inr ⟨rfl, rfl⟩
  | logout r id => exact absurd (by simp) hw
  | sweepClients id => exact absurd (by simp) hw
  | sweepControllers id => exact absurd (by simp) hw
  | sweepProxies id => exact absurd (by simp) hw

end Nested

section circles
variable {s₀ : Storage} {p : LockedPool} (hp : Reach Distinct ⟨[], s₀⟩ p)
include hp

theorem nested_of_asks {i : Nat} {l : ControllerLock} {m : Mode} (h : Asks p i l m) :
    ∃ j pr, p.tasks[i]? = some (j, pr) ∧ pr.head? = some (.acquire l m) ∧
      Nested j (stack p.state.held i) (l, m) := by
  obtain ⟨⟨j, pr⟩, ht, hh⟩ := h
  exact ⟨j, pr, ht, hh, hp.allowed brackets_handler rfl ht hh⟩

theorem crossing_of_writer {i : Nat} (h : Relation.TransGen (WaitsFor p) i i)
    (hw : (.inl .sessions, .write) ∈ stack p.state.held i) :
    ∃ reader l, Crossing p reader i l := by
  obtain ⟨i', ⟨l, m, m', hasks, hheld, -⟩, hcyc⟩ := cycle_next h
  obtain ⟨i'', ⟨l'', m'', -, hasks', -⟩, -⟩ := cycle_next hcyc
  obtain ⟨j, pr, ht, hh, hnested⟩ := nested_of_asks hp hasks
  obtain ⟨j', pr', ht', hh', hnested'⟩ := nested_of_asks hp hasks'
  obtain ⟨rfl, hno, l', rfl, hl'⟩ := hnested.writer hw
  have hmem : (.inl l', m') ∈ stack p.state.held i' := mem_stack.mpr hheld
  -- the one in the way is another task, and cannot have the sessions as well
  have hw' : (.inl .sessions, .write) ∉ stack p.state.held i' := by
    intro hw'
    obtain rfl := hp.writer rfl (mem_stack.mp hw) (mem_stack.mp hw')
    exact hno m' hmem
  have hne : stack p.state.held i' ≠ [] := List.ne_nil_of_mem hmem
  rcases hnested'.other hne hw' with ⟨rfl, rfl, ⟨r, id, rfl⟩, hstack⟩ | ⟨-, hstack⟩
  · have hl : stack p.state.held i' = [(.inl l', .read)] ∧ l' ≠ .controllers := by
      rcases hstack with hstack | hstack
      all_goals
        rw [hstack, List.mem_singleton] at hmem
        cases hmem
        exact ⟨hstack, by simp⟩
    exact ⟨i', l', ⟨r, id, pr', ht', hh'⟩, hl.1, ⟨j, pr, ht, hh, hl'.resolve_left hl.2⟩, hw⟩
  · rw [hstack, List.mem_singleton] at hmem
    cases hmem

theorem crossing_of_other {i : Nat} (h : Relation.TransGen (WaitsFor p) i i)
    (hw : (.inl .sessions, .write) ∉ stack p.state.held i) :
    ∃ writer l, Crossing p i writer l := by
  obtain ⟨-, ⟨l, m, -, hasks, -, -⟩, -⟩ := cycle_next h
  obtain ⟨i', ⟨l', m', m'', hasks', hheld, hconflict⟩, hcyc⟩ := cycle_previous h
  obtain ⟨-, ⟨l₀, -, m₀, -, hheld₀, -⟩, -⟩ := cycle_previous hcyc
  obtain ⟨j, pr, ht, hh, hnested⟩ := nested_of_asks hp hasks
  obtain ⟨j', pr', ht', hh', hnested'⟩ := nested_of_asks hp hasks'
  have hmem : (l', m'') ∈ stack p.state.held i := mem_stack.mpr hheld
  have hne' : stack p.state.held i' ≠ [] := List.ne_nil_of_mem (mem_stack.mpr hheld₀)
  -- nobody asks for the routes, or for the clients or proxies, who holds guards but not the sessions
  have hasked : l' ≠ .inl .sessions → l' ≠ .inr .conversations → m' = .write ∧
      (.inl .sessions, .write) ∈ stack p.state.held i' ∧
        ∃ l₁, l' = .inl l₁ ∧ (l₁ = .controllers ∨ j'.removes l₁ = true) := by
    intro hsessions hconversations
    by_cases hw' : (.inl .sessions, .write) ∈ stack p.state.held i'
    · obtain ⟨hm, -, hl⟩ := hnested'.writer hw'
      exact ⟨hm, hw', hl⟩
    · rcases hnested'.other hne' hw' with ⟨hl, -⟩ | ⟨hl, -⟩
      · exact absurd hl hsessions
      · exact absurd hl hconversations
  rcases hnested.other (List.ne_nil_of_mem hmem) hw with
    ⟨rfl, rfl, ⟨r, id, rfl⟩, hstack⟩ | ⟨rfl, hstack⟩
  · have hl : ∃ c : RepoLock, l' = .inl c ∧ c ≠ .sessions ∧ c ≠ .controllers ∧
        stack p.state.held i = [(.inl c, .read)] := by
      rcases hstack with hstack | hstack
      all_goals
        rw [hstack, List.mem_singleton] at hmem
        obtain ⟨rfl, -⟩ := Prod.mk.inj hmem
        exact ⟨_, rfl, by simp, by simp, hstack⟩
    obtain ⟨c, rfl, hc, hc', hread⟩ := hl
    obtain ⟨rfl, hw', l₁, hl₁, hremoves⟩ := hasked (by simpa using hc) (by simp)
    cases hl₁
    exact ⟨i', c, ⟨r, id, pr, ht, hh⟩, hread, ⟨j', pr', ht', hh', hremoves.resolve_left hc'⟩, hw'⟩
  · rw [hstack, List.mem_singleton] at hmem
    obtain ⟨rfl, -⟩ := Prod.mk.inj hmem
    obtain ⟨-, -, l₁, hl₁, -⟩ := hasked (by simp) (by simp)
    cases hl₁

end circles

namespace Crossing
variable {p : LockedPool} {reader writer : Nat} {l : RepoLock}

theorem waits (h : Crossing p reader writer l) :
    WaitsFor p reader writer ∧ WaitsFor p writer reader := by
  obtain ⟨r, id, pr, ht, hh⟩ := h.looking
  obtain ⟨j, pr', ht', hh', -⟩ := h.removing
  have hread : (.inl l, .read) ∈ stack p.state.held reader := by simp [h.read]
  exact ⟨⟨_, _, _, ⟨_, ht, hh⟩, mem_stack.mp h.written, rfl⟩,
    _, _, _, ⟨_, ht', hh'⟩, mem_stack.mp hread, rfl⟩

end Crossing

/-- What the locks do to the controller. -/
structure Guards (members : Table String Member) (p : LockedPool) : Prop where
  refines : Reachable (Storage.start members) (p.erase : ControllerPool)
  released : ∀ (i : Nat) j a, p.tasks[i]? = some (j, .ret a) → stack p.state.held i = []
  circles : ∀ i, Relation.TransGen (WaitsFor p) i i ↔
    ∃ i' l, Crossing p i i' l ∨ Crossing p i' i l

/-- Under the locks nothing is done that cannot be done without; whoever has been answered holds
none; and whoever waits for itself by way of others is a route request in a lookup, or a logout or a
sweep that is in the way of one. -/
theorem controller_guards {members : Table String Member} {p : LockedPool}
    (hp : Reach Distinct ⟨[], Storage.start members⟩ p) : Guards members p where
  refines := hp.erase (fun _ => unguarded_guarding _ _) fun _ _ h => h
  released i j a ht := (hp.scoped brackets_handler rfl).1 i j _ ht
  circles i := by
    constructor
    · intro h
      by_cases hw : (.inl .sessions, .write) ∈ stack p.state.held i
      · obtain ⟨reader, l, hcrossing⟩ := crossing_of_writer hp h hw
        exact ⟨reader, l, .inr hcrossing⟩
      · obtain ⟨writer, l, hcrossing⟩ := crossing_of_other hp h hw
        exact ⟨writer, l, .inl hcrossing⟩
    · rintro ⟨i', l, h | h⟩
      · exact .trans (.single h.waits.1) (.single h.waits.2)
      · exact .trans (.single h.waits.2) (.single h.waits.1)

theorem asks_of_map {p : LockedPool} {asked : List (Option (ControllerLock × Mode))}
    (h : p.tasks.map (fun t => t.2.asks?) = asked) {i : Nat} {l : ControllerLock} {m : Mode}
    (hi : asked[i]? = some (some (l, m))) : Asks p i l m := by
  rw [← h, List.getElem?_map] at hi
  obtain ⟨t, ht, ha⟩ := Option.map_eq_some_iff.mp hi
  exact ⟨t, ht, Prog.asks?_eq_some.mp ha⟩

theorem controller_guards_sample : ∃ p : LockedPool, Guards sampleMembers p ∧
    Relation.TransGen (WaitsFor p) 2 2 := by
  let acts : Nat → Nat → List (Move lockedController) := fun n i => List.replicate n (.act i ⟨0, 0⟩)
  let moves : List (Move lockedController) :=
    .spawn (signIn "alice" 2 "k-alice") :: acts 9 0 ++
      .spawn ⟨.init ⟨"k-alice", "bob"⟩, "c"⟩ :: acts 9 1 ++
        .spawn (askRoute "k-alice" "n1") :: acts 10 2 ++ .spawn ⟨.sweepSessions, ""⟩ :: acts 3 3
  obtain ⟨p, hrun, hends⟩ : ∃ p, (Pool.start ⟨[], Storage.start sampleMembers⟩ : LockedPool).run
      moves = some p ∧ (p.state.held, p.tasks.map fun t => t.2.asks?) =
        ([⟨3, .inl .controllers, .write⟩, ⟨3, .inl .clients, .write⟩, ⟨3, .inl .sessions, .write⟩,
          ⟨2, .inl .proxies, .read⟩],
          [none, none, some (.inl .sessions, .read), some (.inl .proxies, .write)]) :=
    exists_run (by rfl)
  have hp : Reach Distinct ⟨[], Storage.start sampleMembers⟩ p := Reach.start.run (by decide) hrun
  obtain ⟨hheld, hasked⟩ := Prod.mk.inj hends
  have hroute : WaitsFor p 2 3 := ⟨_, _, .write, asks_of_map hasked rfl, by simp [hheld], rfl⟩
  have hsweep : WaitsFor p 3 2 := ⟨_, _, .read, asks_of_map hasked rfl, by simp [hheld], rfl⟩
  exact ⟨p, controller_guards hp, .trans (.single hroute) (.single hsweep)⟩

end FuzzyChat
