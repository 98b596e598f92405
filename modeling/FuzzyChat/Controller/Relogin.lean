import FuzzyChat.Controller.Services
import FuzzyChat.Controller.Steps
import FuzzyChat.Controller.Discovery
import FuzzyChat.Interleave.Trace

/-! Clients looked up while they sign in anew. -/

namespace FuzzyChat
open Interleave

inductive ClientCall where
  | setSession (info : SessionInfo)
  | getClient (uid : String)
  deriving DecidableEq

inductive ClientOutcome where
  | stored
  | panicked
  | client (found : Option SessionInfo)
  deriving DecidableEq

abbrev ClientProgram := Prog RepoOp.Res ClientOutcome

namespace ClientCall

def storing (info : SessionInfo) : ClientProgram :=
  .call (.insertSession info) fun _ => .ret .stored

def reading (accessKey : String) : ClientProgram :=
  .call (.sessionOf accessKey) fun found => .ret (.client found)

/-- The sections under a lock. That `get_client` holds on to the clients while it reads the sessions
only rules some of the orders out. -/
def program : ClientCall → ClientProgram
  | setSession info =>
    match Component.fromU8 info.componentType with
    | none => .ret .panicked
    | some c => .call (.insertIndex c info.uid info.accessKey) fun _ => storing info
  | getClient uid => .call (.clientKey uid) fun
    | none => .ret (.client none)
    | some k => reading k

end ClientCall

open ClientCall

abbrev clientCalls : System where
  Op := RepoOp
  Res := RepoOp.Res
  State := Storage
  Choice := Choice
  Job := ClientCall
  Out := ClientOutcome
  exec _ c op s := some (s.step c op)
  prog := ClientCall.program
  admits _ _ := True
  decAdmits _ _ := inferInstanceAs (Decidable True)

abbrev ClientPool := Pool clientCalls

/-- Some session of the client is stored, and has not expired. -/
def HasClient (uid : String) (p : ClientPool) : Prop :=
  ∃ e ∈ p.state.sessions.sessions.entries, e.2.value.uid = uid ∧
    e.2.value.componentType = Component.client.toU8 ∧ e.2.isExpired p.state.now = false

instance (uid : String) : DecidablePred (HasClient uid) := fun p => by
  unfold HasClient
  infer_instance

def NeverNone (uid : String) (p : ClientPool) : Prop :=
  ∀ i, p.returned i ≠ some (.getClient uid, .client none)

/-- The step looks for the session under a key that has been published, but is yet to be stored. -/
def Overtakes (uid : String) (p : ClientPool) (m : Move clientCalls) : Prop :=
  ∃ (i i' : Nat) (c : Choice) (info : SessionInfo), m = .act i c ∧
    p.tasks[i]? = some (ClientCall.getClient uid, reading info.accessKey) ∧
    p.tasks[i']? = some (ClientCall.setSession info, storing info) ∧
    p.state.sessions.sessionOf info.accessKey = none

/-- The step looks for the key of a client of whom a session is stored, and none is listed. -/
def Overlooks (uid : String) (p : ClientPool) (m : Move clientCalls) : Prop :=
  ∃ (i : Nat) (c : Choice), m = .act i c ∧
    p.tasks[i]? = some (ClientCall.getClient uid, program (.getClient uid)) ∧
    HasClient uid p ∧ p.state.sessions.clients.lookup uid = none

theorem call_cases {s₀ : Storage} {p : ClientPool} (hp : Reachable s₀ p) {i : Nat} {j : ClientCall}
    {op : RepoOp} {k : op.Res → ClientProgram} (ht : p.tasks[i]? = some (j, .call op k)) :
    (∃ info c, j = .setSession info ∧ Component.fromU8 info.componentType = some c ∧
      Prog.call op k = .call (.insertIndex c info.uid info.accessKey) fun _ => storing info) ∨
    (∃ info, j = .setSession info ∧ Prog.call op k = storing info) ∨
    (∃ uid, j = .getClient uid ∧ Prog.call op k = program (.getClient uid)) ∨
    ∃ uid key, j = .getClient uid ∧ Prog.call op k = reading key := by
  have hleads : j.program.Leads _ _ := hp.leads i j _ ht
  cases j with
  | setSession info =>
    cases hc : Component.fromU8 info.componentType with
    | none =>
      simp only [program, hc] at hleads
      cases hleads.of_ret
    | some c =>
      simp only [program, hc] at hleads
      rcases hleads.of_call with h | ⟨_, es, -, hrest⟩
      · exact .inl ⟨info, c, rfl, hc, h⟩
      · rcases hrest.of_call with h | ⟨_, es, -, hrest⟩
        · exact .inr (.inl ⟨info, rfl, h⟩)
        · cases hrest.of_ret
  | getClient uid =>
    rcases hleads.of_call with h | ⟨found, es, -, hrest⟩
    · exact .inr (.inr (.inl ⟨uid, rfl, h⟩))
    · cases found with
      | none => cases hrest.of_ret
      | some key =>
        rcases hrest.of_call with h | ⟨_, es, -, hrest⟩
        · exact .inr (.inr (.inr ⟨uid, key, rfl, h⟩))
        · cases hrest.of_ret

def Reaching (p : ClientPool) (k : String) : Prop :=
  p.state.sessions.sessionOf k ≠ none ∨ ∃ (i : Nat) (info : SessionInfo),
    p.tasks[i]? = some (ClientCall.setSession info, storing info) ∧ info.accessKey = k

structure Underway (p : ClientPool) : Prop where
  entries : ∀ uid k, p.state.sessions.clients.lookup uid = some k → Reaching p k
  reading : ∀ (i : Nat) uid k, p.tasks[i]? = some (ClientCall.getClient uid, reading k) →
    Reaching p k

theorem program_ne_reading (j : ClientCall) (k : String) : j.program ≠ reading k := by
  intro h
  cases j with
  | setSession info =>
    cases hc : Component.fromU8 info.componentType with
    | none => simp [program, reading, hc] at h
    | some c => simp [program, reading, hc] at h
  | getClient uid => simp [program, reading] at h

section steps
variable {s₀ : Storage} {p : ClientPool}

theorem underway_accept (hu : Underway p) (j : ClientCall) : Underway (p.accept j) := by
  have hreaching : ∀ k, Reaching p k → Reaching (p.accept j) k := by
    rintro k (hs | ⟨i, info, ht, hk⟩)
    · exact .inl hs
    · exact .inr ⟨i, info, Pool.tasks_accept.mpr (.inl ht), hk⟩
  constructor
  case entries => exact fun uid k hk => hreaching k (hu.entries uid k hk)
  case reading =>
    intro i uid k ht
    rcases Pool.tasks_accept.mp ht with hold | ⟨-, hnew⟩
    · exact hreaching k (hu.reading i uid k hold)
    · exact absurd (congrArg Prod.snd hnew).symm (program_ne_reading j k)

variable {i : Nat} {j : ClientCall} {op : RepoOp} {k : op.Res → ClientProgram} (c : Choice)

theorem kept_step (hp : Reachable s₀ p) (ht : p.tasks[i]? = some (j, .call op k)) {key : String}
    (hkey : p.state.sessions.sessionOf key ≠ none) :
    (p.state.step c op).2.sessions.sessionOf key ≠ none := by
  rcases call_cases hp ht with ⟨info, t, -, -, h⟩ | ⟨info, -, h⟩ | ⟨uid, -, h⟩ | ⟨uid, k', -, h⟩
  · cases h
    change ((p.state.sessions.insertIndex t info.uid info.accessKey).sessions.lookup key).map _ ≠ _
    rwa [SessionStore.sessions_insertIndex]
  · cases h
    change (p.state.sessions.insertSession (p.state.now + c.elapsed) info).sessionOf key ≠ _
    rw [SessionStore.sessionOf_insertSession]
    split_ifs
    · exact Option.some_ne_none _
    · exact hkey
  · cases h
    exact hkey
  · cases h
    exact hkey

theorem reaching_advance (hp : Reachable s₀ p) (ht : p.tasks[i]? = some (j, .call op k))
    {key : String}
    (hr : Reaching p key) : Reaching (p.advance (S := clientCalls) i j op k (p.state.step c op).1
      (p.state.step c op).2) key := by
  rcases hr with hs | ⟨i', info, ht', rfl⟩
  · exact .inl (kept_step c hp ht hs)
  · by_cases hi : i' = i
    · -- the one that was about to store it has now done so
      rw [hi, ht] at ht'
      cases ht'
      left
      change (p.state.sessions.insertSession (p.state.now + c.elapsed) info).sessionOf _ ≠ none
      simp [SessionStore.sessionOf_insertSession]
    · exact .inr ⟨i', info, (Pool.tasks_advance ht).mpr (.inr ⟨hi, ht'⟩), rfl⟩

theorem underway_calls_advance (hp : Reachable s₀ p) (hu : Underway p)
    (ht : p.tasks[i]? = some (j, .call op k)) :
    Underway (p.advance (S := clientCalls) i j op k (p.state.step c op).1
      (p.state.step c op).2) := by
  have hreaching : ∀ key, Reaching p key → Reaching (p.advance (S := clientCalls) i j op k
      (p.state.step c op).1 (p.state.step c op).2) key := fun key => reaching_advance c hp ht
  constructor
  case entries =>
    intro uid key hix
    rcases Storage.lookup_index_step (t := .client) hix with hold | rfl
    · exact hreaching key (hu.entries uid key hold)
    · rcases call_cases hp ht with ⟨info, t, rfl, -, h⟩ | ⟨info, -, h⟩ | ⟨_, -, h⟩ | ⟨_, _, -, h⟩
      · cases h
        exact .inr ⟨i, info, (Pool.tasks_advance ht).mpr (.inl ⟨rfl, rfl⟩), rfl⟩
      · cases h
      · cases h
      · cases h
  case reading =>
    intro i' uid key ht'
    rcases (Pool.tasks_advance ht).mp ht' with ⟨rfl, hnew⟩ | ⟨-, hold⟩
    · obtain ⟨hjob, hprog⟩ := Prod.mk.inj hnew
      rcases call_cases hp ht with ⟨_, _, rfl, -, -⟩ | ⟨_, rfl, -⟩ | ⟨uid', -, h⟩ | ⟨_, _, -, h⟩
      · cases hjob
      · cases hjob
      · cases h
        change reading key = _ at hprog
        rw [Storage.step_clientKey] at hprog
        cases hfound : p.state.sessions.clientKey uid' with
        | none =>
          rw [hfound] at hprog
          cases hprog
        | some key' =>
          rw [hfound] at hprog
          cases hprog
          exact hreaching key (hu.entries uid' key hfound)
      · cases h
        cases hprog
    · exact hreaching key (hu.reading i' uid key hold)

theorem neverNone_step (hp : Reachable s₀ p) (hu : Underway p) {uid : String}
    (hlive : HasClient uid p) (hn : NeverNone uid p) (m : Move clientCalls) :
    ¬ Overlooks uid p m ∧ ¬ Overtakes uid p m ↔ ∀ q, p.step m = some q → NeverNone uid q := by
  constructor
  · rintro ⟨hlisted, hno⟩ q hq i' hret
    have ht' := Pool.returned_eq_some.mp hret
    rcases Pool.step_eq_some.mp hq with ⟨j, rfl, -, rfl⟩ | ⟨i, c, j, op, k, r, s, rfl, ht, hx, rfl⟩
    · rcases Pool.tasks_accept.mp ht' with hold | ⟨-, hnew⟩
      · exact hn i' (Pool.returned_eq_some.mpr hold)
      · obtain ⟨rfl, hprog⟩ := Prod.mk.inj hnew
        cases hprog
    · rcases (Pool.tasks_advance ht).mp ht' with ⟨rfl, hnew⟩ | ⟨-, hold⟩
      · obtain ⟨rfl, hprog⟩ := Prod.mk.inj hnew
        have hr : (p.state.step c op).1 = r := congrArg Prod.fst (Option.some.inj hx)
        rcases call_cases hp ht with ⟨_, _, h, -⟩ | ⟨_, h, -⟩ | ⟨uid', h, hk⟩ | ⟨uid', key, h, hk⟩
        · cases h
        · cases h
        · cases h
          cases hk
          have hnone : p.state.sessions.clients.lookup uid = none := by
            change p.state.sessions.clientKey uid = none
            rw [← Storage.step_clientKey p.state c uid, hr]
            cases r with
            | none => rfl
            | some key => cases hprog
          exact hlisted ⟨i', c, rfl, ht, hlive, hnone⟩
        · cases h
          cases hk
          have hnone : p.state.sessions.sessionOf key = none := by
            rw [← Storage.step_sessionOf p.state c key, hr]
            cases hprog
            rfl
          rcases hu.reading i' uid key ht with hs | ⟨i, info, hstoring, rfl⟩
          · exact hs hnone
          · exact hno ⟨i', i, c, info, rfl, ht, hstoring, hnone⟩
      · exact hn i' (Pool.returned_eq_some.mpr hold)
  · intro hall
    constructor
    · rintro ⟨i, c, rfl, ht, -, hnone⟩
      have hq := hall _ (Pool.step_eq_some.mpr (.inr ⟨i, c, _, _, _, _, _, rfl, ht, rfl, rfl⟩))
      apply hq i (Pool.returned_eq_some.mpr ((Pool.tasks_advance ht).mpr (.inl ⟨rfl, ?_⟩)))
      have hkey : (p.state.tick c.elapsed).sessions.clientKey uid = none := hnone
      rw [hkey]
    · rintro ⟨i, i', c, info, rfl, ht, ht', hnone⟩
      have hq := hall _ (Pool.step_eq_some.mpr (.inr ⟨i, c, _, _, _, _, _, rfl, ht, rfl, rfl⟩))
      apply hq i (Pool.returned_eq_some.mpr ((Pool.tasks_advance ht).mpr (.inl ⟨rfl, ?_⟩)))
      have hkey : (p.state.tick c.elapsed).sessions.sessionOf info.accessKey = none := hnone
      rw [hkey]

/-- As long as a session of the client is there, its lookups fail exactly when one of them finds it
unlisted, or comes between the two sections of a `set_session`. At the start no call is under way:
what is listed is stored, as after any calls that have been completed. -/
theorem getClient_seamless_iff {s₀ : Storage} (hs : SessionRun.IndexStored s₀.sessions .client)
    (uid : String) (ms : List (Move clientCalls))
    (hlive : Always Pool.step (HasClient uid) (Pool.start s₀ : ClientPool) ms) :
    Always Pool.step (NeverNone uid) (Pool.start s₀ : ClientPool) ms ↔
      Each Pool.step (fun p m => ¬ Overlooks uid p m ∧ ¬ Overtakes uid p m)
        (Pool.start s₀ : ClientPool) ms := by
  apply always_iff_each_within (I := fun p => Reachable s₀ p ∧ Underway p) (Q := HasClient uid)
  · rintro p m q ⟨hp, hu⟩ hq
    refine ⟨hp.step trivial hq, ?_⟩
    rcases Pool.step_eq_some.mp hq with ⟨j, rfl, -, rfl⟩ | ⟨i, c, j, op, k, r, s, rfl, ht, hx, rfl⟩
    · exact underway_accept hu j
    · obtain ⟨rfl, rfl⟩ := Prod.mk.inj (Option.some.inj hx).symm
      exact underway_calls_advance c hp hu ht
  · exact fun p m hI hQ hP => neverNone_step hI.1 hI.2 hQ hP m
  · exact hlive
  · refine ⟨.start, fun u k hk => .inl ?_, ?_⟩
    · obtain ⟨w, hw⟩ := Option.isSome_iff_exists.mp (hs u k hk)
      change (s₀.sessions.sessions.lookup k).map _ ≠ none
      rw [hw]
      exact Option.some_ne_none _
    · exact fun i u k ht => by cases ht
  · exact fun i hret => by cases hret

end steps

def aliceAs (accessKey : String) : SessionInfo :=
  SessionManager.sessionInfo accessKey "alice" .client ⟨"10.0.0.1", 40000⟩
    ⟨"10.0.0.1", 50051, "alice", [1]⟩

def aliceOnline : Storage :=
  [RepoOp.insertIndex .client "alice" "k-old", .insertSession (aliceAs "k-old")].foldl
    (fun s op => (s.step ⟨0, 0⟩ op).2) (Storage.start ∅)

theorem aliceOnline_clientsStored : SessionRun.IndexStored aliceOnline.sessions .client :=
  ((SessionRun.always_clientsStored [(0, .setSession (aliceAs "k-old"))]).2 _ rfl).2

/-- Alice is looked up after her new key has been published and before her session is stored. -/
def overtaking : List (Move clientCalls) :=
  [.spawn (.setSession (aliceAs "k-new")), .spawn (.getClient "alice"), .act 0 ⟨0, 0⟩,
    .act 1 ⟨0, 0⟩, .act 1 ⟨0, 0⟩]

theorem hasClient_overtaking :
    Always Pool.step (HasClient "alice") (Pool.start aliceOnline : ClientPool) overtaking := by
  decide

theorem not_neverNone_overtaking :
    ¬ Always Pool.step (NeverNone "alice") (Pool.start aliceOnline : ClientPool) overtaking := by
  rintro ⟨-, h⟩
  have hlast := (((h _ rfl).2 _ rfl).2 _ rfl).2 _ rfl
  exact hlast.2 _ rfl 1 rfl

theorem getClient_seamless_iff_sample :
    Always Pool.step (HasClient "alice") (Pool.start aliceOnline : ClientPool) overtaking ∧
    ¬ Each Pool.step (fun p m => ¬ Overlooks "alice" p m ∧ ¬ Overtakes "alice" p m)
      (Pool.start aliceOnline : ClientPool) overtaking := by
  refine ⟨hasClient_overtaking, fun heach => not_neverNone_overtaking ?_⟩
  have hiff := getClient_seamless_iff aliceOnline_clientsStored "alice" overtaking
    hasClient_overtaking
  exact hiff.mpr heach

/-- Alice is not found while her previous session is stored and has not expired. -/
theorem getClient_misses : ¬ ∀ (s₀ : Storage) (uid : String) (ms : List (Move clientCalls)),
    SessionRun.IndexStored s₀.sessions .client →
      Always Pool.step (HasClient uid) (Pool.start s₀ : ClientPool) ms →
        Always Pool.step (NeverNone uid) (Pool.start s₀ : ClientPool) ms := fun hall =>
  not_neverNone_overtaking (hall aliceOnline "alice" overtaking aliceOnline_clientsStored
    hasClient_overtaking)

end FuzzyChat
