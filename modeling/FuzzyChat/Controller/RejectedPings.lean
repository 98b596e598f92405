import FuzzyChat.Controller.Programs
import FuzzyChat.Controller.Steps
import FuzzyChat.Interleave.Served

/-! What a rejected ping leaves behind. -/

namespace FuzzyChat
open Interleave

structure SessionStore.Same (s s' : SessionStore) : Prop where
  sessions : ∀ k, s'.sessions.lookup k = s.sessions.lookup k
  index : ∀ c uid, (s'.index c).lookup uid = (s.index c).lookup uid

def Storage.serve (choices : Nat → Choice) (op : RepoOp) (w : Nat × Storage) :
    Option (op.Res × Nat × Storage) :=
  let (r, s) := w.2.step (choices w.1) op
  some (r, w.1 + 1, s)

def pingAlone (choices : Nat → Choice) (remoteAddr : Option SocketAddr) (r : PingRequest)
    (s : Storage) : Option (Except Abort Reply × Nat × Storage) :=
  Prog.run (Storage.serve choices) (Job.handler ⟨.ping remoteAddr r, ""⟩) (0, s)

section
variable {s : SessionStore} {k : String} {now : Nat}

theorem SessionStore.Same.refl (s : SessionStore) : s.Same s := ⟨fun _ => rfl, fun _ _ => rfl⟩

theorem same_getSession_iff :
    s.Same (s.getSession now k).2 ↔ ∀ w, s.sessions.lookup k = some w → w.renew now = w := by
  constructor
  · intro h w hw
    have hk := h.sessions k
    rw [SessionStore.sessions_getSession, AList.lookup_modify, if_pos rfl, hw] at hk
    exact Option.some.inj hk
  · intro h
    constructor
    case index => exact fun c uid => by rw [SessionStore.index_getSession]
    case sessions =>
      intro k'
      rw [SessionStore.sessions_getSession, AList.lookup_modify]
      split_ifs with hk
      · subst hk
        cases hw : s.sessions.lookup k' with
        | none => rfl
        | some w => exact congrArg some (h w hw)
      · rfl

theorem same_getSession_twice_iff {now' : Nat} :
    s.Same ((s.getSession now k).2.getSession now' k).2 ↔ s.Same (s.getSession now' k).2 := by
  have hrenew : ∀ w : ExpirationWrapper SessionInfo, (w.renew now).renew now' = w.renew now' :=
    fun w => rfl
  have hsessions : ∀ k', ((s.getSession now k).2.getSession now' k).2.sessions.lookup k' =
      (s.getSession now' k).2.sessions.lookup k' := by
    intro k'
    simp only [SessionStore.sessions_getSession, AList.lookup_modify]
    split_ifs with hk
    · cases hw : s.sessions.lookup k with
      | none => rfl
      | some w => exact congrArg some (hrenew w)
    · rfl
  have hindex : ∀ c, ((s.getSession now k).2.getSession now' k).2.index c =
      (s.getSession now' k).2.index c := by
    intro c
    simp only [SessionStore.index_getSession]
  constructor
  · exact fun h => ⟨fun k' => hsessions k' ▸ h.sessions k', fun c => hindex c ▸ h.index c⟩
  · exact fun h => ⟨fun k' => (hsessions k').trans (h.sessions k'), fun c => hindex c ▸ h.index c⟩

end

section
variable (choices : Nat → Choice) (r : PingRequest) {s : Storage} {clientIp : SocketAddr}

theorem pingAlone_unknown (hs : s.sessions.sessionOf r.accessKey = none) :
    pingAlone choices (some clientIp) r s =
      some (.error (.status (Status.unauthenticated "Invalid access key")), 1,
        (s.step (choices 0) (.getSession r.accessKey)).2) := by
  unfold pingAlone
  rw [handler_ping]
  simp only [checkedSession, Prog.run, Storage.serve, Option.bind_some, Storage.step_getSession, hs]
  rfl

theorem pingAlone_known {info : SessionInfo} (hs : s.sessions.sessionOf r.accessKey = some info) :
    pingAlone choices (some clientIp) r s =
      Prog.run (Storage.serve choices)
        (if info.clientIp = clientIp then
          .call .utcNow fun timestamp => reply (.ping ⟨"PONG", timestamp⟩)
        else refuse (Status.unauthenticated "Invalid connection"))
        (2, ((s.step (choices 0) (.getSession r.accessKey)).2.step (choices 1)
          (.getSession r.accessKey)).2) := by
  have hs' : (s.step (choices 0) (.getSession r.accessKey)).2.sessions.sessionOf r.accessKey =
      some info := (SessionStore.sessionOf_getSession s.sessions _ _ _).trans hs
  unfold pingAlone
  rw [handler_ping]
  simp only [checkedSession, fetchedSession, Prog.run, Storage.serve, Option.bind_some,
    Storage.step_getSession, hs, hs']

end

/-- A rejected ping leaves the store as it was exactly if there was no session to be looked up, or
the second lookup gives it the expiry it has. -/
theorem rejected_ping_same_iff (s : Storage) (choices : Nat → Choice)
    (remoteAddr : Option SocketAddr) (r : PingRequest) {status : Status} {n : Nat} {s' : Storage}
    (h : pingAlone choices remoteAddr r s = some (.error (.status status), n, s')) :
    s.sessions.Same s'.sessions ↔
      ∀ clientIp w, remoteAddr = some clientIp → s.sessions.sessions.lookup r.accessKey = some w →
        w.renew (s.now + (choices 0).elapsed + (choices 1).elapsed) = w := by
  cases remoteAddr with
  | none =>
    have hsame : s' = s := by
      cases h
      rfl
    rw [hsame]
    constructor
    · intro _ clientIp w haddr
      cases haddr
    · exact fun _ => SessionStore.Same.refl s.sessions
  | some clientIp =>
    have haddr : (∀ clientIp' w, some clientIp = some clientIp' →
          s.sessions.sessions.lookup r.accessKey = some w →
            w.renew (s.now + (choices 0).elapsed + (choices 1).elapsed) = w) ↔
        ∀ w, s.sessions.sessions.lookup r.accessKey = some w →
          w.renew (s.now + (choices 0).elapsed + (choices 1).elapsed) = w :=
      ⟨fun h w => h clientIp w rfl, fun h _ w _ => h w⟩
    rw [haddr]
    cases hs : s.sessions.sessionOf r.accessKey with
    | none =>
      rw [pingAlone_unknown choices r hs] at h
      cases h
      have hlookup : s.sessions.sessions.lookup r.accessKey = none := Option.map_eq_none_iff.mp hs
      have hsame : s.sessions.Same (s.sessions.getSession (s.now + (choices 0).elapsed)
          r.accessKey).2 := by
        apply same_getSession_iff.mpr
        intro w hw
        rw [hlookup] at hw
        cases hw
      constructor
      · intro _ w hw
        rw [hlookup] at hw
        cases hw
      · exact fun _ => hsame
    | some info =>
      rw [pingAlone_known choices r hs] at h
      split_ifs at h
      · cases h
      · cases h
        exact same_getSession_twice_iff.trans same_getSession_iff

theorem rejected_ping_same_iff_sample : ∃ p : ControllerPool,
    Reachable (Storage.start sampleMembers) p ∧ ∃ n s',
      pingAlone (fun _ => ⟨0, 0⟩) (some ⟨"10.9.9.9", 1⟩) ⟨"k-alice"⟩ p.state =
        some (.error (.status (Status.unauthenticated "Invalid connection")), n, s') ∧
      p.state.sessions.Same s'.sessions := by
  obtain ⟨p, hrun, h⟩ : ∃ p, (Pool.start (Storage.start sampleMembers) : ControllerPool).run
      (inTurn [(signIn "alice" 2 "k-alice", 3)]) = some p ∧
        ((p.state.sessions.sessions.lookup "k-alice").map fun w =>
          (w.value.clientIp, w.expiresAt, w.expirationTime, p.state.now)) =
            some (⟨"10.0.0.1", 40000⟩, 10000, 10000, 0) := exists_run (by decide)
  obtain ⟨w, hw, h⟩ := Option.map_eq_some_iff.mp h
  simp only [Prod.mk.injEq] at h
  obtain ⟨hip, hend, htime, hnow⟩ := h
  have hs : p.state.sessions.sessionOf "k-alice" = some w.value := by
    rw [SessionStore.sessionOf, hw, Option.map_some]
  have hping := @pingAlone_known (fun _ => ⟨0, 0⟩) ⟨"k-alice"⟩ _ ⟨"10.9.9.9", 1⟩ _ hs
  rw [hip, if_neg (by decide)] at hping
  refine ⟨p, Reachable.of_run hrun, _, _, hping, ?_⟩
  apply (rejected_ping_same_iff p.state _ _ _ hping).mpr
  intro _ w' _ hw'
  obtain rfl : w = w' := Option.some.inj (hw.symm.trans hw')
  obtain ⟨value, expiresAt, expirationTime⟩ := w
  simp only at hend htime
  simp [ExpirationWrapper.renew, hend, htime, hnow]

/-- Five seconds later the rejected ping has extended Alice's session. -/
theorem rejected_ping_renews : ¬ ∀ (members : Table String Member) (p : ControllerPool),
    Reachable (Storage.start members) p → ∀ choices remoteAddr r status n s',
      pingAlone choices remoteAddr r p.state = some (.error (.status status), n, s') →
        p.state.sessions.Same s'.sessions := by
  intro hall
  obtain ⟨p, hrun, h⟩ : ∃ p, (Pool.start (Storage.start sampleMembers) : ControllerPool).run
      (inTurn [(signIn "alice" 2 "k-alice", 3)]) = some p ∧
        ((p.state.sessions.sessions.lookup "k-alice").map ExpirationWrapper.expiresAt,
          (pingAlone (fun _ => ⟨2500, 0⟩) (some ⟨"10.9.9.9", 1⟩) ⟨"k-alice"⟩ p.state).map fun x =>
            (x.1, (x.2.2.sessions.sessions.lookup "k-alice").map ExpirationWrapper.expiresAt)) =
          (some 10000, some (.error (.status (Status.unauthenticated "Invalid connection")),
            some 15000)) := exists_run (by decide)
  obtain ⟨hbefore, hping⟩ := Prod.mk.inj h
  obtain ⟨⟨a, n, s'⟩, hping, hx⟩ := Option.map_eq_some_iff.mp hping
  obtain ⟨rfl, hafter⟩ := Prod.mk.inj hx
  have hsame := hall _ p (Reachable.of_run hrun) _ _ _ _ n s' hping
  rw [hsame.sessions "k-alice", hbefore] at hafter
  exact absurd hafter (by decide)

end FuzzyChat
