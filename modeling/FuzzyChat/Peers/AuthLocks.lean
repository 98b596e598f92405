import FuzzyChat.Peers.AuthHandler
import FuzzyChat.Interleave.LockOrder
import FuzzyChat.Interleave.Exclusive

/-! The locks around the authenticator and its session cells, which its handler, the requests a proxy
serves and a client's commands take side by side. -/

namespace FuzzyChat
open Interleave

/-- The lock of the authenticator, and those of the cells it makes. -/
inductive AuthLock where
  | authenticator
  | cell (n : Nat)
  deriving DecidableEq, Repr

structure AuthAnswers where
  login : Except Abort LoginResponse
  ping : Except Abort PingResponse
  logout : Except Abort Unit

inductive AuthStep where
  | this
  | login (request : LoginRequest)
  | ping (request : PingRequest)
  | logout (request : LogoutRequest)
  | readCell (n : Nat)
  | writeCell (n : Nat) (session : ClientSession)
  | replace (session : ClientSession)

namespace AuthStep

/-- A call to the service is `none` when there is no client to unwrap. -/
abbrev Res : AuthStep → Type
  | this => AuthClient
  | login _ => Option (Except Abort LoginResponse)
  | ping _ => Option (Except Abort PingResponse)
  | logout _ => Option (Except Abort Unit)
  | readCell _ => ClientSession
  | writeCell _ _ | replace _ => Unit

def exec (answers : AuthAnswers) : (op : AuthStep) → AuthState → op.Res × AuthState
  | this, s => (s.auth, s)
  | login _, s => (if s.auth.connected then some answers.login else none, s)
  | ping _, s => (if s.auth.connected then some answers.ping else none, s)
  | logout _, s => (if s.auth.connected then some answers.logout else none, s)
  | readCell n, s => (s.cells[n]?.getD ClientSession.blank, s)
  | writeCell n session, s =>
    ((), { s with cells := s.cells.set n session, refers := by simpa using s.refers })
  | replace session, s => ((), s.replace session)

theorem readCell_current (answers : AuthAnswers) (s : AuthState) :
    exec answers (.readCell s.auth.session) s = (s.current, s) := by
  simp [exec, AuthState.current, s.refers]

end AuthStep

abbrev LockedAuth (α : Type) := Prog (LockOp.Res (L := AuthLock) AuthStep.Res) α

namespace lockedAuth

def acquire (l : AuthLock) (m : Mode) : LockedAuth Unit := .call (.acquire l m) .ret

def release (l : AuthLock) : LockedAuth Unit := .call (.release l) .ret

def run (op : AuthStep) : LockedAuth op.Res := .call (.run op) .ret

/-! The methods of the authenticator: `none` is a panic. -/

def getSession : LockedAuth ClientSession := do
  let a ← run .this
  acquire (.cell a.session) .read
  let session ← run (.readCell a.session)
  release (.cell a.session)
  pure session

def isAuthenticated : LockedAuth Bool := do
  let session ← getSession
  pure session.isAuthenticated

def login (c : Crates) : LockedAuth (Option (Except Fault Unit)) := do
  let a ← run .this
  match ← run (.login a.loginRequest) with
  | none => pure none
  | some (.error e) => pure (some (.error (.text ("Login failed: " ++ c.display e))))
  | some (.ok response) => do
    acquire (.cell a.session) .write
    run (.writeCell a.session (ClientSession.of a.credentials.uid response.accessKey))
    release (.cell a.session)
    pure (some (.ok ()))

def logout (c : Crates) : LockedAuth (Option (Except Fault Unit)) := do
  let session ← getSession
  match ← run (.logout ⟨session.accessKey.getD ""⟩) with
  | none => pure none
  | some (.error e) => pure (some (.error (.text ("Logout failed: " ++ c.display e))))
  | some (.ok ()) => do
    run (.replace ClientSession.blank)
    pure (some (.ok ()))

def ping : LockedAuth (Option (Except Fault (String × Nat))) := do
  let a ← run .this
  acquire (.cell a.session) .read
  let session ← run (.readCell a.session)
  let answer ← run (.ping ⟨session.accessKey.getD ""⟩)
  release (.cell a.session)
  match answer with
  | none => pure none
  | some (.error e) => pure (some (.error (.abort e)))
  | some (.ok response) => pure (some (.ok (response.status, response.timestamp)))

end lockedAuth

/-- The handler's uses of the authenticator, that of a request to a proxy, and that of a client's
command, which reads the first cell. -/
inductive AuthTask where
  | authenticate
  | ping
  | logout
  | checkAuthentication
  | command
  deriving DecidableEq, Repr

inductive AuthOut where
  | authenticated (r : Except Fault String)
  | pinged (r : Except Fault (String × Nat))
  | loggedOut (r : Except Fault Unit)
  | checked (r : Except Status String)
  | command (accessKey : Option String)
  | panicked
  deriving DecidableEq

namespace AuthTask
open lockedAuth

def body (c : Crates) : AuthTask → LockedAuth AuthOut
  | authenticate => do
    match ← lockedAuth.login c with
    | none => pure .panicked
    | some (.error _) => pure (.authenticated (.error (.text "Impossible to login")))
    | some (.ok ()) => do
      let session ← lockedAuth.getSession
      let authenticated ← isAuthenticated
      pure <| if authenticated then
        session.accessKey.elim .panicked fun accessKey => .authenticated (.ok accessKey)
      else .authenticated (.error (.text "Not authenticated"))
  | ping => do
    match ← lockedAuth.ping with
    | none => pure .panicked
    | some r => pure (.pinged r)
  | logout => do
    match ← lockedAuth.logout c with
    | none => pure .panicked
    | some r => pure (.loggedOut r)
  | checkAuthentication => do
    if ← isAuthenticated then
      let session ← lockedAuth.getSession
      pure (session.accessKey.elim .panicked fun accessKey => .checked (.ok accessKey))
    else pure (.checked (.error (Status.unauthenticated "Not authenticated")))
  | command => do
    acquire (.cell 0) .read
    let session ← run (.readCell 0)
    release (.cell 0)
    pure (.command session.accessKey)

def Critical (t : AuthTask) : Prop := t ≠ command

instance : DecidablePred Critical := fun t => inferInstanceAs (Decidable (t ≠ command))

def prog (c : Crates) (t : AuthTask) : LockedAuth AuthOut :=
  if t.Critical then (t.body c).exclusively .authenticator else t.body c

end AuthTask

abbrev authLocks (c : Crates) : System := locking AuthStep.exec (AuthTask.prog c)

/-! All of them take the authenticator before a cell, and no cell on top of another. -/

def AuthLock.rank : AuthLock → Nat
  | authenticator => 0
  | cell _ => 1

theorem ordered_cell (n : Nat) (m : Mode) :
    Ordered AuthLock.rank [(.authenticator, .write)] (.cell n, m) := by
  simp [Ordered, AuthLock.rank]

def lockedAuth.finish (out : AuthOut) : LockedAuth AuthOut :=
  .call (.release .authenticator) fun _ => .ret out

theorem scoped_finish (out : AuthOut) :
    Scoped (Ordered AuthLock.rank) [(.authenticator, .write)] (lockedAuth.finish out) :=
  ⟨_, _, rfl, rfl⟩

theorem AuthTask.scoped_prog (c : Crates) (t : AuthTask) :
    Scoped (Ordered AuthLock.rank) [] (t.prog c) := by
  cases t with
  | authenticate =>
    refine ⟨by simp [Ordered], fun a answer => ?_⟩
    rcases answer with _ | e | response
    · exact scoped_finish _
    · exact scoped_finish _
    · refine ⟨ordered_cell _ _, fun _ => ⟨_, _, rfl, ?_⟩⟩
      exact fun a => ⟨ordered_cell _ _, fun session => ⟨_, _, rfl, fun a =>
        ⟨ordered_cell _ _, fun current => ⟨_, _, rfl, scoped_finish _⟩⟩⟩⟩
  | ping =>
    refine ⟨by simp [Ordered], fun a => ⟨ordered_cell _ _, fun session answer => ?_⟩⟩
    refine ⟨_, _, rfl, ?_⟩
    rcases answer with _ | e | response
    · exact scoped_finish _
    · exact scoped_finish _
    · exact scoped_finish _
  | logout =>
    refine ⟨by simp [Ordered], fun a => ⟨ordered_cell _ _, fun session => ⟨_, _, rfl, ?_⟩⟩⟩
    intro answer
    rcases answer with _ | e | _
    · exact scoped_finish _
    · exact scoped_finish _
    · exact fun _ => scoped_finish _
  | checkAuthentication =>
    refine ⟨by simp [Ordered], fun a => ⟨ordered_cell _ _, fun current => ⟨_, _, rfl, ?_⟩⟩⟩
    show Scoped _ _ ((if current.isAuthenticated then _ else _) >>= lockedAuth.finish)
    split_ifs
    · exact fun a => ⟨ordered_cell _ _, fun session => ⟨_, _, rfl, scoped_finish _⟩⟩
    · exact scoped_finish _
  | command => exact ⟨by simp [Ordered], fun session => ⟨_, _, rfl, rfl⟩⟩

/-! The tasks at once. -/

def LeavesAlone {α : Type} (pr : LockedAuth α) : Prop :=
  pr.All fun op _ => LockOp.spares AuthLock.authenticator op

theorem alone_getSession : LeavesAlone lockedAuth.getSession :=
  ⟨trivial, fun _ => ⟨by simp [LockOp.spares], fun _ => ⟨trivial, fun _ =>
    ⟨by simp [LockOp.spares], fun _ => trivial⟩⟩⟩⟩

theorem alone_isAuthenticated : LeavesAlone lockedAuth.isAuthenticated :=
  Prog.all_bind alone_getSession fun _ => trivial

theorem alone_login (c : Crates) : LeavesAlone (lockedAuth.login c) := by
  refine ⟨trivial, fun a => ⟨trivial, fun answer => ?_⟩⟩
  rcases answer with _ | e | response
  · trivial
  · trivial
  · exact ⟨by simp [LockOp.spares], fun _ => ⟨trivial, fun _ =>
      ⟨by simp [LockOp.spares], fun _ => trivial⟩⟩⟩

theorem alone_logout (c : Crates) : LeavesAlone (lockedAuth.logout c) := by
  refine Prog.all_bind alone_getSession fun session => ⟨trivial, fun answer => ?_⟩
  rcases answer with _ | e | _
  · trivial
  · trivial
  · exact ⟨trivial, fun _ => trivial⟩

theorem alone_ping : LeavesAlone lockedAuth.ping := by
  refine ⟨trivial, fun a => ⟨by simp [LockOp.spares], fun _ => ⟨trivial, fun session =>
    ⟨trivial, fun answer => ⟨by simp [LockOp.spares], fun _ => ?_⟩⟩⟩⟩⟩
  rcases answer with _ | e | response
  · trivial
  · trivial
  · trivial

theorem AuthTask.alone_body (c : Crates) (t : AuthTask) : LeavesAlone (t.body c) := by
  cases t with
  | authenticate =>
    refine Prog.all_bind (alone_login c) fun r => ?_
    rcases r with _ | e | _
    · trivial
    · trivial
    · exact Prog.all_bind alone_getSession fun _ =>
        Prog.all_bind alone_isAuthenticated fun _ => trivial
  | ping =>
    refine Prog.all_bind alone_ping fun r => ?_
    cases r with
    | none => trivial
    | some r => trivial
  | logout =>
    refine Prog.all_bind (alone_logout c) fun r => ?_
    cases r with
    | none => trivial
    | some r => trivial
  | checkAuthentication =>
    refine Prog.all_bind alone_isAuthenticated fun authenticated => ?_
    split_ifs
    · exact Prog.all_bind alone_getSession fun _ => trivial
    · trivial
  | command =>
    exact ⟨by simp [LockOp.spares], fun _ => ⟨trivial, fun _ => ⟨by simp [LockOp.spares], fun _ =>
      trivial⟩⟩⟩

theorem AuthTask.exclusive_prog (c : Crates) {t : AuthTask} (ht : t.Critical) :
    Exclusive .authenticator (t.prog c) := by
  rw [prog, if_pos ht]
  exact exclusive_exclusively (t.alone_body c)

theorem AuthTask.passive_prog (c : Crates) {t : AuthTask} (ht : ¬ t.Critical) :
    (t.prog c).All fun op _ => Passive AuthStep.exec .authenticator op := by
  obtain rfl : t = .command := not_not.mp ht
  exact ⟨by simp [Passive], fun _ => ⟨fun _ _ => rfl, fun _ => ⟨by simp [Passive], fun _ =>
    trivial⟩⟩⟩

def AuthTask.atOnce (c : Crates) (answers : AuthAnswers) (s : AuthState) :
    AuthTask → AuthOut × AuthState
  | authenticate =>
    match AuthClient.login c answers.login s with
    | none => (.panicked, s)
    | some (.error _, s) => (.authenticated (.error (.text "Impossible to login")), s)
    | some (.ok (), s) =>
      (if AuthClient.isAuthenticated s then
        (AuthClient.getSession s).accessKey.elim .panicked fun accessKey =>
          .authenticated (.ok accessKey)
      else .authenticated (.error (.text "Not authenticated")), s)
  | ping =>
    match AuthClient.ping answers.ping s with
    | none => (.panicked, s)
    | some (r, s) => (.pinged r, s)
  | logout =>
    match AuthClient.logout c answers.logout s with
    | none => (.panicked, s)
    | some (r, s) => (.loggedOut r, s)
  | checkAuthentication =>
    (if AuthClient.isAuthenticated s then
      (AuthClient.getSession s).accessKey.elim .panicked fun accessKey => .checked (.ok accessKey)
    else .checked (.error (Status.unauthenticated "Not authenticated")), s)
  | command => (.command s.passed.accessKey, s)

section solo
variable {c : Crates} {s s' : AuthState} {out : AuthOut}

theorem solo_getSession {next : ClientSession → Prog AuthStep.Res AuthOut}
    (h : Solo AuthStep.exec (lockedAuth.getSession.unguarded >>= next) s (.ret out) s') :
    Solo AuthStep.exec (next s.current) s (.ret out) s' := by
  obtain ⟨c₁, h⟩ := h.of_call
  obtain ⟨c₂, h⟩ := h.of_call
  have hread := AuthStep.readCell_current c₂ s
  simp only [AuthStep.exec, Prod.mk.injEq, and_true] at hread
  simp only [AuthStep.exec, hread] at h
  exact h

theorem AuthTask.solo {t : AuthTask}
    (h : Solo AuthStep.exec (t.body c).unguarded s (.ret out) s') :
    ∃ answers, t.atOnce c answers s = (out, s') := by
  cases t with
  | authenticate =>
    obtain ⟨_, h⟩ := h.of_call
    obtain ⟨answers, h⟩ := h.of_call
    refine ⟨answers, ?_⟩
    simp only [atOnce, AuthClient.login]
    by_cases hconnected : s.auth.connected = true
    · cases hlogin : answers.login with
      | error e =>
        simp only [AuthStep.exec, hconnected, if_true, hlogin] at h ⊢
        obtain ⟨rfl, rfl⟩ := h.of_ret
        rfl
      | ok response =>
        simp only [AuthStep.exec, hconnected, if_true, hlogin] at h ⊢
        obtain ⟨_, h⟩ := h.of_call
        have hread : Solo AuthStep.exec (lockedAuth.getSession.unguarded >>= fun session =>
            lockedAuth.getSession.unguarded >>= fun current =>
              .ret (if current.isAuthenticated then
                session.accessKey.elim .panicked fun accessKey => .authenticated (.ok accessKey)
              else .authenticated (.error (.text "Not authenticated"))))
            (s.write (ClientSession.of s.auth.credentials.uid response.accessKey)) (.ret out) s' := h
        obtain ⟨rfl, rfl⟩ := (solo_getSession (solo_getSession hread)).of_ret
        rfl
    · simp only [AuthStep.exec, hconnected, Bool.false_eq_true, if_false] at h ⊢
      obtain ⟨rfl, rfl⟩ := h.of_ret
      rfl
  | ping =>
    obtain ⟨_, h⟩ := h.of_call
    obtain ⟨_, h⟩ := h.of_call
    obtain ⟨answers, h⟩ := h.of_call
    refine ⟨answers, ?_⟩
    simp only [atOnce, AuthClient.ping]
    by_cases hconnected : s.auth.connected = true
    · cases hping : answers.ping with
      | error e =>
        simp only [AuthStep.exec, hconnected, if_true, hping] at h ⊢
        obtain ⟨rfl, rfl⟩ := h.of_ret
        rfl
      | ok response =>
        simp only [AuthStep.exec, hconnected, if_true, hping] at h ⊢
        obtain ⟨rfl, rfl⟩ := h.of_ret
        rfl
    · simp only [AuthStep.exec, hconnected, Bool.false_eq_true, if_false] at h ⊢
      obtain ⟨rfl, rfl⟩ := h.of_ret
      rfl
  | logout =>
    obtain ⟨_, h⟩ := h.of_call
    obtain ⟨_, h⟩ := h.of_call
    obtain ⟨answers, h⟩ := h.of_call
    refine ⟨answers, ?_⟩
    simp only [atOnce, AuthClient.logout]
    by_cases hconnected : s.auth.connected = true
    · cases hlogout : answers.logout with
      | error e =>
        simp only [AuthStep.exec, hconnected, if_true, hlogout] at h ⊢
        obtain ⟨rfl, rfl⟩ := h.of_ret
        rfl
      | ok _ =>
        simp only [AuthStep.exec, hconnected, if_true, hlogout] at h ⊢
        obtain ⟨_, h⟩ := h.of_call
        obtain ⟨rfl, rfl⟩ := h.of_ret
        rfl
    · simp only [AuthStep.exec, hconnected, Bool.false_eq_true, if_false] at h ⊢
      obtain ⟨rfl, rfl⟩ := h.of_ret
      rfl
  | checkAuthentication =>
    have hread : Solo AuthStep.exec (lockedAuth.getSession.unguarded >>= fun current =>
        (if current.isAuthenticated then lockedAuth.getSession >>= fun session =>
          .ret (session.accessKey.elim .panicked fun accessKey => .checked (.ok accessKey))
        else .ret (.checked (.error (Status.unauthenticated "Not authenticated")))).unguarded)
        s (.ret out) s' := h
    have hrest := solo_getSession hread
    refine ⟨⟨.error .panic, .error .panic, .error .panic⟩, ?_⟩
    by_cases hauthenticated : s.current.isAuthenticated = true
    · rw [if_pos hauthenticated, unguarded_bind] at hrest
      obtain ⟨rfl, rfl⟩ := (solo_getSession hrest).of_ret
      exact Prod.ext (if_pos hauthenticated) rfl
    · rw [if_neg hauthenticated] at hrest
      obtain ⟨rfl, rfl⟩ := hrest.of_ret
      exact Prod.ext (if_neg hauthenticated) rfl
  | command =>
    obtain ⟨answers, h⟩ := h.of_call
    obtain ⟨rfl, rfl⟩ := h.of_ret
    have hcell : 0 < s'.cells.length := Nat.zero_lt_of_lt s'.refers
    refine ⟨answers, ?_⟩
    simp [atOnce, AuthStep.exec, AuthState.passed, hcell]

end solo

inductive InTurn (c : Crates) (s₀ : AuthState) :
    List (Nat × AuthTask × AuthOut) → AuthState → Prop
  | start : InTurn c s₀ [] s₀
  | call {order : List (Nat × AuthTask × AuthOut)} {s : AuthState} (h : InTurn c s₀ order s)
      (i : Nat) (t : AuthTask) (answers : AuthAnswers) :
      InTurn c s₀ ((i, t, (t.atOnce c answers s).1) :: order) (t.atOnce c answers s).2

theorem inTurn_of_oneByOne {c : Crates} {s₀ s : AuthState}
    {order : List (Nat × AuthTask × AuthOut)}
    (h : OneByOne AuthStep.exec (fun t => (AuthTask.prog c t).unguarded) s₀ order s) :
    InTurn c s₀ order s := by
  induction h with
  | start => exact .start
  | @call order s s' t out _ i hj ih =>
    have hprog : (t.prog c).unguarded = (t.body c).unguarded := by
      rw [AuthTask.prog]
      split_ifs
      · exact unguarded_exclusively _ _
      · rfl
    rw [hprog] at hj
    obtain ⟨answers, hat⟩ := AuthTask.solo hj
    have hcall := ih.call i t answers
    rw [hat] at hcall
    exact hcall

/-! The key after the tasks. -/

def AuthOut.key? : AuthOut → Option (Option String)
  | authenticated (.ok accessKey) => some (some accessKey)
  | loggedOut (.ok ()) => some none
  | _ => none

def keyAfter (order : List (Nat × AuthTask × AuthOut)) : Option String :=
  (order.findSome? fun x => x.2.2.key?).getD none

theorem keyAfter_cons (i : Nat) (t : AuthTask) (out : AuthOut)
    (order : List (Nat × AuthTask × AuthOut)) :
    keyAfter ((i, t, out) :: order) = out.key?.getD (keyAfter order) := by
  rw [keyAfter, List.findSome?_cons]
  cases out.key? with
  | none => rfl
  | some k => rfl

def checkedKey : Option String → AuthOut
  | some accessKey => .checked (.ok accessKey)
  | none => .checked (.error (Status.unauthenticated "Not authenticated"))

/-- Nobody panics, and each check finds the key that the latest login before it was given, unless
that has been taken back. -/
def KeysFound (order : List (Nat × AuthTask × AuthOut)) : Prop :=
  ∀ after i t out before, order = after ++ (i, t, out) :: before →
    out ≠ .panicked ∧ (t = .checkAuthentication → out = checkedKey (keyAfter before))

structure Current (order : List (Nat × AuthTask × AuthOut)) (s : AuthState) : Prop where
  connected : s.auth.connected = true
  key : s.current.accessKey = keyAfter order
  authenticated : s.current.isAuthenticated = s.current.accessKey.isSome

theorem Current.same {order : List (Nat × AuthTask × AuthOut)} {s : AuthState}
    (h : Current order s) (i : Nat) (t : AuthTask) {out : AuthOut} (hout : out.key? = none) :
    Current ((i, t, out) :: order) s where
  connected := h.connected
  key := by rw [keyAfter_cons, hout, h.key, Option.getD_none]
  authenticated := h.authenticated

section atOnce
variable {c : Crates} {order : List (Nat × AuthTask × AuthOut)} {s : AuthState}
  (h : Current order s)
include h

theorem atOnce_authenticate (i : Nat) (answers : AuthAnswers) :
    Current ((i, .authenticate, (AuthTask.authenticate.atOnce c answers s).1) :: order)
        (AuthTask.authenticate.atOnce c answers s).2 ∧
      (AuthTask.authenticate.atOnce c answers s).1 ≠ .panicked := by
  cases hlogin : answers.login with
  | error e =>
    have hat : AuthTask.authenticate.atOnce c answers s =
        (.authenticated (.error (.text "Impossible to login")), s) := by
      simp [AuthTask.atOnce, AuthClient.login, h.connected, hlogin]
    rw [hat]
    exact ⟨h.same i _ rfl, by simp⟩
  | ok response =>
    let session := ClientSession.of s.auth.credentials.uid response.accessKey
    have hcurrent : (s.write session).current = session := AuthState.current_write s session
    have hat : AuthTask.authenticate.atOnce c answers s =
        (.authenticated (.ok response.accessKey), s.write session) := by
      simp [AuthTask.atOnce, AuthClient.login, h.connected, hlogin, AuthClient.isAuthenticated,
        AuthClient.getSession, session, ClientSession.of, ClientSession.isAuthenticated]
    rw [hat]
    refine ⟨⟨h.connected, ?_, ?_⟩, by simp⟩
    · rw [hcurrent, keyAfter_cons]
      rfl
    · rw [hcurrent]
      rfl

theorem atOnce_logout (i : Nat) (answers : AuthAnswers) :
    Current ((i, .logout, (AuthTask.logout.atOnce c answers s).1) :: order)
        (AuthTask.logout.atOnce c answers s).2 ∧
      (AuthTask.logout.atOnce c answers s).1 ≠ .panicked := by
  simp only [AuthTask.atOnce, AuthClient.logout, h.connected, if_true]
  cases answers.logout with
  | error e => exact ⟨h.same i _ rfl, by simp⟩
  | ok _ =>
    have hcurrent : (s.replace ClientSession.blank).current = ClientSession.blank :=
      AuthState.current_replace s _
    refine ⟨⟨h.connected, ?_, ?_⟩, by simp⟩
    · rw [hcurrent, keyAfter_cons]
      rfl
    · rw [hcurrent]
      rfl

theorem atOnce_check (answers : AuthAnswers) :
    (AuthTask.checkAuthentication.atOnce c answers s).1 = checkedKey (keyAfter order) := by
  simp only [AuthTask.atOnce, AuthClient.isAuthenticated, AuthClient.getSession, h.authenticated,
    h.key]
  cases keyAfter order with
  | none => rfl
  | some accessKey => rfl

theorem atOnce_current (i : Nat) (t : AuthTask) (answers : AuthAnswers) :
    Current ((i, t, (t.atOnce c answers s).1) :: order) (t.atOnce c answers s).2 ∧
      (t.atOnce c answers s).1 ≠ .panicked ∧
      (t = .checkAuthentication → (t.atOnce c answers s).1 = checkedKey (keyAfter order)) := by
  cases t with
  | authenticate =>
    obtain ⟨hcurrent, hout⟩ := atOnce_authenticate (c := c) h i answers
    exact ⟨hcurrent, hout, fun ht => by contradiction⟩
  | ping =>
    simp only [AuthTask.atOnce, AuthClient.ping, h.connected, if_true]
    cases answers.ping with
    | error e => exact ⟨h.same i _ rfl, by simp, fun ht => by contradiction⟩
    | ok response => exact ⟨h.same i _ rfl, by simp, fun ht => by contradiction⟩
  | logout =>
    obtain ⟨hcurrent, hout⟩ := atOnce_logout (c := c) h i answers
    exact ⟨hcurrent, hout, fun ht => by contradiction⟩
  | checkAuthentication =>
    have hout := atOnce_check (c := c) h answers
    rw [hout]
    refine ⟨h.same i _ ?_, ?_, fun _ => rfl⟩
    · cases keyAfter order <;> rfl
    · cases keyAfter order <;> simp [checkedKey]
  | command => exact ⟨h.same i _ rfl, by simp [AuthTask.atOnce], fun ht => by contradiction⟩

end atOnce

theorem InTurn.current {c : Crates} {s₀ s : AuthState} {order : List (Nat × AuthTask × AuthOut)}
    (h0 : Current [] s₀) (h : InTurn c s₀ order s) : Current order s ∧ KeysFound order := by
  induction h with
  | start =>
    refine ⟨h0, fun after i t out before he => ?_⟩
    cases after <;> contradiction
  | call _ i t answers ih =>
    obtain ⟨hcurrent, hfound⟩ := ih
    obtain ⟨hnext, hout, hcheck⟩ := atOnce_current (c := c) hcurrent i t answers
    refine ⟨hnext, fun after i' t' out' before he => ?_⟩
    cases after with
    | nil =>
      obtain ⟨hx, rfl⟩ := List.cons.inj he
      cases hx
      exact ⟨hout, hcheck⟩
    | cons x after => exact hfound after i' t' out' before (List.cons.inj he).2

/-- The tasks that have come to an end, in an order in which each could have been carried out at
once. -/
structure AuthOrder (c : Crates) (s₀ : AuthState) (p : Pool (authLocks c))
    (order : List (Nat × AuthTask × AuthOut)) (s : AuthState) : Prop where
  serial : InTurn c s₀ order s
  nodup : (order.map Prod.fst).Nodup
  returned : ∀ i t out, (i, t, out) ∈ order ↔ t.Critical ∧ p.tasks[i]? = some (t, .ret out)
  state : guardsOn p.state.held .authenticator = [] → p.state.data = s

/-- However the handler's tasks, the requests a proxy serves and the commands of a client are
interleaved, none of them waits for ever, and those that go through the authenticator do so one after
the other. -/
theorem authenticator_in_turn (c : Crates) (credentials : Credentials)
    (settings : ConnectionSettings) (componentType : Component) {p : Pool (authLocks c)}
    (hp : Reachable (S := authLocks c)
      ⟨[], (AuthHandler.start credentials settings componentType).auth⟩ p) :
    DeadlockFree p ∧ ∃ order s, KeysFound order ∧
      AuthOrder c (AuthHandler.start credentials settings componentType).auth p order s := by
  constructor
  · have : Nonempty AuthAnswers := ⟨⟨.error .panic, .error .panic, .error .panic⟩⟩
    exact deadlockFree_of_ordered (AuthTask.scoped_prog c) rfl hp
  · obtain ⟨order, s, h⟩ := hp.in_order (fun _ ht => AuthTask.exclusive_prog c ht)
      fun _ ht => AuthTask.passive_prog c ht
    have hserial := inTurn_of_oneByOne h.serial
    refine ⟨order, s, (hserial.current ⟨rfl, rfl, rfl⟩).2, hserial, h.nodup, h.returned, ?_⟩
    intro hfree
    cases h.turn with
    | free _ hdata _ => exact hdata
    | taken _ _ _ hguards _ _ _ _ _ =>
      rw [hfree] at hguards
      contradiction

def plainCrates : Crates := ⟨fun _ => none, fun _ => "", fun _ => ""⟩

theorem authenticator_in_turn_sample : ∃ p : Pool (authLocks plainCrates),
    p.tasks.map (fun t => t.2.result?) = [some (.authenticated (.ok "k-north")),
      some (.checked (.ok "k-north")), none] ∧
    DeadlockFree p ∧ ∃ order s, KeysFound order ∧ AuthOrder plainCrates
      (AuthHandler.start ⟨"north", "north"⟩ ⟨"10.0.0.1", 50051, "north", [1]⟩ .proxy).auth p order s := by
  let answers : AuthAnswers := ⟨.ok ⟨"k-north", "Login successful"⟩, .error .panic, .ok ()⟩
  obtain ⟨p, hrun, hends⟩ : ∃ p, (Pool.start ⟨[], (AuthHandler.start ⟨"north", "north"⟩
      ⟨"10.0.0.1", 50051, "north", [1]⟩ .proxy).auth⟩ : Pool (authLocks plainCrates)).run
        (.spawn .authenticate :: List.replicate 15 (.act 0 answers) ++
          .spawn .checkAuthentication :: List.replicate 10 (.act 1 answers) ++
            .spawn .logout :: List.replicate 3 (.act 2 answers)) = some p ∧
      p.tasks.map (fun t => t.2.result?) = [some (.authenticated (.ok "k-north")),
        some (.checked (.ok "k-north")), none] := exists_run (by decide +kernel)
  exact ⟨p, hends, authenticator_in_turn plainCrates _ _ _ (Reachable.of_run hrun)⟩

end FuzzyChat
