import FuzzyChat.Controller.Upheld
import FuzzyChat.Peers.AuthHandler
import FuzzyChat.Peers.EndToEnd

/-! A component that keeps itself logged in by pings, at a controller that lets sessions expire. -/

namespace FuzzyChat
open Interleave

def PING_INTERVAL : Nat := 5000

def AUTH_DELAY : Nat := 1000

def getNextPingDuration (lastPing now : Nat) : Nat :=
  let elapsed := now - lastPing
  if PING_INTERVAL ≤ elapsed then 0 else PING_INTERVAL - elapsed

theorem le_getNextPingDuration {lastPing now : Nat} (h : lastPing ≤ now) :
    lastPing + PING_INTERVAL ≤ now + getNextPingDuration lastPing now := by
  unfold getNextPingDuration
  dsimp only
  split_ifs
  · omega
  · omega

namespace Reply

def login? : Reply → Option LoginResponse
  | .login r => some r
  | _ => none

def ping? : Reply → Option PingResponse
  | .ping r => some r
  | _ => none

def logout? : Reply → Option Unit
  | .logout => some ()
  | _ => none

end Reply

def AuthTurn.heard (a : Except Abort Reply) : AuthTurn where
  cancel := false
  login := answer Reply.login? a
  ping := answer Reply.ping? a
  logout := answer Reply.logout? a

namespace AuthHandler

def calling (h : AuthHandler) : Bool :=
  h.position = .authenticating ∨ h.position = .pinging ∨ h.position = .leaving

/-- The call the handler is about to make, over a connection from `addr`. -/
def request? (addr : SocketAddr) (h : AuthHandler) : Option Request :=
  match h.position with
  | .authenticating => some (.login (some addr) h.auth.auth.loginRequest)
  | .pinging => some (.ping (some addr) (AuthClient.pingRequest h.auth))
  | .leaving => some (.logout (AuthClient.logoutRequest h.auth))
  | _ => none

/-- The session the handler believes to have is what its login has announced. -/
structure Holds (addr : SocketAddr) (h : AuthHandler) (info : SessionInfo) : Prop where
  announced : (⟨.login (some addr) h.auth.auth.loginRequest, info.accessKey⟩ : Job).session? =
    some info
  current : h.auth.current = ClientSession.of info.uid info.accessKey

theorem Holds.eq {addr : SocketAddr} {h : AuthHandler} {info info' : SessionInfo}
    (hi : h.Holds addr info) (hi' : h.Holds addr info') : info = info' := by
  have hsame : ClientSession.of info.uid info.accessKey =
      ClientSession.of info'.uid info'.accessKey := hi.current.symm.trans hi'.current
  have hkey : info.accessKey = info'.accessKey :=
    Option.some.inj (congrArg ClientSession.accessKey hsame)
  have hannounced := hi.announced
  rw [hkey, hi'.announced] at hannounced
  exact (Option.some.inj hannounced).symm

section advance
variable {c : Crates} {h : AuthHandler} {t : AuthTurn}

theorem advance_outer (hpos : h.position = .outer) :
    h.advance c t = { h with position := if h.cancelled then .leaving else .authenticating } := by
  unfold advance
  rw [hpos]

theorem advance_inner (hpos : h.position = .inner) :
    h.advance c t = { h with position := if h.cancelled then .leaving else .pinging } := by
  unfold advance
  rw [hpos]

variable (hconnected : h.auth.auth.connected = true)
include hconnected

theorem advance_refused (hpos : h.position = .authenticating) {e : Abort}
    (ht : t.login = .error e) :
    h.advance c t = h.call (.login h.auth.auth.loginRequest (.error e)) h.auth .outer := by
  simp [advance, hpos, AuthClient.login, hconnected, ht]

theorem advance_admitted (hpos : h.position = .authenticating) {response : LoginResponse}
    (ht : t.login = .ok response) :
    h.advance c t = h.call (.login h.auth.auth.loginRequest (.ok response))
      (h.auth.write (ClientSession.of h.auth.auth.credentials.uid response.accessKey))
      .checking := by
  simp [advance, hpos, AuthClient.login, hconnected, ht]

theorem advance_rejected (hpos : h.position = .pinging) {e : Abort} (ht : t.ping = .error e) :
    h.advance c t = h.call (.ping (AuthClient.pingRequest h.auth) (.error e)) h.auth .outer := by
  simp [advance, hpos, AuthClient.ping, hconnected, ht]

theorem advance_ponged (hpos : h.position = .pinging) {response : PingResponse}
    (ht : t.ping = .ok response) :
    h.advance c t = h.call (.ping (AuthClient.pingRequest h.auth) (.ok response)) h.auth
      .inner := by
  simp [advance, hpos, AuthClient.ping, hconnected, ht]

theorem advance_leaving (hpos : h.position = .leaving) :
    ∃ a s, h.advance c t = h.call (.logout (AuthClient.logoutRequest h.auth) a) s .ended := by
  cases ht : t.logout with
  | error e => exact ⟨.error e, h.auth, by simp [advance, hpos, AuthClient.logout, hconnected, ht]⟩
  | ok _ =>
    exact ⟨.ok (), h.auth.replace ClientSession.blank,
      by simp [advance, hpos, AuthClient.logout, hconnected, ht]⟩

omit hconnected in
theorem advance_checking (hpos : h.position = .checking) {uid k : String}
    (hcurrent : h.auth.current = ClientSession.of uid k) :
    h.advance c t = (h.call .getSession h.auth .checking).call .isAuthenticated h.auth .inner := by
  simp [advance, hpos, AuthClient.isAuthenticated, AuthClient.getSession, call,
    ClientSession.isAuthenticated, ClientSession.of, hcurrent]

end advance
end AuthHandler

/-- A handler and the controller, with whatever else is asked of it. `waiting` is the task of the
call under way, `sentAt` and `sentFrom` when and from where it was sent, `loginFrom` from where the
last login was, and `wakeAt` the end of a pause. -/
structure Upkeep where
  handler : AuthHandler
  pool : ControllerPool
  waiting : Option Nat
  sentAt : Nat
  sentFrom : SocketAddr
  loginFrom : SocketAddr
  lastPing : Nat
  wakeAt : Nat

inductive UpkeepMove where
  | controller (m : ControllerMove)
  | cancel
  | go
  | send (id : String) (addr : SocketAddr)
  | hear
  | lose (s : Status)

namespace Upkeep

def now (u : Upkeep) : Nat := u.pool.state.now

def start (pool : ControllerPool) (credentials : Credentials) (settings : ConnectionSettings)
    (componentType : Component) : Upkeep where
  handler := AuthHandler.start credentials settings componentType
  pool := pool
  waiting := none
  sentAt := pool.state.now
  sentFrom := ⟨"", 0⟩
  loginFrom := ⟨"", 0⟩
  lastPing := pool.state.now
  wakeAt := pool.state.now

/-- The handler goes on. It pauses before a ping, and after it could not log in. -/
def proceed (c : Crates) (t : AuthTurn) (u : Upkeep) : Upkeep :=
  let handler := u.handler.advance c t
  { u with
    handler := handler
    waiting := none
    lastPing := if handler.position = .inner then u.now else u.lastPing
    wakeAt := match u.handler.position, handler.position with
      | .inner, .pinging => u.now + getNextPingDuration u.lastPing u.now
      | .authenticating, .outer | .checking, .outer => u.now + AUTH_DELAY
      | _, _ => u.wakeAt }

def sending (addr : SocketAddr) (q : ControllerPool) (u : Upkeep) : Upkeep :=
  { u with
    pool := q
    waiting := some u.pool.tasks.length
    sentAt := u.now
    sentFrom := addr
    loginFrom := if u.handler.position = .authenticating then addr else u.loginFrom }

/-- The controller moves, by this component's requests or those of others; the handler is cancelled,
goes on without a call, sends one, hears of it, or has it fail on the way. -/
def step (c : Crates) (u : Upkeep) : UpkeepMove → Option Upkeep
  | .controller m => (u.pool.step m).map fun p => { u with pool := p }
  | .cancel => some { u with handler := { u.handler with cancelled := true } }
  | .go =>
    if u.handler.calling = false ∧ u.wakeAt ≤ u.now then
      some (u.proceed c (.heard (.error .panic)))
    else none
  | .send id addr =>
    if u.waiting = none ∧ u.wakeAt ≤ u.now then
      (u.handler.request? addr).bind fun r => (u.pool.step (.spawn ⟨r, id⟩)).map (u.sending addr)
    else none
  | .hear => (u.waiting.bind u.pool.returned).map fun x => u.proceed c (.heard x.2)
  | .lose s =>
    if u.handler.calling = true ∧ u.wakeAt ≤ u.now then
      some (u.proceed c (.heard (.error (.status s))))
    else none

/-- No call takes longer than `d`: a login until the handler goes on to keep the session alive, a
ping from the moment it is due. -/
def OnTime (d : Nat) (u : Upkeep) : Prop :=
  match u.handler.position with
  | .authenticating => u.waiting ≠ none → u.now ≤ u.sentAt + d
  | .checking => u.now ≤ u.sentAt + d
  | .inner | .pinging => u.now ≤ u.lastPing + PING_INTERVAL + d
  | _ => True

/-- Nobody logs out with the key of the session that is kept alive. -/
def Private (u : Upkeep) : Prop :=
  u.handler.position.loggedIn = true → ∀ k ∈ u.handler.auth.current.accessKey,
    ∀ j ∈ u.pool.hist.jobs, j.request ≠ .logout ⟨k⟩

/-- A ping comes from where the login came from: the connection has not been replaced by another
since. -/
def Steady (u : Upkeep) : Prop :=
  u.handler.position = .pinging → u.waiting ≠ none → u.sentFrom = u.loginFrom

def Calm (d : Nat) (u : Upkeep) : Prop := u.OnTime d ∧ u.Private ∧ u.Steady

instance (d : Nat) : DecidablePred (Calm d) := fun u =>
  have : Decidable (u.OnTime d) := by
    unfold OnTime
    split <;> infer_instance
  have : Decidable u.Private := by
    unfold Private
    infer_instance
  have : Decidable u.Steady := by
    unfold Steady
    infer_instance
  inferInstanceAs (Decidable (u.OnTime d ∧ u.Private ∧ u.Steady))

def since (d : Nat) (u : Upkeep) : Nat :=
  if u.handler.position = .checking then u.sentAt else u.lastPing - d

structure Sound (members : Table String Member) (d : Nat) (u : Upkeep) : Prop where
  running : u.handler.Running
  reach : Reachable (Storage.start members) u.pool
  sent : u.sentAt ≤ u.now
  pinged : u.lastPing ≤ u.now
  login : u.handler.position = .authenticating → ∀ i, u.waiting = some i →
    ∃ id,
      u.pool.hist.jobs[i]? = some ⟨.login (some u.loginFrom) u.handler.auth.auth.loginRequest, id⟩ ∧
      ∀ info, (⟨.login (some u.loginFrom) u.handler.auth.auth.loginRequest, id⟩ : Job).session? =
        some info → Guarded u.pool info u.sentAt
  kept : u.handler.position.loggedIn = true →
    ∃ info, u.handler.Holds u.loginFrom info ∧ Upheld u.pool info (u.since d)
  due : u.handler.position = .pinging → u.lastPing + PING_INTERVAL ≤ u.wakeAt
  ping : u.handler.position = .pinging → ∀ i, u.waiting = some i →
    u.lastPing + PING_INTERVAL ≤ u.now ∧ ∀ info, u.handler.Holds u.loginFrom info →
      ∃ pr, Pings u.pool info (u.lastPing + PING_INTERVAL) i pr

end Upkeep

theorem session?_login {addr : SocketAddr} {r : LoginRequest} {k : String} {info : SessionInfo}
    (h : (⟨.login (some addr) r, k⟩ : Job).session? = some info) :
    info.accessKey = k ∧ info.uid = r.uid ∧ info.clientIp = addr := by
  obtain ⟨-, h⟩ := Option.ite_none_left_eq_some.mp h
  obtain ⟨c, -, rfl⟩ := Option.map_eq_some_iff.mp h
  exact ⟨rfl, rfl, rfl⟩

/-! What each move keeps. -/

namespace Upkeep

theorem Private.not_sent {u : Upkeep} (h : u.Private) (hin : u.handler.position.loggedIn = true)
    {addr : SocketAddr} {info : SessionInfo} (hi : u.handler.Holds addr info) :
    ¬ LogoutSent u.pool info.accessKey := by
  rintro ⟨j, hj, hlogout⟩
  refine h hin info.accessKey ?_ j hj hlogout
  rw [hi.current]
  rfl

section sound
variable {members : Table String Member} {d : Nat}
  (hd : PING_INTERVAL + 2 * d ≤ SESSIONS_EXPIRATION_TIME)

include hd in
theorem OnTime.le_since {u : Upkeep} (h : u.OnTime d) (hin : u.handler.position.loggedIn = true) :
    u.now ≤ u.since d + SESSIONS_EXPIRATION_TIME := by
  unfold OnTime at h
  unfold since
  cases hpos : u.handler.position with
  | checking =>
    rw [hpos] at h
    simp only [if_true]
    omega
  | inner | pinging =>
    rw [hpos] at h
    simp only [reduceCtorEq, if_false]
    omega
  | _ =>
    rw [hpos] at hin
    cases hin

theorem now_le_step {p q : ControllerPool} {m : ControllerMove} (hq : p.step m = some q) :
    p.state.now ≤ q.state.now := by
  rcases controller_step hq with ⟨j, -, rfl⟩ | ⟨i, c, j, op, k, -, -, rfl⟩
  · exact Nat.le_refl _
  · show p.state.now ≤ (p.state.step c op).2.now
    rw [Storage.now_step]
    exact Nat.le_add_right _ _

theorem Sound.start {p : ControllerPool} (hp : Reachable (Storage.start members) p)
    (credentials : Credentials) (settings : ConnectionSettings) (componentType : Component) :
    Sound members d (start p credentials settings componentType) where
  running := AuthHandler.Running.start credentials settings componentType
  reach := hp
  sent := Nat.le_refl _
  pinged := Nat.le_refl _
  login hpos := by cases hpos
  kept hin := by cases hin
  due hpos := by cases hpos
  ping hpos := by cases hpos

include hd in
theorem Sound.controller {u : Upkeep} (hs : Sound members d u) {m : ControllerMove}
    {q : ControllerPool} (hq : u.pool.step m = some q) (hcalm : Calm d { u with pool := q }) :
    Sound members d { u with pool := q } := by
  obtain ⟨hontime, hprivate, -⟩ := hcalm
  have hnow := now_le_step hq
  constructor
  case running => exact hs.running
  case reach => exact hs.reach.step trivial hq
  case sent => exact hs.sent.trans hnow
  case pinged => exact hs.pinged.trans hnow
  case due => exact hs.due
  case login =>
    intro hpos i hi
    obtain ⟨id, hj, hguarded⟩ := hs.login hpos i hi
    refine ⟨id, (Pool.before_step hq).job hj, fun info hinfo => ?_⟩
    have hlate : q.state.now ≤ u.sentAt + d := by
      have hpos' : u.handler.position = .authenticating := hpos
      unfold OnTime at hontime
      simp only [hpos'] at hontime
      exact hontime fun hnone => by cases hi.symm.trans hnone
    exact (hguarded info hinfo).step hs.reach hq ⟨_, List.mem_of_getElem? hj, hinfo⟩ hs.sent
      (by omega)
  case kept =>
    intro hin
    obtain ⟨info, hi, hu⟩ := hs.kept hin
    exact ⟨info, hi, hu.step hs.reach hq (hprivate.not_sent hin hi) (hontime.le_since hd hin)⟩
  case ping =>
    intro hpos i hi
    have hin : u.handler.position.loggedIn = true := by
      rw [show u.handler.position = .pinging from hpos]
      rfl
    obtain ⟨hdue, hpings⟩ := hs.ping hpos i hi
    refine ⟨hdue.trans hnow, fun info hinfo => ?_⟩
    obtain ⟨pr, hpr⟩ := hpings info hinfo
    obtain ⟨info', hinfo', hu⟩ := hs.kept hin
    obtain rfl : info' = info := AuthHandler.Holds.eq hinfo' hinfo
    have hlate : q.state.now ≤ u.lastPing + PING_INTERVAL + d := by
      have hpos' : u.handler.position = .pinging := hpos
      unfold OnTime at hontime
      simp only [hpos'] at hontime
      exact hontime
    exact hpr.step hs.reach hq hu hdue (hprivate.not_sent hin hinfo) (by omega)

theorem Sound.proceed {c : Crates} {u : Upkeep} (hs : Sound members d u) {t : AuthTurn}
    {h' : AuthHandler} (hadv : u.handler.advance c t = h')
    (hkept : h'.position.loggedIn = true →
      ∃ info, h'.Holds u.loginFrom info ∧ Upheld u.pool info ((u.proceed c t).since d))
    (hdue : h'.position = .pinging → u.handler.position = .inner) :
    Sound members d (u.proceed c t) := by
  subst hadv
  constructor
  case running => exact hs.running.advance t
  case reach => exact hs.reach
  case sent => exact hs.sent
  case pinged =>
    unfold Upkeep.proceed
    dsimp only
    split_ifs
    · exact Nat.le_refl _
    · exact hs.pinged
  case login =>
    intro _ i hi
    cases hi
  case kept => exact hkept
  case due =>
    intro hpos
    have hpos' : (u.handler.advance c t).position = .pinging := hpos
    simp only [Upkeep.proceed, hpos', hdue hpos', reduceCtorEq, if_false]
    exact le_getNextPingDuration hs.pinged
  case ping =>
    intro _ i hi
    cases hi

theorem Sound.unlogged {c : Crates} {u : Upkeep} (hs : Sound members d u) {t : AuthTurn}
    {h' : AuthHandler} (hadv : u.handler.advance c t = h') (hout : h'.position.loggedIn = false) :
    Sound members d (u.proceed c t) := by
  apply hs.proceed hadv
  · intro hin
    rw [hout] at hin
    cases hin
  · intro hpos
    rw [hpos] at hout
    cases hout

theorem Sound.cancel {u : Upkeep} (hs : Sound members d u) :
    Sound members d { u with handler := { u.handler with cancelled := true } } := by
  have hrunning := hs.running.hear { AuthTurn.heard (.error .panic) with cancel := true }
  rw [AuthHandler.hear, Bool.or_true] at hrunning
  constructor
  case running => exact hrunning
  case reach => exact hs.reach
  case sent => exact hs.sent
  case pinged => exact hs.pinged
  case login => exact hs.login
  case due => exact hs.due
  case kept =>
    intro hin
    obtain ⟨info, hi, hu⟩ := hs.kept hin
    exact ⟨info, ⟨hi.announced, hi.current⟩, hu⟩
  case ping =>
    intro hpos i hi
    obtain ⟨hdue, hpings⟩ := hs.ping hpos i hi
    exact ⟨hdue, fun info hinfo => hpings info ⟨hinfo.announced, hinfo.current⟩⟩

theorem Sound.send {u : Upkeep} (hs : Sound members d u) {r : Request} {id : String}
    {addr : SocketAddr} {q : ControllerPool} (hwake : u.wakeAt ≤ u.now)
    (hr : u.handler.request? addr = some r) (hq : u.pool.step (.spawn ⟨r, id⟩) = some q)
    (hsteady : (u.sending addr q).Steady) : Sound members d (u.sending addr q) := by
  obtain ⟨hadmits, haccept⟩ := Option.ite_none_right_eq_some.mp hq
  obtain rfl := Option.some.inj haccept
  have hreach : Reachable (Storage.start members) (u.pool.accept ⟨r, id⟩) :=
    hs.reach.step trivial hq
  have hfrom : u.handler.position ≠ .authenticating →
      (u.sending addr (u.pool.accept ⟨r, id⟩)).loginFrom = u.loginFrom := fun hpos => if_neg hpos
  constructor
  case running => exact hs.running
  case reach => exact hreach
  case sent => exact Nat.le_refl _
  case pinged => exact hs.pinged
  case due => exact hs.due
  case login =>
    intro hpos i hi
    have hpos' : u.handler.position = .authenticating := hpos
    have hlogin : (u.sending addr (u.pool.accept ⟨r, id⟩)).loginFrom = addr := if_pos hpos'
    obtain rfl : u.pool.tasks.length = i := Option.some.inj hi
    unfold AuthHandler.request? at hr
    rw [hpos'] at hr
    obtain rfl := Option.some.inj hr
    rw [hlogin]
    refine ⟨id, ?_, fun info hinfo => guarded_accept hs.reach hadmits hinfo _⟩
    simp [Upkeep.sending, Pool.hist, Pool.accept]
  case kept =>
    intro hin
    have hin' : u.handler.position.loggedIn = true := hin
    obtain ⟨info, hi, hu⟩ := hs.kept hin'
    rw [hfrom fun hpos => by rw [hpos] at hin'; cases hin']
    refine ⟨info, hi, ?_⟩
    -- nothing is sent while the answer of the login is looked at
    have hne : u.handler.position ≠ .checking := fun hpos => by
      unfold AuthHandler.request? at hr
      rw [hpos] at hr
      cases hr
    unfold since at hu ⊢
    rw [if_neg hne] at hu
    rw [if_neg (show (u.sending addr _).handler.position ≠ .checking from hne)]
    exact hu
  case ping =>
    intro hpos i hi
    have hpos' : u.handler.position = .pinging := hpos
    obtain rfl : u.pool.tasks.length = i := Option.some.inj hi
    have hsame : addr = (u.sending addr (u.pool.accept ⟨r, id⟩)).loginFrom :=
      hsteady hpos (Option.some_ne_none _)
    refine ⟨(hs.due hpos').trans hwake, fun info hinfo => ?_⟩
    have hrequest : AuthClient.pingRequest u.handler.auth = ⟨info.accessKey⟩ := by
      rw [AuthClient.pingRequest, show u.handler.auth.current = _ from hinfo.current]
      rfl
    obtain ⟨-, -, haddr⟩ := session?_login hinfo.announced
    unfold AuthHandler.request? at hr
    rw [hpos', hrequest, hsame, ← haddr] at hr
    obtain rfl := Option.some.inj hr
    exact pings_accept _ id

theorem Sound.onward {c : Crates} {u : Upkeep} (hs : Sound members d u) (t : AuthTurn)
    (hontime : u.OnTime d) (hlogin : u.handler.position ≠ .authenticating)
    (hping : u.handler.position ≠ .pinging) : Sound members d (u.proceed c t) := by
  cases hpos : u.handler.position with
  | outer =>
    have hadv := AuthHandler.advance_outer (c := c) (t := t) hpos
    refine hs.unlogged hadv ?_
    cases u.handler.cancelled <;> rfl
  | authenticating => exact absurd hpos hlogin
  | checking =>
    obtain ⟨info, hi, hu⟩ := hs.kept (by rw [hpos]; rfl)
    have hadv := AuthHandler.advance_checking (c := c) (t := t) hpos hi.current
    refine hs.proceed hadv (fun _ => ⟨info, ⟨hi.announced, hi.current⟩, hu.mono ?_⟩) fun hne => ?_
    · unfold OnTime at hontime
      rw [hpos] at hontime
      simp only [Upkeep.since, Upkeep.proceed, hadv, hpos, AuthHandler.call, reduceCtorEq, if_false,
        if_true]
      omega
    · cases hne
  | inner =>
    obtain ⟨info, hi, hu⟩ := hs.kept (by rw [hpos]; rfl)
    have hadv := AuthHandler.advance_inner (c := c) (t := t) hpos
    refine hs.proceed hadv (fun hin => ⟨info, ⟨hi.announced, hi.current⟩, hu.mono ?_⟩)
      fun _ => hpos
    cases hcancelled : u.handler.cancelled with
    | true =>
      rw [hcancelled] at hin
      cases hin
    | false => simp [Upkeep.since, Upkeep.proceed, hadv, hpos, hcancelled]
  | pinging => exact absurd hpos hping
  | leaving =>
    obtain ⟨a, s, hadv⟩ :=
      AuthHandler.advance_leaving (c := c) (t := t) hs.running.connected hpos
    exact hs.unlogged hadv rfl
  | ended =>
    have hadv : u.handler.advance c t = u.handler := by
      unfold AuthHandler.advance
      rw [hpos]
    exact hs.unlogged hadv (by rw [hpos]; rfl)
  | panicked => exact absurd hpos hs.running.running

theorem Sound.lose {c : Crates} {u : Upkeep} (hs : Sound members d u) (s : Status)
    (hontime : u.OnTime d) :
    Sound members d (u.proceed c (.heard (.error (.status s)))) := by
  by_cases hlogin : u.handler.position = .authenticating
  · exact hs.unlogged (AuthHandler.advance_refused hs.running.connected hlogin rfl) rfl
  · by_cases hping : u.handler.position = .pinging
    · exact hs.unlogged (AuthHandler.advance_rejected hs.running.connected hping rfl) rfl
    · exact hs.onward _ hontime hlogin hping

theorem Sound.hear_login {c : Crates} {u : Upkeep} (hs : Sound members d u)
    (hpos : u.handler.position = .authenticating) {i : Nat} (hi : u.waiting = some i) {j : Job}
    {a : Except Abort Reply} (ha : u.pool.returned i = some (j, a))
    (hprivate : (u.proceed c (.heard a)).Private) :
    Sound members d (u.proceed c (.heard a)) := by
  cases ht : (AuthTurn.heard a).login with
  | error e => exact hs.unlogged (AuthHandler.advance_refused hs.running.connected hpos ht) rfl
  | ok response =>
    obtain ⟨id, hj, hguarded⟩ := hs.login hpos i hi
    have htask := Pool.returned_eq_some.mp ha
    have hjob : u.pool.hist.jobs[i]? = some j := by simp [Pool.hist, htask]
    obtain rfl := Option.some.inj (hj.symm.trans hjob)
    have hreply : a = .ok (.login response) := by
      cases a with
      | error e => cases ht
      | ok r =>
        cases r with
        | login r =>
          cases ht
          rfl
        | _ => cases ht
    subst hreply
    obtain ⟨hkey, ⟨info, hinfo⟩, hlodged⟩ := lodged_of_login hs.reach htask
    obtain ⟨hid, huid, -⟩ := session?_login hinfo
    have hadv := AuthHandler.advance_admitted (c := c) hs.running.connected hpos ht
    have hholds :
        (u.handler.advance c (.heard (.ok (.login response)))).Holds u.loginFrom info := by
      rw [hadv]
      constructor
      case announced =>
        rw [hid]
        exact hinfo
      case current =>
        show (u.handler.auth.write _).current = _
        rw [AuthState.current_write, hkey, huid, hid]
        rfl
    refine hs.proceed hadv (fun hin => ⟨info, hadv ▸ hholds, ?_⟩) fun hne => by cases hne
    have hposition : (u.proceed c (.heard (.ok (.login response)))).handler.position = .checking :=
      congrArg AuthHandler.position hadv
    have hin : (u.proceed c (.heard (.ok (.login response)))).handler.position.loggedIn = true := by
      rw [hposition]
      rfl
    have hnot := hprivate.not_sent hin hholds
    have hupheld := (hguarded info hinfo (by rw [hid]; exact hlodged)).resolve_left hnot
    unfold Upkeep.since
    rw [if_pos hposition]
    exact hupheld

theorem Sound.hear_ping {c : Crates} {u : Upkeep} (hs : Sound members d u)
    (hpos : u.handler.position = .pinging) {i : Nat} (hi : u.waiting = some i) {j : Job}
    {a : Except Abort Reply} (ha : u.pool.returned i = some (j, a)) :
    Ponged a ∧ (u.OnTime d → Sound members d (u.proceed c (.heard a))) := by
  obtain ⟨info, hinfo, -⟩ := hs.kept (by rw [hpos]; rfl)
  obtain ⟨-, hpings⟩ := hs.ping hpos i hi
  obtain ⟨pr, hpr⟩ := hpings info hinfo
  obtain ⟨hponged, hupheld⟩ := hpr.returned ha
  refine ⟨hponged, fun hontime => ?_⟩
  obtain ⟨response, rfl⟩ := hponged
  have hadv := AuthHandler.advance_ponged (c := c) hs.running.connected hpos
    (t := .heard (.ok (.ping response))) rfl
  refine hs.proceed hadv (fun _ => ⟨info, ⟨hinfo.announced, hinfo.current⟩, hupheld.mono ?_⟩)
    fun hne => by cases hne
  unfold OnTime at hontime
  rw [hpos] at hontime
  simp only [Upkeep.since, Upkeep.proceed, hadv, AuthHandler.call, reduceCtorEq, if_false, if_true]
  omega

theorem step_cases {c : Crates} {u u' : Upkeep} {x : UpkeepMove} (hx : u.step c x = some u') :
    (∃ m q, x = .controller m ∧ u.pool.step m = some q ∧ u' = { u with pool := q }) ∨
      x = .cancel ∧ u' = { u with handler := { u.handler with cancelled := true } } ∨
      (x = .go ∧ u.handler.calling = false ∧ u' = u.proceed c (.heard (.error .panic))) ∨
      (∃ id addr r q, x = .send id addr ∧ u.wakeAt ≤ u.now ∧ u.handler.request? addr = some r ∧
        u.pool.step (.spawn ⟨r, id⟩) = some q ∧ u' = u.sending addr q) ∨
      (∃ i j a, x = .hear ∧ u.waiting = some i ∧ u.pool.returned i = some (j, a) ∧
        u' = u.proceed c (.heard a)) ∨
      ∃ s, x = .lose s ∧ u' = u.proceed c (.heard (.error (.status s))) := by
  cases x with
  | controller m =>
    obtain ⟨q, hq, rfl⟩ := Option.map_eq_some_iff.mp hx
    exact .inl ⟨m, q, rfl, hq, rfl⟩
  | cancel =>
    cases hx
    exact .inr (.inl ⟨rfl, rfl⟩)
  | go =>
    obtain ⟨⟨hnone, -⟩, hx⟩ := Option.ite_none_right_eq_some.mp hx
    cases hx
    exact .inr (.inr (.inl ⟨rfl, hnone, rfl⟩))
  | send id addr =>
    obtain ⟨⟨-, hwake⟩, hx⟩ := Option.ite_none_right_eq_some.mp hx
    obtain ⟨r, hr, hx⟩ := Option.bind_eq_some_iff.mp hx
    obtain ⟨q, hq, rfl⟩ := Option.map_eq_some_iff.mp hx
    exact .inr (.inr (.inr (.inl ⟨id, addr, r, q, rfl, hwake, hr, hq, rfl⟩)))
  | hear =>
    obtain ⟨⟨j, a⟩, ha, rfl⟩ := Option.map_eq_some_iff.mp hx
    obtain ⟨i, hi, ha⟩ := Option.bind_eq_some_iff.mp ha
    exact .inr (.inr (.inr (.inr (.inl ⟨i, j, a, rfl, hi, ha, rfl⟩))))
  | lose s =>
    obtain ⟨-, hx⟩ := Option.ite_none_right_eq_some.mp hx
    cases hx
    exact .inr (.inr (.inr (.inr (.inr ⟨s, rfl, rfl⟩))))

include hd in
theorem Sound.step {c : Crates} {u u' : Upkeep} (hs : Sound members d u) (hcalm : Calm d u)
    (hcalm' : Calm d u') {x : UpkeepMove} (hx : u.step c x = some u') :
    Sound members d u' := by
  rcases step_cases hx with ⟨m, q, -, hq, rfl⟩ | ⟨-, rfl⟩ | ⟨-, hnone, rfl⟩ |
    ⟨id, addr, r, q, -, hwake, hr, hq, rfl⟩ | ⟨i, j, a, -, hi, ha, rfl⟩ | ⟨s, -, rfl⟩
  · exact hs.controller hd hq hcalm'
  · exact hs.cancel
  · refine hs.onward _ hcalm.1 ?_ ?_
    · intro hpos
      simp [AuthHandler.calling, hpos] at hnone
    · intro hpos
      simp [AuthHandler.calling, hpos] at hnone
  · exact hs.send hwake hr hq hcalm'.2.2
  · by_cases hlogin : u.handler.position = .authenticating
    · exact hs.hear_login hlogin hi ha hcalm'.2.1
    · by_cases hping : u.handler.position = .pinging
      · exact (hs.hear_ping hping hi ha).2 hcalm.1
      · exact hs.onward _ hcalm.1 hlogin hping
  · exact hs.lose s hcalm.1

structure Lossless (h : AuthHandler) : Prop where
  pings : ∀ call ∈ h.trace, call.failedPing = false
  keys : (h.trace.filterMap AuthCall.key?).length ≤ 1
  new : h.position = .outer ∨ h.position = .authenticating → h.trace.filterMap AuthCall.key? = []

theorem Lossless.move {h : AuthHandler} (hl : Lossless h) {position : Position}
    (hnew : position = .outer ∨ position = .authenticating →
      h.position = .outer ∨ h.position = .authenticating) :
    Lossless { h with position := position } := ⟨hl.pings, hl.keys, fun hpos => hl.new (hnew hpos)⟩

theorem Lossless.call {h : AuthHandler} (hl : Lossless h) {x : AuthCall} {s : AuthState}
    {position : Position} (hping : x.failedPing = false) (hkey : x.key? = none)
    (hnew : position = .outer ∨ position = .authenticating →
      h.position = .outer ∨ h.position = .authenticating) : Lossless (h.call x s position) := by
  have hkeys : (h.trace ++ [x]).filterMap AuthCall.key? = h.trace.filterMap AuthCall.key? := by
    simp [List.filterMap_append, hkey]
  constructor
  case pings =>
    intro call hcall
    rcases List.mem_append.mp hcall with hcall | hcall
    · exact hl.pings call hcall
    · rwa [List.mem_singleton.mp hcall]
  case keys => exact hkeys ▸ hl.keys
  case new => exact fun hpos => hkeys.trans (hl.new (hnew hpos))

theorem Lossless.call_within {h : AuthHandler} (hl : Lossless h) {x : AuthCall} {s : AuthState}
    {position : Position} (hping : x.failedPing = false) (hkey : x.key? = none)
    (hin : position ≠ .outer ∧ position ≠ .authenticating) : Lossless (h.call x s position) := by
  apply hl.call hping hkey
  intro hpos
  exact hpos.elim (fun houter => absurd houter hin.1) fun hlogin => absurd hlogin hin.2

theorem Lossless.advance {c : Crates} {u : Upkeep} (hs : Sound members d u)
    (hl : Lossless u.handler) {t : AuthTurn}
    (hping : u.handler.position = .pinging → ∃ response, t.ping = .ok response) :
    Lossless (u.handler.advance c t) := by
  have hconnected := hs.running.connected
  cases hpos : u.handler.position with
  | outer =>
    rw [AuthHandler.advance_outer hpos]
    exact hl.move fun _ => .inl hpos
  | authenticating =>
    cases ht : t.login with
    | error e =>
      rw [AuthHandler.advance_refused hconnected hpos ht]
      exact hl.call rfl rfl fun _ => .inr hpos
    | ok response =>
      rw [AuthHandler.advance_admitted hconnected hpos ht]
      have hkeys := hl.new (.inr hpos)
      constructor
      case pings =>
        intro call hcall
        rcases List.mem_append.mp hcall with hcall | hcall
        · exact hl.pings call hcall
        · rw [List.mem_singleton.mp hcall]
          rfl
      case keys =>
        show ((u.handler.trace ++ [_]).filterMap AuthCall.key?).length ≤ 1
        rw [List.filterMap_append, hkeys]
        exact Nat.le_refl 1
      case new => exact fun hpos' => by rcases hpos' with hpos' | hpos' <;> cases hpos'
  | checking =>
    obtain ⟨info, hi, -⟩ := hs.kept (by rw [hpos]; rfl)
    rw [AuthHandler.advance_checking hpos hi.current]
    have hasked : Lossless (u.handler.call .getSession u.handler.auth .checking) :=
      hl.call_within rfl rfl (by decide)
    exact hasked.call_within rfl rfl (by decide)
  | inner =>
    rw [AuthHandler.advance_inner hpos]
    refine hl.move fun hpos' => ?_
    cases hcancelled : u.handler.cancelled with
    | true => rcases hpos' with hpos' | hpos' <;> simp [hcancelled] at hpos'
    | false => rcases hpos' with hpos' | hpos' <;> simp [hcancelled] at hpos'
  | pinging =>
    obtain ⟨response, ht⟩ := hping hpos
    rw [AuthHandler.advance_ponged hconnected hpos ht]
    exact hl.call_within rfl rfl (by decide)
  | leaving =>
    obtain ⟨a, s, hadv⟩ := AuthHandler.advance_leaving (c := c) (t := t) hconnected hpos
    rw [hadv]
    exact hl.call_within rfl rfl (by decide)
  | ended =>
    unfold AuthHandler.advance
    rw [hpos]
    exact hl
  | panicked => exact absurd hpos hs.running.running

theorem Lossless.step {c : Crates} {u u' : Upkeep} (hs : Sound members d u)
    (hl : Lossless u.handler) {x : UpkeepMove} (hlose : ∀ s, x ≠ .lose s)
    (hx : u.step c x = some u') : Lossless u'.handler := by
  rcases step_cases hx with ⟨m, q, -, hq, rfl⟩ | ⟨-, rfl⟩ | ⟨-, hnone, rfl⟩ |
    ⟨id, addr, r, q, -, hwake, hr, hq, rfl⟩ | ⟨i, j, a, -, hi, ha, rfl⟩ | ⟨s, rfl, -⟩
  · exact hl
  · exact ⟨hl.pings, hl.keys, hl.new⟩
  · refine hl.advance hs fun hpos => ?_
    simp [AuthHandler.calling, hpos] at hnone
  · exact hl
  · refine hl.advance hs fun hpos => ?_
    obtain ⟨⟨response, rfl⟩, -⟩ := hs.hear_ping (c := c) hpos hi ha
    exact ⟨response, rfl⟩
  · exact absurd rfl (hlose s)

end sound
end Upkeep

/-- However the controller's other requests run in between: as long as no call of a component takes
longer than half of what sessions last beyond the interval of its pings, these come from where its
login came from, and nobody else logs it out, the controller has its session whenever it believes to
be logged in, and accepts each of its pings; so it logs in once, unless a call fails on the way. -/
theorem stays_logged_in {members : Table String Member} {p : ControllerPool}
    (hp : Reachable (Storage.start members) p) {c : Crates} {credentials : Credentials}
    {settings : ConnectionSettings} {componentType : Component} {d : Nat}
    (hd : PING_INTERVAL + 2 * d ≤ SESSIONS_EXPIRATION_TIME) {ms : List UpkeepMove} {u : Upkeep}
    (hcalm : Always (Upkeep.step c) (Upkeep.Calm d)
      (Upkeep.start p credentials settings componentType) ms)
    (hrun : ms.foldlM (Upkeep.step c) (Upkeep.start p credentials settings componentType) =
      some u) :
    (u.handler.position.loggedIn = true → ∃ info, u.handler.Holds u.loginFrom info ∧
      u.pool.state.sessions.sessionOf info.accessKey = some info) ∧
    (u.handler.position = .pinging → ∀ i j a, u.waiting = some i →
      u.pool.returned i = some (j, a) → ∃ r, a = .ok (.ping r)) ∧
    ((∀ s, .lose s ∉ ms) → (u.handler.trace.filterMap AuthCall.key?).length ≤ 1 ∧
      ∀ call ∈ u.handler.trace, call.failedPing = false) := by
  have hstart : Upkeep.Sound members d (Upkeep.start p credentials settings componentType) :=
    .start hp credentials settings componentType
  obtain ⟨hs, -⟩ := hcalm.keeps (I := Upkeep.Sound members d)
    (fun _ _ _ _ hs hc hc' hx => hs.step hd hc hc' hx) hstart hrun
  refine ⟨fun hin => ?_, fun hpos i j a hi ha => ?_, fun hlose => ?_⟩
  · obtain ⟨info, hi, hu⟩ := hs.kept hin
    exact ⟨info, hi, hu.sessionOf⟩
  · exact (hs.hear_ping (c := c) hpos hi ha).1
  · have hnew : Upkeep.Lossless (Upkeep.start p credentials settings componentType).handler := by
      refine ⟨fun call hcall => ?_, Nat.zero_le 1, fun _ => rfl⟩
      cases hcall
    obtain ⟨⟨-, hl⟩, -⟩ := hcalm.keeps
      (I := fun u => Upkeep.Sound members d u ∧ Upkeep.Lossless u.handler)
      (fun u u' x hmem hsl hc hc' hx => ⟨hsl.1.step hd hc hc' hx,
        hsl.2.step hsl.1 (fun s he => hlose s (he ▸ hmem)) hx⟩) ⟨hstart, hnew⟩ hrun
    exact ⟨hl.keys, hl.pings⟩

def aliceKeepsAlive : List UpkeepMove :=
  [.go, .send "k-alice" ⟨"10.0.0.1", 40000⟩] ++ List.replicate 3 (.controller (.act 0 ⟨0, 0⟩)) ++
    [.hear, .go, .go, .controller (.spawn ⟨.sweepSessions, ""⟩), .controller (.act 1 ⟨7500, 0⟩),
      .send "" ⟨"10.0.0.1", 40000⟩] ++ List.replicate 3 (.controller (.act 2 ⟨0, 0⟩)) ++ [.hear]

theorem stays_logged_in_sample : ∃ u : Upkeep, u.handler.position = .inner ∧ u.now = 7500 ∧
    (∃ info, info.uid = "alice" ∧
      u.pool.state.sessions.sessionOf "k-alice" = some info) ∧
    (u.handler.trace.filterMap AuthCall.key?).length ≤ 1 := by
  have hp : Reachable (Storage.start sampleMembers)
      (Pool.start (Storage.start sampleMembers) : ControllerPool) := .start
  have hrun : ∃ u, aliceKeepsAlive.foldlM (Upkeep.step sampleNetwork.crates)
      (Upkeep.start (Pool.start (Storage.start sampleMembers)) ⟨"alice", "alice"⟩
        ⟨"10.0.0.1", 50051, "alice", [1]⟩ .client) = some u ∧
      (u.handler.position, u.now, u.handler.auth.current) =
        (Position.inner, 7500, ClientSession.of "alice" "k-alice") :=
    Option.map_eq_some_iff.mp (by decide +kernel)
  obtain ⟨u, hrun, h⟩ := hrun
  obtain ⟨hpos, h⟩ := Prod.mk.inj h
  obtain ⟨hnow, hcurrent⟩ := Prod.mk.inj h
  obtain ⟨hkept, -, honce⟩ := stays_logged_in hp (d := 2500) (by decide) (by decide +kernel) hrun
  obtain ⟨info, hinfo, hstored⟩ := hkept (by rw [hpos]; rfl)
  have hown := hinfo.current.symm.trans hcurrent
  have hkey : info.accessKey = "k-alice" := Option.some.inj (congrArg ClientSession.accessKey hown)
  have huid : info.uid = "alice" := Option.some.inj (congrArg ClientSession.uid hown)
  refine ⟨u, hpos, hnow, ⟨info, huid, hkey ▸ hstored⟩, (honce fun s hs => ?_).1⟩
  simp [aliceKeepsAlive] at hs

end FuzzyChat
