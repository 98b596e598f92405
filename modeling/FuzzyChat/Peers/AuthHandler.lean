import FuzzyChat.Peers.AuthClient

/-! The loop that keeps a component logged in until it is cancelled. -/

namespace FuzzyChat

/-- The calls on the authenticator, with what has been sent and answered. -/
inductive AuthCall where
  | login (request : LoginRequest) (answer : Except Abort LoginResponse)
  | getSession
  | isAuthenticated
  | ping (request : PingRequest) (answer : Except Abort PingResponse)
  | logout (request : LogoutRequest) (answer : Except Abort Unit)

/-- Where the handler is: before the condition of its own loop or that of `keep_alive`, before one
of the calls with the pause that comes first, or at its end. -/
inductive Position where
  | outer
  | authenticating
  | checking
  | inner
  | pinging
  | leaving
  | ended
  | panicked
  deriving DecidableEq, Repr

structure AuthHandler where
  auth : AuthState
  cancelled : Bool
  position : Position
  trace : List AuthCall

/-- What happens to the handler by its next step: whether it is cancelled, and how a call that it
makes is answered. -/
structure AuthTurn where
  cancel : Bool
  login : Except Abort LoginResponse
  ping : Except Abort PingResponse
  logout : Except Abort Unit

namespace AuthHandler

def hear (t : AuthTurn) (h : AuthHandler) : AuthHandler :=
  { h with cancelled := h.cancelled || t.cancel }

def call (a : AuthCall) (s : AuthState) (position : Position) (h : AuthHandler) : AuthHandler :=
  { h with auth := s, position := position, trace := h.trace ++ [a] }

/-- The errors are logged and dropped; only whether there is one decides. -/
def advance (c : Crates) (t : AuthTurn) (h : AuthHandler) : AuthHandler :=
  match h.position with
  | .outer => { h with position := if h.cancelled then .leaving else .authenticating }
  | .authenticating =>
    let request := AuthCall.login h.auth.auth.loginRequest t.login
    match AuthClient.login c t.login h.auth with
    | none => h.call request h.auth .panicked
    | some (.error _, s) => h.call request s .outer
    | some (.ok (), s) => h.call request s .checking
  | .checking =>
    let session := AuthClient.getSession h.auth
    let h := h.call .getSession h.auth .checking
    if AuthClient.isAuthenticated h.auth then
      match session.accessKey with
      | none => h.call .isAuthenticated h.auth .panicked
      | some _ => h.call .isAuthenticated h.auth .inner
    else h.call .isAuthenticated h.auth .outer
  | .inner => { h with position := if h.cancelled then .leaving else .pinging }
  | .pinging =>
    let request := AuthCall.ping (AuthClient.pingRequest h.auth) t.ping
    match AuthClient.ping t.ping h.auth with
    | none => h.call request h.auth .panicked
    | some (.error _, s) => h.call request s .outer
    | some (.ok _, s) => h.call request s .inner
  | .leaving =>
    let request := AuthCall.logout (AuthClient.logoutRequest h.auth) t.logout
    match AuthClient.logout c t.logout h.auth with
    | none => h.call request h.auth .panicked
    | some (_, s) => h.call request s .ended
  | .ended => h
  | .panicked => h

/-- Both components start with a blank session, and go on to the handler once the client is
connected. -/
def start (credentials : Credentials) (settings : ConnectionSettings) (componentType : Component) :
    AuthHandler where
  auth := (AuthClient.initializeClient (.ok ())
    (AuthClient.new ClientSession.blank credentials settings componentType)).2
  cancelled := false
  position := .outer
  trace := []

def during (c : Crates) (h : AuthHandler) (turns : Nat → AuthTurn) : Nat → AuthHandler
  | 0 => h
  | n + 1 => ((during c h turns n).hear (turns n)).advance c (turns n)

end AuthHandler

/-! What the calls are to look like. -/

namespace AuthCall

def key? : AuthCall → Option String
  | .login _ (.ok response) => some response.accessKey
  | _ => none

def failedPing : AuthCall → Bool
  | .ping _ (.error _) => true
  | _ => false

def isLogout : AuthCall → Bool
  | .logout .. => true
  | _ => false

end AuthCall

def latestKey (calls : List AuthCall) : Option String := calls.reverse.findSome? AuthCall.key?

/-- The most recent login that has succeeded gave the key, and no ping has failed since. -/
def LoggedIn (calls : List AuthCall) (accessKey : String) : Prop :=
  ∃ before request response since, calls = before ++ .login request (.ok response) :: since ∧
    response.accessKey = accessKey ∧ ∀ call ∈ since, call.key? = none ∧ call.failedPing = false

structure Protocol (cancelled : Bool) (trace : List AuthCall) : Prop where
  pings : ∀ before request answer after, trace = before ++ .ping request answer :: after →
    LoggedIn before request.accessKey
  retries : ∀ before request e after, trace = before ++ .ping request (.error e) :: after →
    after = [] ∨ (∃ request answer rest, after = .login request answer :: rest) ∨
      cancelled = true ∧ ∃ request answer, after = [.logout request answer]
  logout : ∀ before request answer after, trace = before ++ .logout request answer :: after →
    after = [] ∧ (∀ call ∈ before, call.isLogout = false) ∧
      request.accessKey = (latestKey before).getD ""

/-- The handler has kept to the protocol, has not panicked, and has logged out if it has ended. -/
structure AuthHandler.Follows (h : AuthHandler) : Prop where
  protocol : Protocol h.cancelled h.trace
  running : h.position ≠ .panicked
  ends : h.position = .ended ↔ ∃ before request answer, h.trace = before ++ [.logout request answer]

/-! One call more. -/

theorem split_snoc {α : Type} {l before after : List α} {x y : α}
    (h : l ++ [y] = before ++ x :: after) :
    after = [] ∧ l = before ∧ y = x ∨ ∃ rest, after = rest ++ [y] ∧ l = before ++ x :: rest := by
  rcases List.eq_nil_or_concat after with rfl | ⟨rest, z, rfl⟩
  · obtain ⟨hl, hy⟩ := List.append_inj' h rfl
    exact .inl ⟨rfl, hl, (List.cons.inj hy).1⟩
  · rw [List.concat_eq_append] at h ⊢
    rw [← List.cons_append, ← List.append_assoc] at h
    obtain ⟨hl, hy⟩ := List.append_inj' h rfl
    exact .inr ⟨rest, by rw [(List.cons.inj hy).1], hl⟩

theorem latestKey_snoc (calls : List AuthCall) (x : AuthCall) :
    latestKey (calls ++ [x]) = x.key?.or (latestKey calls) := by
  rw [latestKey, List.reverse_append, List.reverse_singleton, List.singleton_append,
    List.findSome?_cons]
  cases x.key? with
  | none => rfl
  | some k => rfl

theorem LoggedIn.snoc {calls : List AuthCall} {k : String} (h : LoggedIn calls k) {x : AuthCall}
    (hkey : x.key? = none) (hping : x.failedPing = false) : LoggedIn (calls ++ [x]) k := by
  obtain ⟨before, request, response, since, rfl, hk, hsince⟩ := h
  refine ⟨before, request, response, since ++ [x], by simp, hk, fun call hcall => ?_⟩
  rcases List.mem_append.mp hcall with hcall | hcall
  · exact hsince call hcall
  · rw [List.mem_singleton.mp hcall]
    exact ⟨hkey, hping⟩

theorem loggedIn_login (calls : List AuthCall) (request : LoginRequest) (response : LoginResponse) :
    LoggedIn (calls ++ [.login request (.ok response)]) response.accessKey :=
  ⟨calls, request, response, [], rfl, rfl, fun _ hcall => absurd hcall List.not_mem_nil⟩

theorem LoggedIn.not_failed {calls before : List AuthCall} {k : String} (h : LoggedIn calls k)
    {request : PingRequest} {e : Abort} : calls ≠ before ++ [.ping request (.error e)] := by
  obtain ⟨before', request', response, since, rfl, -, hsince⟩ := h
  intro heq
  rcases List.eq_nil_or_concat since with rfl | ⟨rest, x, rfl⟩
  · cases (List.append_inj' heq rfl).2
  · rw [List.concat_eq_append] at heq hsince
    rw [← List.cons_append, ← List.append_assoc] at heq
    have hx := (List.cons.inj (List.append_inj' heq rfl).2).1
    have hfailed := (hsince x (List.mem_append_right _ List.mem_cons_self)).2
    rw [hx] at hfailed
    contradiction

namespace Protocol
variable {cancelled : Bool} {trace : List AuthCall}

theorem nil (cancelled : Bool) : Protocol cancelled [] := by
  constructor
  · exact fun before _ _ after h => absurd h (by simp)
  · exact fun before _ _ after h => absurd h (by simp)
  · exact fun before _ _ after h => absurd h (by simp)

theorem mono (hp : Protocol cancelled trace) {cancelled' : Bool}
    (hc : cancelled = true → cancelled' = true) : Protocol cancelled' trace where
  pings := hp.pings
  logout := hp.logout
  retries before request e after h := by
    rcases hp.retries before request e after h with hnil | hlogin | ⟨hcancelled, hlogout⟩
    · exact .inl hnil
    · exact .inr (.inl hlogin)
    · exact .inr (.inr ⟨hc hcancelled, hlogout⟩)

theorem snoc (hp : Protocol cancelled trace) (hno : ∀ call ∈ trace, call.isLogout = false)
    {x : AuthCall} (hping : ∀ request answer, x = .ping request answer →
      LoggedIn trace request.accessKey)
    (hretry : ∀ before request e, trace = before ++ [.ping request (.error e)] →
      (∃ request answer, x = .login request answer) ∨
        cancelled = true ∧ ∃ request answer, x = .logout request answer)
    (hlogout : ∀ request answer, x = .logout request answer →
      request.accessKey = (latestKey trace).getD "") : Protocol cancelled (trace ++ [x]) := by
  constructor
  case pings =>
    intro before request answer after h
    rcases split_snoc h with ⟨-, rfl, hx⟩ | ⟨rest, -, hold⟩
    · exact hping request answer hx
    · exact hp.pings before request answer rest hold
  case retries =>
    intro before request e after h
    rcases split_snoc h with ⟨rfl, -, -⟩ | ⟨rest, rfl, hold⟩
    · exact .inl rfl
    · right
      rcases hp.retries before request e rest hold with rfl | ⟨r, a, rest', rfl⟩ | ⟨-, r, a, rfl⟩
      · rcases hretry before request e hold with ⟨r, a, rfl⟩ | ⟨hc, r, a, rfl⟩
        · exact .inl ⟨r, a, [], rfl⟩
        · exact .inr ⟨hc, r, a, rfl⟩
      · exact .inl ⟨r, a, rest' ++ [x], rfl⟩
      · have := hno (.logout r a) (by rw [hold]; simp)
        contradiction
  case logout =>
    intro before request answer after h
    rcases split_snoc h with ⟨rfl, rfl, hx⟩ | ⟨rest, rfl, hold⟩
    · exact ⟨rfl, hno, hlogout request answer hx⟩
    · have := hno (.logout request answer) (by rw [hold]; simp)
      contradiction

end Protocol

def Position.loggedIn : Position → Bool
  | checking | inner | pinging => true
  | _ => false

def Position.onward : Position → Bool
  | leaving | ended | panicked => false
  | _ => true

namespace AuthHandler

structure Running (h : AuthHandler) : Prop where
  connected : h.auth.auth.connected = true
  protocol : Protocol h.cancelled h.trace
  noLogout : h.position ≠ .ended → ∀ call ∈ h.trace, call.isLogout = false
  session : h.position ≠ .ended → h.auth.current.accessKey = latestKey h.trace
  loggedIn : h.position.loggedIn = true →
    ∃ uid k, h.auth.current = ClientSession.of uid k ∧ LoggedIn h.trace k
  leaving : h.position = .leaving → h.cancelled = true
  ended : h.position = .ended →
    ∃ before request answer, h.trace = before ++ [.logout request answer]
  running : h.position ≠ .panicked

namespace Running
variable {c : Crates} {h : AuthHandler}

theorem start (credentials : Credentials) (settings : ConnectionSettings)
    (componentType : Component) :
    Running (AuthHandler.start credentials settings componentType) where
  connected := rfl
  protocol := Protocol.nil false
  noLogout _ call hcall := absurd hcall List.not_mem_nil
  session _ := rfl
  loggedIn hin := by cases hin
  leaving hleaving := by cases hleaving
  ended hended := by cases hended
  running hpanicked := by cases hpanicked

theorem hear (hr : Running h) (t : AuthTurn) : Running (h.hear t) where
  connected := hr.connected
  protocol := hr.protocol.mono fun hc => by simp [AuthHandler.hear, hc]
  noLogout := hr.noLogout
  session := hr.session
  loggedIn := hr.loggedIn
  leaving hleaving := by simp [AuthHandler.hear, hr.leaving hleaving]
  ended := hr.ended
  running := hr.running

theorem move (hr : Running h) {position : Position} (hne : h.position ≠ .ended)
    (hin : position.loggedIn = true → h.position.loggedIn = true)
    (hleaving : position = .leaving → h.cancelled = true) (hended : position ≠ .ended)
    (hpanicked : position ≠ .panicked) : Running { h with position := position } where
  connected := hr.connected
  protocol := hr.protocol
  noLogout _ := hr.noLogout hne
  session _ := hr.session hne
  loggedIn h' := hr.loggedIn (hin h')
  leaving := hleaving
  ended h' := absurd h' hended
  running := hpanicked

theorem call (hr : Running h) (hne : h.position ≠ .ended) {x : AuthCall} {s : AuthState}
    {position : Position} (hconnected : s.auth.connected = true) (hx : x.isLogout = false)
    (hping : ∀ request answer, x = .ping request answer → LoggedIn h.trace request.accessKey)
    (hretry : h.position.loggedIn = true ∨ ∃ request answer, x = .login request answer)
    (hsession : s.current.accessKey = x.key?.or (latestKey h.trace))
    (hin : position.loggedIn = true →
      ∃ uid k, s.current = ClientSession.of uid k ∧ LoggedIn (h.trace ++ [x]) k)
    (hposition : position.onward = true) : Running (h.call x s position) := by
  have hno := hr.noLogout hne
  constructor
  case connected => exact hconnected
  case protocol =>
    refine hr.protocol.snoc hno hping (fun before request e hlast => ?_) fun request answer hl => ?_
    · rcases hretry with hin | hlogin
      · obtain ⟨uid, k, -, hk⟩ := hr.loggedIn hin
        exact absurd hlast hk.not_failed
      · exact .inl hlogin
    · rw [hl] at hx
      contradiction
  case noLogout =>
    intro _ call hcall
    rcases List.mem_append.mp hcall with hcall | hcall
    · exact hno call hcall
    · rwa [List.mem_singleton.mp hcall]
  case session => exact fun _ => hsession.trans (latestKey_snoc h.trace x).symm
  case loggedIn => exact hin
  case leaving =>
    rintro rfl
    contradiction
  case ended =>
    rintro rfl
    contradiction
  case running =>
    rintro rfl
    contradiction

theorem ask (hr : Running h) {x : AuthCall} {position : Position}
    (hin : h.position.loggedIn = true) (hx : x.isLogout = false) (hkey : x.key? = none)
    (hping : ∀ request answer, x = .ping request answer → LoggedIn h.trace request.accessKey)
    (hstay : position.loggedIn = true → x.failedPing = false)
    (hposition : position.onward = true) : Running (h.call x h.auth position) := by
  have hne : h.position ≠ .ended := by
    intro hended
    rw [hended] at hin
    cases hin
  obtain ⟨uid, k, hcurrent, hk⟩ := hr.loggedIn hin
  apply hr.call hne hr.connected hx hping (.inl hin)
  · rw [hkey, Option.none_or]
    exact hr.session hne
  · exact fun hnext => ⟨uid, k, hcurrent, hk.snoc hkey (hstay hnext)⟩
  · exact hposition

section advance
variable {s : AuthState} {cancelled : Bool} {trace : List AuthCall} (t : AuthTurn)

theorem outer (hr : Running ⟨s, cancelled, .outer, trace⟩) :
    Running (AuthHandler.advance c t ⟨s, cancelled, .outer, trace⟩) := by
  cases cancelled with
  | true => exact hr.move (by simp) (by simp [Position.loggedIn]) (by simp) (by simp) (by simp)
  | false => exact hr.move (by simp) (by simp [Position.loggedIn]) (by simp) (by simp) (by simp)

theorem inner (hr : Running ⟨s, cancelled, .inner, trace⟩) :
    Running (AuthHandler.advance c t ⟨s, cancelled, .inner, trace⟩) := by
  cases cancelled with
  | true => exact hr.move (by simp) (by simp [Position.loggedIn]) (by simp) (by simp) (by simp)
  | false => exact hr.move (by simp) (by simp [Position.loggedIn]) (by simp) (by simp) (by simp)

theorem authenticating (hr : Running ⟨s, cancelled, .authenticating, trace⟩) :
    Running (AuthHandler.advance c t ⟨s, cancelled, .authenticating, trace⟩) := by
  have hconnected : s.auth.connected = true := hr.connected
  have hsession : s.current.accessKey = latestKey trace := hr.session (by simp)
  cases hlogin : t.login with
  | error e =>
    have hstep : AuthHandler.advance c t ⟨s, cancelled, .authenticating, trace⟩ =
        AuthHandler.call (.login s.auth.loginRequest (.error e)) s .outer
          ⟨s, cancelled, .authenticating, trace⟩ := by
      simp [AuthHandler.advance, AuthClient.login, hconnected, hlogin]
    rw [hstep]
    apply hr.call (by simp) hconnected rfl
    · exact fun _ _ hx => by cases hx
    · exact .inr ⟨_, _, rfl⟩
    · exact hsession
    · exact fun hin => by cases hin
    · rfl
  | ok response =>
    have hstep : AuthHandler.advance c t ⟨s, cancelled, .authenticating, trace⟩ =
        AuthHandler.call (.login s.auth.loginRequest (.ok response))
          (s.write (ClientSession.of s.auth.credentials.uid response.accessKey)) .checking
          ⟨s, cancelled, .authenticating, trace⟩ := by
      simp [AuthHandler.advance, AuthClient.login, hconnected, hlogin]
    have hwritten : (s.write (ClientSession.of s.auth.credentials.uid
        response.accessKey)).auth.connected = true := hconnected
    rw [hstep]
    apply hr.call (by simp) hwritten rfl
    · exact fun _ _ hx => by cases hx
    · exact .inr ⟨_, _, rfl⟩
    · rw [AuthState.current_write]
      rfl
    · exact fun _ => ⟨_, _, AuthState.current_write _ _, loggedIn_login trace _ response⟩
    · rfl

theorem checking (hr : Running ⟨s, cancelled, .checking, trace⟩) :
    Running (AuthHandler.advance c t ⟨s, cancelled, .checking, trace⟩) := by
  obtain ⟨uid, k, hcurrent, -⟩ := hr.loggedIn rfl
  have hcurrent' : s.current = ClientSession.of uid k := hcurrent
  have hstep : AuthHandler.advance c t ⟨s, cancelled, .checking, trace⟩ =
      AuthHandler.call .isAuthenticated s .inner
        (AuthHandler.call .getSession s .checking ⟨s, cancelled, .checking, trace⟩) := by
    simp [AuthHandler.advance, AuthClient.isAuthenticated, AuthClient.getSession, AuthHandler.call,
      ClientSession.isAuthenticated, ClientSession.of, hcurrent']
  have hasked : Running (AuthHandler.call .getSession s .checking
      ⟨s, cancelled, .checking, trace⟩) := by
    apply hr.ask rfl rfl rfl
    · exact fun _ _ hx => by cases hx
    · exact fun _ => rfl
    · rfl
  rw [hstep]
  apply hasked.ask rfl rfl rfl
  · exact fun _ _ hx => by cases hx
  · exact fun _ => rfl
  · rfl

theorem pinging (hr : Running ⟨s, cancelled, .pinging, trace⟩) :
    Running (AuthHandler.advance c t ⟨s, cancelled, .pinging, trace⟩) := by
  have hconnected : s.auth.connected = true := hr.connected
  obtain ⟨uid, k, hcurrent, hk⟩ := hr.loggedIn rfl
  have hrequest : AuthClient.pingRequest s = ⟨k⟩ := by
    rw [AuthClient.pingRequest, show s.current = ClientSession.of uid k from hcurrent]
    rfl
  have hkeyed : ∀ answer request answer', AuthCall.ping ⟨k⟩ answer = .ping request answer' →
      LoggedIn trace request.accessKey := by
    intro answer request answer' hx
    cases hx
    exact hk
  cases hping : t.ping with
  | error e =>
    have hstep : AuthHandler.advance c t ⟨s, cancelled, .pinging, trace⟩ =
        AuthHandler.call (.ping ⟨k⟩ (.error e)) s .outer ⟨s, cancelled, .pinging, trace⟩ := by
      simp [AuthHandler.advance, AuthClient.ping, hconnected, hping, hrequest]
    rw [hstep]
    apply hr.ask rfl rfl rfl (hkeyed _)
    · exact fun hin => by cases hin
    · rfl
  | ok response =>
    have hstep : AuthHandler.advance c t ⟨s, cancelled, .pinging, trace⟩ =
        AuthHandler.call (.ping ⟨k⟩ (.ok response)) s .inner ⟨s, cancelled, .pinging, trace⟩ := by
      simp [AuthHandler.advance, AuthClient.ping, hconnected, hping, hrequest]
    rw [hstep]
    apply hr.ask rfl rfl rfl (hkeyed _)
    · exact fun _ => rfl
    · rfl

theorem ended_call (hr : Running ⟨s, cancelled, .leaving, trace⟩) {s' : AuthState}
    (hconnected : s'.auth.connected = true) (answer : Except Abort Unit) :
    Running (AuthHandler.call (.logout (AuthClient.logoutRequest s) answer) s' .ended
      ⟨s, cancelled, .leaving, trace⟩) := by
  have hcancelled : cancelled = true := hr.leaving rfl
  have hsession : s.current.accessKey = latestKey trace := hr.session (by simp)
  constructor
  case connected => exact hconnected
  case protocol =>
    refine hr.protocol.snoc (hr.noLogout (by simp)) (fun _ _ hx => by cases hx) ?_ ?_
    · exact fun _ _ _ _ => .inr ⟨hcancelled, _, _, rfl⟩
    · intro request answer hx
      cases hx
      exact congrArg (Option.getD · "") hsession
  case noLogout => exact fun hne => absurd rfl hne
  case session => exact fun hne => absurd rfl hne
  case loggedIn => exact fun hin => by cases hin
  case leaving => exact fun hleaving => by cases hleaving
  case ended => exact fun _ => ⟨trace, _, _, rfl⟩
  case running => exact fun hpanicked => by cases hpanicked

theorem leave (hr : Running ⟨s, cancelled, .leaving, trace⟩) :
    Running (AuthHandler.advance c t ⟨s, cancelled, .leaving, trace⟩) := by
  have hconnected : s.auth.connected = true := hr.connected
  cases hlogout : t.logout with
  | error e =>
    have hstep : AuthHandler.advance c t ⟨s, cancelled, .leaving, trace⟩ =
        AuthHandler.call (.logout (AuthClient.logoutRequest s) (.error e)) s .ended
          ⟨s, cancelled, .leaving, trace⟩ := by
      simp [AuthHandler.advance, AuthClient.logout, hconnected, hlogout]
    rw [hstep]
    exact hr.ended_call hconnected (.error e)
  | ok _ =>
    have hstep : AuthHandler.advance c t ⟨s, cancelled, .leaving, trace⟩ =
        AuthHandler.call (.logout (AuthClient.logoutRequest s) (.ok ()))
          (s.replace ClientSession.blank) .ended ⟨s, cancelled, .leaving, trace⟩ := by
      simp [AuthHandler.advance, AuthClient.logout, hconnected, hlogout]
    have hreplaced : (s.replace ClientSession.blank).auth.connected = true := hconnected
    rw [hstep]
    exact hr.ended_call hreplaced (.ok ())

end advance

theorem advance (hr : Running h) (t : AuthTurn) : Running (h.advance c t) := by
  obtain ⟨s, cancelled, position, trace⟩ := h
  cases position with
  | outer => exact outer t hr
  | authenticating => exact authenticating t hr
  | checking => exact checking t hr
  | inner => exact inner t hr
  | pinging => exact pinging t hr
  | leaving => exact leave t hr
  | ended => exact hr
  | panicked => exact hr

end Running

/-- Whatever the answers and whenever it is cancelled, the handler keeps to the protocol at every
step, and when it ends its last call has been the one logout. -/
theorem auth_protocol (c : Crates) (credentials : Credentials) (settings : ConnectionSettings)
    (componentType : Component) (turns : Nat → AuthTurn) (n : Nat) :
    Follows (during c (AuthHandler.start credentials settings componentType) turns n) := by
  have hr : Running (during c (AuthHandler.start credentials settings componentType) turns n) := by
    induction n with
    | zero => exact Running.start credentials settings componentType
    | succ n ih => exact (ih.hear (turns n)).advance (turns n)
  constructor
  case protocol => exact hr.protocol
  case running => exact hr.running
  case ends =>
    refine ⟨hr.ended, ?_⟩
    rintro ⟨before, request, answer, htrace⟩
    by_contra hne
    have hno := hr.noLogout hne (.logout request answer) (by rw [htrace]; simp)
    contradiction

end AuthHandler
end FuzzyChat
