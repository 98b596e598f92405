import FuzzyChat.Controller.Coherence
import FuzzyChat.Peers.Network

/-! What is asked of the surroundings of a message under way, and what each operation of the
controller does to the conversation it belongs to. -/

namespace FuzzyChat
open Interleave

def Network.Reaches (net : Network) (info : SessionInfo) (node : Node) : Prop :=
  ∃ uri, networking.toHttpsEndpoint net.crates info.onIpAddress info.onPortNumber.toUInt32 =
      .ok uri ∧
    net.dial uri info.publicKey info.domainName = .ok node

structure Parties where
  sender : SessionInfo
  toUid : String
  recipient : SessionInfo

/-- The proxy runs with the access key it is listed under, and can be reached. -/
structure Running (net : Network) (s : SessionStore) (uid k : String) : Prop where
  session : net.clientSession (.proxy uid) = ⟨some k, some uid⟩
  stored : ∃ info, s.sessionOf k = some info ∧ net.Reaches info (.proxy uid)

structure Scene (net : Network) (d : Parties) (s : SessionStore) : Prop where
  sender : s.sessionOf d.sender.accessKey = some d.sender
  client : s.clientKey d.toUid = some d.recipient.accessKey
  recipient : s.sessionOf d.recipient.accessKey = some d.recipient
  reaches : net.Reaches d.recipient (.client d.toUid)
  proxies : ∀ uid k, s.proxies.lookup uid = some k → Running net s uid k
  two : ∃ uid uid' k k', k ≠ k' ∧ s.proxies.lookup uid = some k ∧ s.proxies.lookup uid' = some k'

/-- What the other requests may do while the message is under way: the scene stays, no listed proxy
drops out, nobody else touches the conversation or its nonces, or draws one of our identifiers. -/
structure Steady (x : Setting) (d : Parties) (h h' : ControllerHist) : Prop where
  scene : Scene x.network d h'.state.sessions
  listed : ∀ uid k, h.state.sessions.proxies.lookup uid = some k →
    h'.state.sessions.proxies.lookup uid = some k
  conversation : h'.state.routes.getConversation (x.ids 0) = h.state.routes.getConversation (x.ids 0)
  routes : ∀ n, h'.state.routes.routes.lookup (x.ids (n + 1)) =
    h.state.routes.routes.lookup (x.ids (n + 1))
  jobs : ∀ j ∈ h'.jobs, j ∈ h.jobs ∨ j.request.draws = none ∨ ∀ n, j.id ≠ x.ids n

def Undisturbed (x : Setting) (d : Parties) (s₀ : Storage) : Prop :=
  ∀ i t (p : ControllerPool), Reachable s₀ p → Scene x.network d p.state.sessions →
    Steady x d p.hist (x.rivals.play i t p).hist

/-- How far the message has come: the identifiers drawn, the conversation and the routes stored for
it, and proxies known to be listed. -/
structure Progress where
  drawn : Nat
  conversation : Option Conversation
  routes : Nat → Option Route
  known : String → Prop

structure Stage (x : Setting) (d : Parties) (g : Progress) (h : ControllerHist) : Prop where
  scene : Scene x.network d h.state.sessions
  known : ∀ uid, g.known uid → ∃ k, h.state.sessions.proxies.lookup uid = some k
  conversation : h.state.routes.getConversation (x.ids 0) = g.conversation
  routes : ∀ n c, h.state.routes.getRoute c (x.ids (n + 1)) = g.routes n
  fresh : ∀ j ∈ h.jobs, j.request.draws ≠ none → ∀ n, g.drawn ≤ n → j.id ≠ x.ids n

theorem Stage.steady {x : Setting} {d : Parties} {g : Progress} {h h' : ControllerHist}
    (hs : Stage x d g h) (ht : Steady x d h h') : Stage x d g h' where
  scene := ht.scene
  known uid hu :=
    let ⟨k, hk⟩ := hs.known uid hu
    ⟨k, ht.listed uid k hk⟩
  conversation := ht.conversation.trans hs.conversation
  routes n c := (congrArg _ (ht.routes n)).trans (hs.routes n c)
  fresh j hj hd n hn := by
    rcases ht.jobs j hj with hold | hnone | hother
    · exact hs.fresh j hold hd n hn
    · exact absurd hnone hd
    · exact hother n

/-! The sessions, as far as their lookups tell. -/

structure SameSessions (s s' : SessionStore) : Prop where
  sessionOf : ∀ k, s'.sessionOf k = s.sessionOf k
  index : ∀ t, s'.index t = s.index t

theorem SameSessions.refl (s : SessionStore) : SameSessions s s := ⟨fun _ => rfl, fun _ => rfl⟩

theorem sameSessions_getSession (s : SessionStore) (now : Nat) (k : String) :
    SameSessions s (s.getSession now k).2 := by
  refine ⟨fun k' => ?_, s.index_getSession now k⟩
  rw [SessionStore.sessionOf, SessionStore.sessions_getSession, AList.lookup_modify]
  split_ifs with hk
  · rw [hk, SessionStore.sessionOf, Option.map_map]
    rfl
  · rfl

theorem Scene.same {net : Network} {d : Parties} {s s' : SessionStore} (hs : Scene net d s)
    (h : SameSessions s s') : Scene net d s' where
  sender := (h.sessionOf _).trans hs.sender
  client := (congrArg (AList.lookup d.toUid) (h.index .client)).trans hs.client
  recipient := (h.sessionOf _).trans hs.recipient
  reaches := hs.reaches
  proxies uid k hk :=
    have hr := hs.proxies uid k ((congrArg (AList.lookup uid) (h.index .proxy)).symm.trans hk)
    ⟨hr.session, by simpa only [h.sessionOf] using hr.stored⟩
  two :=
    let ⟨uid, uid', k, k', hne, hk, hk'⟩ := hs.two
    ⟨uid, uid', k, k', hne, (congrArg (AList.lookup uid) (h.index .proxy)).trans hk,
      (congrArg (AList.lookup uid') (h.index .proxy)).trans hk'⟩

def RepoOp.Reads : RepoOp → Prop
  | .getSession _ | .getProxies _ | .clientKey _ | .sessionOf _ | .getConversation _
  | .getRoute .. | .choose _ => True
  | _ => False

theorem Storage.step_reads {op : RepoOp} (hop : op.Reads) (s : Storage) (c : Choice) :
    SameSessions s.sessions (s.step c op).2.sessions ∧ (s.step c op).2.routes = s.routes := by
  cases op with
  | getSession k => exact ⟨sameSessions_getSession _ _ _, rfl⟩
  | getProxies | clientKey | sessionOf | getConversation | getRoute | choose =>
    exact ⟨.refl _, rfl⟩
  | _ => nomatch hop

namespace Stage
variable {x : Setting} {d : Parties} {g : Progress} {h : ControllerHist}

theorem record {g' : Progress} {i : Nat} {op : RepoOp} {r : op.Res} {s' : Storage}
    (hs : Stage x d g h) (hd : g'.drawn = g.drawn) (hk : g'.known = g.known)
    (hsess : SameSessions h.state.sessions s'.sessions)
    (hconv : s'.routes.getConversation (x.ids 0) = g'.conversation)
    (hroutes : ∀ n c, s'.routes.getRoute c (x.ids (n + 1)) = g'.routes n) :
    Stage x d g' (h.record i op r s') where
  scene := hs.scene.same hsess
  known uid hu :=
    let ⟨k, hl⟩ := hs.known uid (hk ▸ hu)
    ⟨k, (congrArg (AList.lookup uid) (hsess.index .proxy)).trans hl⟩
  conversation := hconv
  routes := hroutes
  fresh j hj hdraws n hn := hs.fresh j hj hdraws n (hd ▸ hn)

theorem read {i : Nat} (hs : Stage x d g h) (op : RepoOp) (hop : op.Reads) (c : Choice) :
    Stage x d g (h.record i op (h.state.step c op).1 (h.state.step c op).2) := by
  obtain ⟨hsess, hroutes⟩ := Storage.step_reads hop h.state c
  exact hs.record rfl rfl hsess (hroutes ▸ hs.conversation) fun n id => hroutes ▸ hs.routes n id

end Stage
end FuzzyChat
