import FuzzyChat.Interleave.Mirrors
import FuzzyChat.Peers.CommandLoop

/-! What a message says makes no difference to anything but the message: to no request that the
controller is sent, to no hop and to no reply. -/

namespace FuzzyChat
open Interleave Prog

def header (a : String × TextMessage) : String × String × String × Nat :=
  (a.1, a.2.fromUid, a.2.toUid, a.2.sentAt)

/-- The same but for the texts of the messages received. -/
structure World.Alike (w w' : World) : Prop where
  pool : w.pool = w'.pool
  turn : w.turn = w'.turn
  drawn : w.drawn = w'.drawn
  hops : w.hops = w'.hops
  received : w.received.map header = w'.received.map header

namespace Peer
variable {x : Setting} {n : Nat} {self : Node} {ε ε' α β : Type}

theorem tally_call {γ : Type} {request : Request} {pick : Reply → Option γ} {w w' : World}
    (hw : w.Alike w') : Tally Eq World.Alike (x.call request pick w) (x.call request pick w') := by
  obtain ⟨pool, turn, drawn, hops, received⟩ := w
  obtain ⟨pool', turn', drawn', hops', received'⟩ := w'
  obtain ⟨rfl, rfl, rfl, rfl, hreceived⟩ := hw
  unfold Setting.call
  cases x.rivals.submit (x.jobOf request drawn) turn pool with
  | none => exact .none
  | some a => exact .some ⟨rfl, rfl, rfl, rfl, rfl, hreceived⟩

theorem tally_calm {op : PeerOp} (hop : op.calm = true) {w w' : World} (hw : w.Alike w') :
    Tally Eq World.Alike (x.exec n self op w) (x.exec n self op w') := by
  cases n with
  | zero => exact .none
  | succ n =>
    cases op with
    | initConversation r => exact tally_call hw
    | getRoute r => exact tally_call hw
    | redeem r => exact tally_call hw
    | getStatus r => exact tally_call hw
    | executeCommand node r => cases hop
    | receive node r => cases hop
    | channel message => cases hop
    | instantNow => exact .some ⟨congrArg (fun p : ControllerPool => p.state.now) hw.pool, hw⟩
    | _ => exact .some ⟨rfl, hw⟩

theorem mirrors_mapErr (f : ε → ε') (r : Except ε α) :
    Mirrors (x.exec n self) World.Alike (mapErr f r) (mapErr f r) := by
  cases r with
  | ok a => exact .pure a
  | error e => exact .throw (f e)

theorem mirrors_ask {op : PeerOp} {k k' : op.Res → Peer ε α} (hop : op.calm = true)
    (hk : ∀ r, Mirrors (x.exec n self) World.Alike (k r) (k' r)) :
    Mirrors (x.exec n self) World.Alike (ask op >>= k) (ask op >>= k') := by
  refine Mirrors.call (fun w w' hw => tally_calm hop hw) ?_
  rintro r _ rfl
  exact hk r

theorem mirrors_call {op : PeerOp} {f : ε → ε'} {g : op.Res → Except ε α} (hop : op.calm = true) :
    Mirrors (x.exec n self) World.Alike (ask op >>= fun r => mapErr f (g r))
      (ask op >>= fun r => mapErr f (g r)) := mirrors_ask hop fun r => mirrors_mapErr f (g r)

theorem mirrors_call_bind {op : PeerOp} {f : ε → ε'} {g : op.Res → Except ε α}
    {k k' : α → Peer ε' β} (hop : op.calm = true)
    (hk : ∀ a, Mirrors (x.exec n self) World.Alike (k a) (k' a)) :
    Mirrors (x.exec n self) World.Alike (ask op >>= fun r => mapErr f (g r) >>= k)
      (ask op >>= fun r => mapErr f (g r) >>= k') :=
  mirrors_ask hop fun r => (mirrors_mapErr f (g r)).bind hk

end Peer

section
variable {x : Setting} {content content' : List UInt8}

theorem mirrors_receive (n : Nat) (uid conversationId accessKey nonce : String) :
    Mirrors (x.exec n (.client uid)) World.Alike
      (LandingServiceImpl.receive ⟨conversationId, accessKey, nonce, content⟩)
      (LandingServiceImpl.receive ⟨conversationId, accessKey, nonce, content'⟩) := by
  refine Peer.mirrors_call_bind rfl fun _ => ?_
  refine .bind (.adapt _ (Peer.mirrors_call rfl)) fun resp => ?_
  cases hs : resp.sourceInfo with
  | none => exact .throw _
  | some source =>
    refine Peer.mirrors_ask rfl fun now => ?_
    refine Mirrors.call (Q := fun _ _ => True) (fun w w' hw => ?_) fun _ _ _ => .pure _
    cases n with
    | zero => exact .none
    | succ n =>
      refine .some ⟨trivial, hw.pool, hw.turn, hw.drawn, hw.hops, ?_⟩
      rw [List.map_append, List.map_append, hw.received]
      rfl

theorem mirrors_landCommand (n : Nat) (self : Node) (settings : ConnectionSettings)
    (conversationId nonce accessKey : String) :
    Mirrors (x.exec n self) World.Alike
      (ProxyServiceImpl.landCommand x.network.crates settings conversationId nonce accessKey
        content)
      (ProxyServiceImpl.landCommand x.network.crates settings conversationId nonce accessKey
        content') := by
  refine .bind (Peer.mirrors_mapErr _ _) fun uri => Peer.mirrors_call_bind rfl fun node => ?_
  refine .bind (.adapt _ ?_) fun _ => .pure _
  refine Mirrors.call (Q := Eq) (fun w w' hw => ?_) ?_
  · cases n with
    | zero => exact .none
    | succ n =>
      cases node with
      | proxy uid => exact .some ⟨rfl, hw⟩
      | client uid => exact mirrors_receive n uid conversationId accessKey nonce w w' hw
  · rintro r _ rfl
    exact Peer.mirrors_mapErr _ r

theorem mirrors_sendCommand {n : Nat} (self node : Node) (conversationId nonce : String)
    (hnext : ∀ m, n = m + 1 → ∀ uid, Mirrors (x.exec m (.proxy uid)) World.Alike
      (ProxyServiceImpl.executeCommand x.network.crates
        ⟨conversationId, nonce, CommandType.send.toI32, some content⟩)
      (ProxyServiceImpl.executeCommand x.network.crates
        ⟨conversationId, nonce, CommandType.send.toI32, some content'⟩)) :
    Mirrors (x.exec n self) World.Alike
      (ProxyClient.sendCommand node conversationId nonce .send content)
      (ProxyClient.sendCommand node conversationId nonce .send content') := by
  refine Mirrors.call (Q := Eq) (fun w w' hw => ?_) ?_
  · cases n with
    | zero => exact .none
    | succ n =>
      cases node with
      | client uid => exact .some ⟨rfl, hw⟩
      | proxy uid =>
        exact hnext n rfl uid _ _
          ⟨hw.pool, hw.turn, hw.drawn, congrArg (· ++ [uid]) hw.hops, hw.received⟩
  · rintro r _ rfl
    exact Peer.mirrors_mapErr _ r

theorem mirrors_executeCommand (n : Nat) (uid conversationId nonce : String) :
    Mirrors (x.exec n (.proxy uid)) World.Alike
      (ProxyServiceImpl.executeCommand x.network.crates
        ⟨conversationId, nonce, CommandType.send.toI32, some content⟩)
      (ProxyServiceImpl.executeCommand x.network.crates
        ⟨conversationId, nonce, CommandType.send.toI32, some content'⟩) := by
  induction n using Nat.strong_induction_on generalizing uid nonce with
  | _ n ih =>
    refine .bind ?_ fun accessKey => .bind ?_ fun _ => ?_
    · refine Peer.mirrors_ask rfl fun authenticated => ?_
      cases authenticated with
      | false => exact .throw _
      | true =>
        refine Peer.mirrors_ask rfl fun session => ?_
        cases hk : session.accessKey with
        | none => exact .throw _
        | some accessKey => exact .pure _
    · refine Peer.mirrors_call_bind rfl fun _ => ?_
      exact .bind (.adapt _ (Peer.mirrors_call rfl)) fun _ => .pure _
    · simp only [CommandType.tryFrom_toI32]
      refine .bind ?_ fun _ => .pure _
      refine Peer.mirrors_call_bind rfl fun _ => ?_
      refine .bind (.adapt _ (Peer.mirrors_call rfl)) fun route => ?_
      cases hend : route.endRoute with
      | true => exact mirrors_landCommand n _ _ _ _ _
      | false =>
        refine .bind (Peer.mirrors_mapErr _ _) fun uri => Peer.mirrors_call_bind rfl fun node => ?_
        refine .bind (.adapt _ ?_) fun _ => .pure _
        exact mirrors_sendCommand _ node _ _ fun m hm uid => ih m (by omega) uid _

end

/-- Of two messages sent in the same state over a network of these services, either neither comes
back or both do, with the same reply; the controller has then been asked the same and is in the same
state, the same nodes have been called, and the same channels hold messages that differ in their
text only. -/
theorem content_unseen (x : Setting) (depth : Nat) (session : SessionInfo) (toUid : String)
    (content content' : List UInt8) (w : World) :
    Tally Eq World.Alike (x.sendMessage depth session toUid content w)
      (x.sendMessage depth session toUid content' w) := by
  have hsend : Mirrors (x.exec depth (.client session.uid)) World.Alike
      (Commander.sendMessage x.network.crates session.accessKey toUid content)
      (Commander.sendMessage x.network.crates session.accessKey toUid content') := by
    refine .bind ?_ fun route => Peer.mirrors_call_bind rfl fun node =>
      mirrors_sendCommand _ node _ _ fun m _ uid => mirrors_executeCommand m uid _ _
    refine Peer.mirrors_call_bind rfl fun _ => .bind (Peer.mirrors_call rfl) fun init => ?_
    exact .bind (Peer.mirrors_call rfl) fun route =>
      .bind (Peer.mirrors_mapErr _ _) fun uri => .pure _
  exact hsend w w ⟨rfl, rfl, rfl, rfl, rfl⟩

end FuzzyChat
