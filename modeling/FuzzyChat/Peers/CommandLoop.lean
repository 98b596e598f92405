import FuzzyChat.Peers.Command
import FuzzyChat.Peers.Handed

/-! The commands a client is given line by line, and the messages they come to. -/

namespace FuzzyChat
open Interleave

/-- What the command handler makes of a line: a warning, its end, or a command with its response. -/
inductive Handled where
  | invalid (e : Fault)
  | keyless
  | executed (accessKey : String) (cmd : Command) (response : Except Fault CommandResponse)

namespace Setting
variable (x : Setting) (depth : Nat) (uid : String)

def execute (accessKey : String) : Command → World → Option (Except Fault CommandResponse × World)
  | .status =>
    Prog.run (x.exec depth (.client uid)) (Commander.getStatus x.network.crates accessKey)
  | .send toUid content =>
    Prog.run (x.exec depth (.client uid))
      (Commander.sendMessage x.network.crates accessKey toUid content)

/-- The lines come with what the session cell holds as access key when it is read for them. -/
def startCmdHandler (tables : String → String) :
    List (String × Option String) → World → Option (List Handled × World)
  | [], w => some ([], w)
  | (input, accessKey) :: rest, w =>
    match Command.fromStr tables input with
    | .error e => (startCmdHandler tables rest w).map fun a => (.invalid e :: a.1, a.2)
    | .ok cmd =>
      match accessKey with
      | none => some ([.keyless], w)
      | some accessKey => (x.execute depth uid accessKey cmd w).bind fun a =>
          (startCmdHandler tables rest a.2).map fun b => (.executed accessKey cmd a.1 :: b.1, b.2)

end Setting

/-- The send commands that have been acknowledged, each with the key it was sent with. -/
def acknowledged (hs : List Handled) : List (String × String × List UInt8) := hs.filterMap fun
  | .executed accessKey (.send toUid content) (.ok _) => some (accessKey, toUid, content)
  | _ => none

/-! A request for the status puts nothing into a channel. -/

def PeerOp.calm : PeerOp → Bool
  | executeCommand .. | receive .. | channel _ => false
  | _ => true

section
variable {x : Setting} {members : Table String Member} {received : List (String × TextMessage)}
  {jobs : List Job}

theorem Unheard.call {α : Type} {request : Request} {pick : Reply → Option α} {w w' : World}
    {r : Except Abort α} (hw : Unheard members received jobs w)
    (h : x.call request pick w = some (r, w')) : Unheard members received jobs w' := by
  obtain ⟨honward, -, hreceived, -⟩ := call_returned hw.reach h
  exact ⟨hw.reach.onward honward, hw.since.trans honward.before.jobs, hreceived.trans hw.received⟩

theorem Unheard.exec_calm {n : Nat} {self : Node} {op : PeerOp} {r : op.Res} {w w' : World}
    (hop : op.calm = true) (hw : Unheard members received jobs w)
    (h : x.exec n self op w = some (r, w')) : Unheard members received jobs w' := by
  obtain ⟨n, rfl⟩ := Setting.exec_succ h
  cases op with
  | initConversation r => exact hw.call h
  | getRoute r => exact hw.call h
  | redeem r => exact hw.call h
  | getStatus r => exact hw.call h
  | executeCommand node r => cases hop
  | receive node r => cases hop
  | channel message => cases hop
  | _ =>
    cases h
    exact hw

theorem ensures_calm {ε ε' α β : Type} {n : Nat} {self : Node} {op : PeerOp} {f : ε → ε'}
    {g : op.Res → Except ε α} {k : α → Peer ε' β} {Q : β → World → Prop} (hop : op.calm = true)
    (hk : ∀ a, Prog.Ensures (x.exec n self) (Unheard members received jobs) (k a) Q
      (Unheard members received jobs)) :
    Prog.Ensures (x.exec n self) (Unheard members received jobs)
      (Peer.ask op >>= fun r => Peer.mapErr f (g r) >>= k) Q (Unheard members received jobs) := by
  refine Peer.ensures_call_bind (B := fun _ => Unheard members received jobs)
    (fun w hw r w' h => ?_) hk
  have hw' := hw.exec_calm hop h
  cases g r with
  | ok a => exact hw'
  | error e => exact hw'

theorem ensures_calm_initializeRoute (n : Nat) (self : Node) (accessKey toUid : String) :
    Prog.Ensures (x.exec n self) (Unheard members received jobs)
      (Commander.initializeRoute x.network.crates accessKey toUid)
      (fun _ => Unheard members received jobs) (Unheard members received jobs) := by
  refine (ensures_initializeRoute n self []).mono (fun _ hw => hw) fun _ w ⟨d, hd, hw⟩ => ?_
  obtain ⟨rfl, rfl, -, rfl, rfl, -⟩ := hd
  exact hw.unheard

theorem ensures_executeStatus (n : Nat) (uid conversationId nonce : String) :
    Prog.Ensures (x.exec n (.proxy uid)) (Unheard members received jobs)
      (ProxyServiceImpl.executeCommand x.network.crates
        ⟨conversationId, nonce, CommandType.status.toI32, some []⟩)
      (fun _ => Unheard members received jobs) (Unheard members received jobs) := by
  refine .bind (B := fun _ => Unheard members received jobs) ?_ fun accessKey => ?_
  · refine Peer.ensures_ask (B := fun _ => Unheard members received jobs)
      (fun w hw r w' h => hw.exec_calm rfl h) fun authenticated => ?_
    cases authenticated with
    | false => exact .throw fun _ hw => hw
    | true =>
      refine Peer.ensures_ask (B := fun _ => Unheard members received jobs)
        (fun w hw r w' h => hw.exec_calm rfl h) fun session => ?_
      cases hk : session.accessKey with
      | none => exact .throw fun _ hw => hw
      | some accessKey => exact .pure fun _ hw => hw
  · refine .bind (B := fun _ => Unheard members received jobs) ?_ fun _ => ?_
    · refine ensures_calm rfl fun _ => .bind (B := fun _ => Unheard members received jobs)
        (.adapt _ (Peer.ensures_call fun w hw r w' h => ?_)) fun _ => .pure fun _ hw => hw
      exact Prog.Outcome.of_both (hw.exec_calm rfl h)
    · simp only [CommandType.tryFrom_toI32]
      refine .bind (B := fun _ => Unheard members received jobs) (ensures_calm rfl fun _ =>
        Peer.ensures_call fun w hw r w' h => ?_) fun _ => .pure fun _ hw => hw
      exact Prog.Outcome.of_both (hw.exec_calm rfl h)

theorem ensures_getStatus (n : Nat) (self : Node) (accessKey : String) :
    Prog.Ensures (x.exec n self) (Unheard members received jobs)
      (Commander.getStatus x.network.crates accessKey)
      (fun _ => Unheard members received jobs) (Unheard members received jobs) := by
  refine .bind (ensures_calm_initializeRoute n self accessKey "") fun route =>
    ensures_calm rfl fun node => Peer.ensures_call fun w hw r w' h => ?_
  obtain ⟨n, rfl⟩ := Setting.exec_succ h
  cases node with
  | client uid =>
    cases h
    exact hw
  | proxy uid =>
    exact ensures_executeStatus n uid _ _ { w with hops := w.hops ++ [uid] }
      ⟨hw.reach, hw.since, hw.received⟩ r w' h

theorem executed_arrives {depth : Nat} {uid accessKey : String} {cmd : Command}
    {r : Except Fault CommandResponse} {w w' : World}
    (hp : Reachable (Storage.start members) w.pool)
    (h : x.execute depth uid accessKey cmd w = some (r, w')) :
    Reachable (Storage.start members) w'.pool ∧ w.pool.hist.jobs <+: w'.pool.hist.jobs ∧
      ∃ new, w'.received = w.received ++ new ∧ List.Forall₂
        (fun c => Arrived x members w'.pool.hist.jobs c.1 c.2.1 c.2.2)
        (acknowledged [.executed accessKey cmd r]) new := by
  cases cmd with
  | status =>
    have hout := ensures_getStatus depth _ accessKey w ⟨hp, List.prefix_refl _, rfl⟩ r w' h
    have hw' : Unheard members w.received w.pool.hist.jobs w' := by
      cases r with
      | ok a => exact hout
      | error e => exact hout
    exact ⟨hw'.reach, hw'.since, [], by rw [hw'.received, List.append_nil], .nil⟩
  | send toUid content =>
    obtain ⟨hp', hsince, ⟨⟨e, rfl⟩, hreceived⟩ | ⟨rfl, a, hreceived, harrived⟩⟩ :=
      message_handed hp h
    · exact ⟨hp', hsince, [], by rw [hreceived, List.append_nil], .nil⟩
    · exact ⟨hp', hsince, [a], hreceived, .cons harrived .nil⟩

end

theorem acknowledged_cons (h : Handled) (hs : List Handled) :
    acknowledged (h :: hs) = acknowledged [h] ++ acknowledged hs := by
  unfold acknowledged
  rw [← List.filterMap_append, List.singleton_append]

/-- What a client is told to send, line after line and as each line is parsed, gets into the channels
in the same order, each message once if it has been acknowledged and not at all if it has not,
whatever the other requests do meanwhile. -/
theorem commands_delivered {x : Setting} {members : Table String Member} {depth : Nat}
    {uid : String} {tables : String → String} {inputs : List (String × Option String)}
    {hs : List Handled} {w w' : World} (hp : Reachable (Storage.start members) w.pool)
    (h : x.startCmdHandler depth uid tables inputs w = some (hs, w')) :
    Reachable (Storage.start members) w'.pool ∧ w.pool.hist.jobs <+: w'.pool.hist.jobs ∧
      ∃ new, w'.received = w.received ++ new ∧ List.Forall₂
        (fun c => Arrived x members w'.pool.hist.jobs c.1 c.2.1 c.2.2) (acknowledged hs) new := by
  induction inputs generalizing hs w with
  | nil =>
    cases h
    exact ⟨hp, List.prefix_refl _, [], (List.append_nil _).symm, .nil⟩
  | cons input rest ih =>
    obtain ⟨input, accessKey⟩ := input
    unfold Setting.startCmdHandler at h
    cases hcmd : Command.fromStr tables input with
    | error e =>
      rw [hcmd] at h
      obtain ⟨⟨hs', w₁⟩, hrest, he⟩ := Option.map_eq_some_iff.mp h
      cases he
      have hd := ih hp hrest
      exact hd
    | ok cmd =>
      rw [hcmd] at h
      cases accessKey with
      | none =>
        cases h
        exact ⟨hp, List.prefix_refl _, [], (List.append_nil _).symm, .nil⟩
      | some accessKey =>
        obtain ⟨⟨r, w₁⟩, hexec, hnext⟩ := Option.bind_eq_some_iff.mp h
        obtain ⟨⟨hs', w₂⟩, hrest, he⟩ := Option.map_eq_some_iff.mp hnext
        cases he
        obtain ⟨hp₁, hj₁, new₁, hr₁, ha₁⟩ := executed_arrives hp hexec
        obtain ⟨hp₂, hj₂, new₂, hr₂, ha₂⟩ := ih hp₁ hrest
        refine ⟨hp₂, hj₁.trans hj₂, new₁ ++ new₂, ?_, ?_⟩
        · rw [hr₂, hr₁, List.append_assoc]
        · rw [acknowledged_cons]
          exact List.rel_append (ha₁.imp fun _ _ => Arrived.mono hj₂) ha₂

def sampleLines : List (String × Option String) :=
  [("hello", some "k-alice"), ("/send bob hello", some "k-alice"), ("/status", some "k-alice"),
    ("/send bob again", none)]

theorem commands_delivered_sample : ∃ p : ControllerPool,
    Reachable (Storage.start sampleMembers) p ∧ ∃ hs w uid m,
      sampleSetting.startCmdHandler 5 "alice" id sampleLines (World.start p) = some (hs, w) ∧
      acknowledged hs = [("k-alice", "bob", Utf8.encode "hello")] ∧ w.received = [(uid, m)] ∧
      m.content = "hello" := by
  obtain ⟨p, hrun, hsent⟩ : ∃ p, (Pool.start (Storage.start sampleMembers) : ControllerPool).run
      (inTurn sampleSignIns) = some p ∧
        (sampleSetting.startCmdHandler 5 "alice" id sampleLines (World.start p)).map
            (fun a => acknowledged a.1) = some [("k-alice", "bob", Utf8.encode "hello")] :=
    exists_run (by decide +kernel)
  have hp := Reachable.of_run hrun
  obtain ⟨⟨hs, w⟩, hrun', hacknowledged⟩ := Option.map_eq_some_iff.mp hsent
  obtain ⟨-, -, new, hnew, harrived⟩ := commands_delivered (w := World.start p) hp hrun'
  rw [show acknowledged hs = [("k-alice", "bob", Utf8.encode "hello")] from hacknowledged]
    at harrived
  obtain ⟨a, rest, ⟨sender, sentAt, -, -, hm, -⟩, hnil, rfl⟩ :=
    List.forall₂_cons_left_iff.mp harrived
  obtain rfl := List.forall₂_nil_left_iff.mp hnil
  refine ⟨p, hp, hs, w, a.1, a.2, hrun', hacknowledged, hnew, ?_⟩
  rw [hm]
  exact Utf8.fromUtf8Lossy_encode "hello"

end FuzzyChat
