import FuzzyChat.Controller.Handlers
import FuzzyChat.Peers.Relay

/-! A message sent by a client arrives, over three proxies, at the client it is for. -/

namespace FuzzyChat
open Interleave

section
variable {x : Setting} {d : Parties} {s₀ : Storage} {g : Progress} {hops : List String}
  {received : List (String × TextMessage)}

def Progress.start : Progress := ⟨0, none, fun _ => none, fun _ => False⟩

variable (hu : Undisturbed x d s₀) (hids : Function.Injective x.ids)
include hu hids

theorem init_at (hto : d.toUid ≠ "") {w : World} (hw : At x d s₀ .start hops received w) :
    ∃ g w', x.call (.init ⟨d.sender.accessKey, d.toUid⟩) Reply.init? w =
        some (.ok ⟨x.ids 0⟩, w') ∧ Between d 0 g ∧ At x d s₀ g hops received w' := by
  have hcall := call_at hids (.init ⟨d.sender.accessKey, d.toUid⟩) Reply.init?
    (fun r g' => r = .ok ⟨x.ids 0⟩ ∧ Between d 0 g')
    (fun i => served_init (g := Progress.start.drew _) hu rfl hto) (fun a h hq => ?_) hw
  · obtain ⟨r, g', w', hc, ⟨rfl, hb⟩, hw'⟩ := hcall
    exact ⟨g', w', hc, hb, hw'⟩
  · obtain ⟨rfl, hs⟩ := hq
    refine ⟨(Progress.start.drew _).opened _, ⟨rfl, ?_⟩, rfl, hs⟩
    exact ⟨rfl, ⟨_, rfl, ⟨rfl, rfl, rfl⟩, rfl⟩, fun _ => rfl⟩

variable (hnet : x.network.dialController = .ok ())
include hnet

theorem returns_initializeRoute (depth : Nat) {self : Node} (hto : d.toUid ≠ "") :
    Prog.Returns (x.exec (depth + 1) self) (At x d s₀ .start hops received)
      (Commander.initializeRoute x.network.crates d.sender.accessKey d.toUid) fun route w =>
        ∃ uid g, (route.conversationId = x.ids 0 ∧ route.nonce = x.ids 1 ∧
          x.network.dial route.uri route.publicKey route.domainName = .ok (.proxy uid) ∧
          InTransit d 0 uid g) ∧ At x d s₀ g hops received w := by
  refine Peer.returns_call_bind (B := fun _ => At x d s₀ .start hops received)
    (fun w hw => ⟨_, (), w, rfl, hnet, hw⟩) fun _ => ?_
  refine .bind (B := fun r w => ∃ g, (r = ⟨x.ids 0⟩ ∧ Between d 0 g) ∧
    At x d s₀ g hops received w) (Peer.returns_call fun w hw => ?_) fun r => .exists fun g =>
      .of_imp fun hr => ?_
  · obtain ⟨g, w', hc, hb, hw'⟩ := init_at hu hids hto hw
    exact ⟨_, _, w', hc, rfl, g, ⟨rfl, hb⟩, hw'⟩
  · obtain ⟨rfl, hb⟩ := hr
    refine .bind (B := fun r w => ∃ g, (∃ info uid, r = routeTo (x.ids 1) info false ∧
      x.network.Reaches info (.proxy uid) ∧ InTransit d 0 uid g) ∧ At x d s₀ g hops received w)
      (Peer.returns_call fun w hw => ?_) fun r => .exists fun g => .of_imp fun hr => ?_
    · have hk : Admitted x d g d.sender.accessKey := fun _ hs _ => ⟨_, hs.sender⟩
      obtain ⟨info, uid, g', w', hc, hr, ht, hw'⟩ := hop_at hu hids hk (by omega) hb hw
      exact ⟨_, _, w', hc, rfl, g', ⟨info, uid, rfl, hr, ht⟩, hw'⟩
    · obtain ⟨info, uid, rfl, ⟨uri, huri, hdial⟩, ht⟩ := hr
      simp only [routeTo, huri, Peer.mapErr, pure_bind]
      exact .pure fun w hw => ⟨uid, g, ⟨rfl, rfl, hdial, ht⟩, hw⟩

theorem returns_sendMessage (n : Nat) {self : Node} (hto : d.toUid ≠ "") (content : List UInt8) :
    Prog.Returns (x.exec (n + 5) self) (At x d s₀ .start hops received)
      (Commander.sendMessage x.network.crates d.sender.accessKey d.toUid content)
      (Forwards x d s₀ content received hops 3) := by
  refine .bind (returns_initializeRoute hu hids hnet (n + 4) hto) fun route => .exists fun uid =>
    .exists fun g => .of_imp fun hr => ?_
  obtain ⟨hc, hn, hdial, ht⟩ := hr
  refine Peer.returns_call_bind (B := fun a w => a = .proxy uid ∧ At x d s₀ g hops received w)
    (fun w hw => ⟨_, _, w, rfl, hdial, rfl, hw⟩) fun node => .of_imp fun hnode => ?_
  subst hnode
  rw [hc, hn]
  exact sendCommand_at (returns_executeCommand n hu hids hnet content 2 rfl ht)

end
/-- What is taken for granted when a message is sent: two proxies are listed, each listed one runs
with its listed key and can be reached, as can the recipient and the controller, and the identifiers
to come are new. -/
structure Ready (x : Setting) (d : Parties) (p : ControllerPool) : Prop where
  controller : x.network.dialController = .ok ()
  client : x.network.Reaches d.recipient (.client d.toUid)
  proxies : ∀ uid k, p.state.sessions.proxies.lookup uid = some k →
    Running x.network p.state.sessions uid k
  two : ∃ uid uid', uid ≠ uid' ∧ p.state.sessions.proxies.lookup uid ≠ none ∧
    p.state.sessions.proxies.lookup uid' ≠ none
  apart : Function.Injective x.ids
  fresh : ∀ j ∈ p.hist.jobs, j.request.draws ≠ none → ∀ n, j.id ≠ x.ids n

theorem Ready.scene {members : Table String Member} {p : ControllerPool}
    (hp : Reachable (Storage.start members) p) {x : Setting} {d : Parties} (hr : Ready x d p)
    (ha : p.state.sessions.sessionOf d.sender.accessKey = some d.sender)
    (hb : p.state.sessions.getClient d.toUid = some d.recipient) :
    Scene x.network d p.state.sessions := by
  have hco := coherent_of_reach hp
  obtain ⟨k, hk, hs⟩ := Option.bind_eq_some_iff.mp hb
  obtain ⟨hkey, -⟩ := hco.session hs
  refine ⟨ha, hkey ▸ hk, hkey ▸ hs, hr.client, hr.proxies, ?_⟩
  obtain ⟨uid, uid', hne, h₁, h₂⟩ := hr.two
  obtain ⟨k₁, h₁⟩ := Option.ne_none_iff_exists'.mp h₁
  obtain ⟨k₂, h₂⟩ := Option.ne_none_iff_exists'.mp h₂
  refine ⟨uid, uid', k₁, k₂, fun he => hne ?_, h₁, h₂⟩
  -- one key is stored with one uid
  obtain ⟨info, hinfo, -⟩ := (hr.proxies uid k₁ h₁).stored
  obtain ⟨-, huid, -⟩ := hco.indexed (t := .proxy) h₁ hinfo
  obtain ⟨-, huid', -⟩ := hco.indexed (t := .proxy) (he ▸ h₂) hinfo
  exact huid.symm.trans huid'

/-- A message sent to a client that can be found is put into that client's channel once, under the
sender's uid and unchanged, after exactly three hops; nothing of its conversation stays behind. -/
theorem message_delivered {members : Table String Member} {p : ControllerPool}
    (hp : Reachable (Storage.start members) p) {x : Setting} {d : Parties} (hr : Ready x d p)
    (ha : p.state.sessions.sessionOf d.sender.accessKey = some d.sender)
    (hb : p.state.sessions.getClient d.toUid = some d.recipient)
    (hu : Undisturbed x d (Storage.start members)) (message : String) (n : Nat) :
    ∃ w, x.sendMessage (n + 5) d.sender d.toUid (Utf8.encode message) (World.start p) =
        some (.ok ⟨some "Message sent"⟩, w) ∧
      w.hops.length = 3 ∧
      (∃ m, w.received = [(d.toUid, m)] ∧ m.fromUid = d.sender.uid ∧ m.content = message) ∧
      w.drawn = 5 ∧ w.pool.state.routes.getConversation (x.ids 0) = none ∧
      (∀ i, w.pool.state.routes.routes.lookup (x.ids (i + 1)) = none) ∧
      Reachable (Storage.start members) w.pool := by
  have hco := coherent_of_reach hp
  have hto : d.toUid ≠ "" := by
    intro he
    obtain ⟨k, hk, -⟩ := Option.bind_eq_some_iff.mp hb
    obtain ⟨info, ⟨j, -, hj⟩, -, huid, htype⟩ := hco.index .client _ k hk
    exact absurd (htype.symm.trans ((Job.session?_eq_some hj).2.2 (huid.trans he))) (by decide)
  have hconv : p.state.routes.getConversation (x.ids 0) = none := by
    by_contra hne
    obtain ⟨v, hv⟩ := Option.ne_none_iff_exists'.mp hne
    obtain ⟨-, -, ⟨r, -, hj, -⟩, -⟩ := hco.conversation hv
    exact hr.fresh _ hj (by simp [Request.draws]) 0 rfl
  have hroutes : ∀ i, p.state.routes.routes.lookup (x.ids (i + 1)) = none := by
    intro i
    by_contra hne
    obtain ⟨w, hw⟩ := Option.ne_none_iff_exists'.mp hne
    obtain ⟨r, hj⟩ := stored_drawn hp hw
    exact hr.fresh _ hj (by simp [Request.draws]) (i + 1) rfl
  have hstage : Stage x d .start p.hist :=
    ⟨hr.scene hp ha hb, fun _ h => h.elim, hconv, fun i _ => congrArg _ (hroutes i),
      fun j hj hd i _ => hr.fresh j hj hd i⟩
  have hat : At x d (Storage.start members) .start [] [] (World.start p) :=
    ⟨hp, rfl, hstage, rfl, rfl⟩
  obtain ⟨a, w, hrun, rfl, more, hmore, hd⟩ :=
    returns_sendMessage hu hr.apart hr.controller n hto (Utf8.encode message) _ hat
  obtain ⟨sentAt, hrec⟩ := hd.received
  refine ⟨w, hrun, by rw [hd.hops]; exact hmore, ⟨_, hrec, rfl, Utf8.fromUtf8Lossy_encode _⟩,
    hd.drawn, hd.conversation, fun i => Option.map_eq_none_iff.mp (hd.routes i ""), hd.reach⟩

theorem undisturbed_of_idle {x : Setting} (h : ∀ t p, x.rivals.moves t p = []) (d : Parties)
    (s₀ : Storage) : Undisturbed x d s₀ := by
  intro i t p _ hs
  have hplay : x.rivals.play i t p = p := by rw [Rivals.play, h]; rfl
  rw [hplay]
  exact ⟨hs, fun _ _ hk => hk, rfl, fun _ => rfl, fun _ hj => .inl hj⟩

def sampleNetwork : Network where
  crates := ⟨fun text => some ⟨text⟩, fun _ => "", fun _ => ""⟩
  dialController := .ok ()
  dial _ _ domainName :=
    .ok (if domainName = "bob" then .client domainName else .proxy domainName)
  clientSession
    | .proxy uid | .client uid => ⟨some ("k-" ++ uid), some uid⟩
  refusal := .panic

def sampleSetting : Setting where
  network := sampleNetwork
  rivals := ⟨fun _ _ => [], fun _ _ => ⟨0, 0⟩⟩
  ids n := String.ofList (List.replicate (n + 1) 'i')

def sampleSession (uid : String) (componentType : Component) : SessionInfo :=
  SessionManager.sessionInfo ("k-" ++ uid) uid componentType ⟨"10.0.0.1", 40000⟩
    ⟨"10.0.0.1", 50051, uid, [1]⟩

def sampleParties : Parties :=
  ⟨sampleSession "alice" .client, "bob", sampleSession "bob" .client⟩

theorem sampleSetting_apart : Function.Injective sampleSetting.ids := by
  intro n m h
  have hl := congrArg List.length (String.ofList_inj.mp h)
  simpa using hl

theorem message_delivered_sample : ∃ p : ControllerPool,
    Reachable (Storage.start sampleMembers) p ∧ Ready sampleSetting sampleParties p ∧
    ∃ w, sampleSetting.sendMessage 5 sampleParties.sender "bob" (Utf8.encode "hello")
        (World.start p) = some (.ok ⟨some "Message sent"⟩, w) ∧ w.hops.length = 3 ∧
      ∃ m, w.received = [("bob", m)] ∧ m.fromUid = "alice" ∧ m.content = "hello" := by
  obtain ⟨p, hrun, hf⟩ : ∃ p, (Pool.start (Storage.start sampleMembers) : ControllerPool).run
      (inTurn sampleSignIns) = some p ∧ decide
        ((p.state.sessions.sessionOf "k-alice" = some sampleParties.sender ∧
          p.state.sessions.getClient "bob" = some sampleParties.recipient) ∧
        p.state.sessions.proxies.keys = ["south", "north"] ∧
        (∀ uid ∈ ["north", "south"], p.state.sessions.proxies.lookup uid = some ("k-" ++ uid) ∧
          p.state.sessions.sessionOf ("k-" ++ uid) = some (sampleSession uid .proxy)) ∧
        ∀ t ∈ p.tasks, t.1.id.toList.head? ≠ some 'i') = true := exists_run (by decide)
  obtain ⟨⟨ha, hb⟩, hkeys, hproxies, hids⟩ := of_decide_eq_true hf
  obtain ⟨hln, hsn⟩ := hproxies "north" (by decide)
  obtain ⟨hls, hss⟩ := hproxies "south" (by decide)
  have hp := Reachable.of_run hrun
  have hready : Ready sampleSetting sampleParties p := by
    constructor
    case controller => rfl
    case client => exact ⟨⟨_⟩, rfl, rfl⟩
    case proxies =>
      intro uid k hk
      have hmem : uid ∈ p.state.sessions.proxies.keys :=
        AList.mem_keys.mp (AList.lookup_isSome.mp (by rw [hk]; rfl))
      rw [hkeys, List.mem_cons, List.mem_singleton] at hmem
      rcases hmem with rfl | rfl
      · obtain rfl := Option.some.inj (hls.symm.trans hk)
        exact ⟨rfl, _, hss, ⟨_⟩, rfl, rfl⟩
      · obtain rfl := Option.some.inj (hln.symm.trans hk)
        exact ⟨rfl, _, hsn, ⟨_⟩, rfl, rfl⟩
    case two => exact ⟨"north", "south", by decide, by simp [hln], by simp [hls]⟩
    case apart => exact sampleSetting_apart
    case fresh =>
      -- the signing in has drawn no identifier that starts like those of the delivery
      intro j hj _ n
      obtain ⟨t, ht, rfl⟩ := List.mem_map.mp hj
      intro he
      have hhead := hids t ht
      rw [he] at hhead
      simp [sampleSetting, List.replicate_succ] at hhead
  obtain ⟨w, hrun', hhops, hm, -⟩ := message_delivered hp hready ha hb
    (undisturbed_of_idle (fun _ _ => rfl) _ _) "hello" 0
  exact ⟨p, hp, hready, w, hrun', hhops, hm⟩

end FuzzyChat
