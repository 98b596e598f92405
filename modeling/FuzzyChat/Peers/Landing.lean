import FuzzyChat.Controller.Delivery
import FuzzyChat.Controller.Endpoints
import FuzzyChat.Peers.Forwarding
import FuzzyChat.Peers.Network

/-! The end of a message's way: a client takes it in, and the controller redeems its nonce. -/

namespace FuzzyChat
open Interleave Peer

/-! What a redemption at the controller comes to, by the route it finds. -/

inductive RedeemGoes (r : RedeemRequest) (es : List (Sigma RepoOp.Res)) :
    Except Abort Reply → Prop
  | hop (route : Route) (hmem : ⟨.getRoute r.conversationId r.nonce, some route⟩ ∈ es)
      (hend : route.endRoute = false) : RedeemGoes r es (.ok (.redeem ⟨none⟩))
  | final (source : SourceInfo)
      (hend : ∀ route, ⟨.getRoute r.conversationId r.nonce, some route⟩ ∈ es →
        route.endRoute = true) : RedeemGoes r es (.ok (.redeem ⟨some source⟩))
  | refused (e : Abort)
      (hend : ∀ route, ⟨.getRoute r.conversationId r.nonce, some route⟩ ∈ es →
        route.endRoute = true) : RedeemGoes r es (.error e)

theorem tells_redemption {r : RedeemRequest} {id : String} {es : List (Sigma RepoOp.Res)}
    {a : Except Abort Reply} (h : (Job.handler ⟨.redeem r, id⟩).Tells es a) :
    RedeemGoes r es a := by
  rw [handler_redeem] at h
  obtain ⟨caller, es₁, rfl, h₁⟩ := h.of_call
  cases caller with
  | none =>
    obtain ⟨rfl, rfl⟩ := h₁.of_ret
    exact .refused _ (by simp)
  | some info =>
  obtain ⟨conversation, es₂, rfl, h₂⟩ := h₁.of_call
  cases conversation with
  | none =>
    obtain ⟨rfl, rfl⟩ := h₂.of_ret
    exact .refused _ (by simp)
  | some conversation =>
  obtain ⟨found, es₃, rfl, h₃⟩ := h₂.of_call
  cases found with
  | none =>
    obtain ⟨rfl, rfl⟩ := h₃.of_ret
    exact .refused _ (by simp)
  | some route =>
  obtain ⟨⟨⟩, es₄, rfl, h₄⟩ := h₃.of_call
  cases hend : route.endRoute with
  | false =>
    simp only [hend, Bool.false_eq_true, if_false] at h₄
    obtain ⟨rfl, rfl⟩ := h₄.of_ret
    exact .hop route (by simp) hend
  | true =>
    simp only [hend, if_true] at h₄
    obtain ⟨conversation', es₅, rfl, h₅⟩ := h₄.of_call
    cases conversation' with
    | none =>
      obtain ⟨rfl, rfl⟩ := h₅.of_ret
      exact .refused _ (by simp [hend])
    | some conversation' =>
      obtain ⟨⟨⟩, es₆, rfl, h₆⟩ := h₅.of_call
      obtain ⟨rfl, rfl⟩ := h₆.of_ret
      exact .final _ (by simp [hend])

/-- Task `i` has looked the nonce up where the store held an intermediate hop under it. -/
def HopFound (p : ControllerPool) (i : Nat) (conversationId nonce : String) : Prop :=
  ∃ pre found route, p.hist.Did i pre (.getRoute conversationId nonce) found ∧
    pre.routes.getRoute conversationId nonce = some route ∧ route.endRoute = false

theorem hopFound_iff {C : ControllerPool → ControllerMove → Prop} {s₀ : Storage}
    {p : ControllerPool} (hp : Reach C s₀ p) {i : Nat} {conversationId nonce : String} :
    HopFound p i conversationId nonce ↔
      ∃ route, (⟨.getRoute conversationId nonce, some route⟩ : Sigma RepoOp.Res) ∈ p.hist.said i ∧
        route.endRoute = false := by
  have hfound : ∀ {pre found}, p.hist.Did i pre (.getRoute conversationId nonce) found →
      found = pre.routes.getRoute conversationId nonce := by
    intro pre found hd
    obtain ⟨p₀, c, -, -, rfl, hanswer⟩ := answer_of_did hp hd
    exact hanswer.symm
  constructor
  · rintro ⟨pre, found, route, hd, hroute, hend⟩
    rw [← hfound hd] at hroute
    exact ⟨route, Hist.mem_said.mpr ⟨pre, hroute ▸ hd⟩, hend⟩
  · rintro ⟨route, hs, hend⟩
    obtain ⟨pre, hd⟩ := Hist.mem_said.mp hs
    exact ⟨pre, _, route, hd, (hfound hd).symm, hend⟩

theorem redemption_returned {C : ControllerPool → ControllerMove → Prop} {s₀ : Storage}
    {p : ControllerPool} (hp : Reach C s₀ p) {i : Nat} {r : RedeemRequest} {id : String}
    {a : Except Abort Reply} (ht : p.returned i = some (⟨.redeem r, id⟩, a)) :
    (HopFound p i r.conversationId r.nonce ∧ a = .ok (.redeem ⟨none⟩)) ∨
      ¬ HopFound p i r.conversationId r.nonce ∧
        ((∃ source, a = .ok (.redeem ⟨some source⟩)) ∨ ∃ e, a = .error e) := by
  have htells : (Job.handler ⟨.redeem r, id⟩).Tells (p.hist.said i) a :=
    hp.leads i _ _ (Pool.returned_eq_some.mp ht)
  rw [hopFound_iff hp]
  cases tells_redemption htells with
  | hop route hmem hend => exact .inl ⟨⟨route, hmem, hend⟩, rfl⟩
  | final source hend =>
    exact .inr ⟨fun ⟨route, hmem, hno⟩ => by simp [hend route hmem] at hno, .inl ⟨source, rfl⟩⟩
  | refused e hend =>
    exact .inr ⟨fun ⟨route, hmem, hno⟩ => by simp [hend route hmem] at hno, .inr ⟨e, rfl⟩⟩

/-! The landing service. -/

def enqueued (said : List Exchange) : List TextMessage := said.filterMap fun
  | ⟨.channel message, true⟩ => some message
  | _ => none

def TextRequest.redeemRequest (request : TextRequest) : RedeemRequest where
  accessKey := request.accessKey
  conversationId := request.conversationId
  nonce := request.nonce

inductive Receiving (request : TextRequest) : List Exchange → Except Abort TextResponse → Prop
  | noRouter (e : Fault) (s : Status) :
      Receiving request [⟨.connectController, .error e⟩] (.error (.status s))
  | refused (a : Abort) (s : Status) :
      Receiving request [⟨.connectController, .ok ()⟩, ⟨.redeem request.redeemRequest, .error a⟩]
        (.error (.status s))
  | anonymous :
      Receiving request
        [⟨.connectController, .ok ()⟩, ⟨.redeem request.redeemRequest, .ok ⟨none⟩⟩] (.error .panic)
  | received (source : SourceInfo) (now : Nat) (isOpen : Bool) :
      Receiving request
        [⟨.connectController, .ok ()⟩, ⟨.redeem request.redeemRequest, .ok ⟨some source⟩⟩,
          ⟨.instantNow, now⟩,
          ⟨.channel (TextMessage.new source.fromUid "myself" request.content now), isOpen⟩] (.ok {})

theorem tells_receive {request : TextRequest} {said : List Exchange}
    {res : Except Abort TextResponse}
    (h : (LandingServiceImpl.receive request).run.Tells said res) : Receiving request said res := by
  obtain ⟨r, es₁, rfl, h₁⟩ := tells_ask h
  rcases tells_mapErr_bind h₁ with ⟨e, rfl, rfl, rfl⟩ | ⟨⟨⟩, rfl, h₂⟩
  · exact .noRouter e _
  obtain ⟨answer, ⟨e, rfl, rfl, rfl⟩ | ⟨⟨source⟩, es₂, rfl, rfl, h₃⟩⟩ := tells_adapted h₂
  · exact .refused e _
  cases source with
  | none =>
    obtain ⟨rfl, rfl⟩ := Prog.tells_throw h₃
    exact .anonymous
  | some source =>
    obtain ⟨now, es₃, rfl, h₄⟩ := tells_ask h₃
    obtain ⟨isOpen, es₄, rfl, h₅⟩ := tells_ask h₄
    obtain ⟨rfl, rfl⟩ := Prog.tells_pure h₅
    exact .received source now isOpen

/-- The landing service takes the request in, and the controller redeems for it as task `i`. -/
structure Lands (p : ControllerPool) (i : Nat) (request : TextRequest) (said : List Exchange)
    (res : Except Abort TextResponse) : Prop where
  told : (LandingServiceImpl.receive request).run.Tells said res
  redeemed : ∀ r a, ⟨.redeem r, a⟩ ∈ said → ∃ id out,
    p.returned i = some (⟨.redeem r, id⟩, out) ∧ a = answer Reply.redeem? out

/-- One message is put into the channel, from the initiator of the conversation, or none and the
service comes back with a status. -/
def LandsCleanly (jobs : List Job) (request : TextRequest) (said : List Exchange)
    (res : Except Abort TextResponse) : Prop :=
  (res = .ok {} ∧ ∃ fromUid toUid now, Opened jobs request.conversationId fromUid toUid ∧
    enqueued said = [TextMessage.new fromUid "myself" request.content now]) ∨
  (∃ status, res = .error (.status status)) ∧ enqueued said = []

section lands
variable {members : Table String Member} {p : ControllerPool}

theorem Lands.cleanly_iff (hp : Reachable (Storage.start members) p) {i : Nat}
    {request : TextRequest} {said : List Exchange} {res : Except Abort TextResponse}
    (h : Lands p i request said res) :
    LandsCleanly p.hist.jobs request said res ↔
      (⟨.connectController, .ok ()⟩ ∈ said →
        ¬ HopFound p i request.conversationId request.nonce) ∧
      ∀ message, ⟨.channel message, false⟩ ∉ said := by
  have hredeemed := h.redeemed
  cases tells_receive h.told with
  | noRouter e s =>
    exact ⟨fun _ => ⟨by simp, by simp⟩, fun _ => .inr ⟨⟨s, rfl⟩, rfl⟩⟩
  | refused a s =>
    refine ⟨fun _ => ⟨fun _ hhop => ?_, by simp⟩, fun _ => .inr ⟨⟨s, rfl⟩, rfl⟩⟩
    obtain ⟨id, out, hret, hanswer⟩ := hredeemed _ _ (List.mem_cons_of_mem _ List.mem_cons_self)
    rcases redemption_returned hp hret with ⟨-, rfl⟩ | ⟨hno, -⟩
    · nomatch hanswer
    · exact hno hhop
  | anonymous =>
    obtain ⟨id, out, hret, hanswer⟩ := hredeemed _ _ (List.mem_cons_of_mem _ List.mem_cons_self)
    constructor
    · rintro (⟨hres, -⟩ | ⟨⟨status, hres⟩, -⟩)
      · nomatch hres
      · nomatch hres
    · rintro ⟨hno, -⟩
      rcases redemption_returned hp hret with ⟨hhop, -⟩ | ⟨-, ⟨source, rfl⟩ | ⟨e, rfl⟩⟩
      · exact absurd hhop (hno List.mem_cons_self)
      · nomatch hanswer
      · nomatch hanswer
  | received source now isOpen =>
    obtain ⟨id, out, hret, hanswer⟩ := hredeemed _ _ (List.mem_cons_of_mem _ List.mem_cons_self)
    rcases redemption_returned hp hret with ⟨-, rfl⟩ | ⟨hno, ⟨source', rfl⟩ | ⟨e, rfl⟩⟩
    · nomatch hanswer
    · obtain rfl : source = source' := by simpa [answer, Reply.redeem?] using hanswer
      obtain ⟨⟨toUid, hopened⟩, -⟩ := (no_misdelivery hp).2 i _ _ _ hret
      cases isOpen with
      | true =>
        refine ⟨fun _ => ⟨fun _ => hno, by simp⟩, fun _ => .inl ⟨rfl, ?_⟩⟩
        exact ⟨source.fromUid, toUid, now, hopened, rfl⟩
      | false =>
        constructor
        · rintro (⟨-, fromUid, toUid, now, -, hone⟩ | ⟨⟨status, hres⟩, -⟩)
          · nomatch hone
          · nomatch hres
        · rintro ⟨-, hopen⟩
          exact absurd (by simp)
            (hopen (TextMessage.new source.fromUid "myself" request.content now))
    · nomatch hanswer

def redeemingWith (a : Except Abort RedeemResponse) (surroundings : (op : PeerOp) → op.Res) :
    (op : PeerOp) → op.Res
  | .redeem _ => a
  | op => surroundings op

/-- From every state of the controller the request lands, whatever other requests are under way. -/
theorem exists_lands (hp : Reachable (Storage.start members) p) (e : Rivals controller) (t : Nat)
    (request : TextRequest) (surroundings : (op : PeerOp) → op.Res) :
    ∃ out t' q said res,
      e.submit ⟨.redeem request.redeemRequest, ""⟩ t p = some (out, t', q) ∧
      Reachable (Storage.start members) q ∧ Lands q p.tasks.length request said res ∧
      ∀ x ∈ said, x.2 = redeemingWith (answer Reply.redeem? out) surroundings x.1 := by
  have hadmits : controller.admits (p.tasks.map Prod.fst) ⟨.redeem request.redeemRequest, ""⟩ := by
    intro j _ hdraws
    exact absurd rfl hdraws
  obtain ⟨out, t', q, hsubmit, hq, ht⟩ :=
    Rivals.submit_total (e := e) (fun _ c op s => ⟨s.step c op, rfl⟩) hp hadmits t
  obtain ⟨said, res, htells, hsaid⟩ :=
    Prog.exists_tells (redeemingWith (answer Reply.redeem? out) surroundings)
      (LandingServiceImpl.receive request).run
  refine ⟨out, t', q, said, res, hsubmit, hq, ⟨htells, ?_⟩, hsaid⟩
  intro r a hmem
  have hr : r = request.redeemRequest := by
    cases tells_receive htells with
    | noRouter e s => simp at hmem
    | refused a' s | anonymous | received source now isOpen => exact (by simpa using hmem : _ ∧ _).1
  subst hr
  exact ⟨"", out, Pool.returned_eq_some.mpr ht, hsaid _ hmem⟩

/-- From every state of the controller every request lands, and cleanly so if and only if the nonce,
where it is looked up, does not stand for an intermediate hop, and the channel is open. -/
theorem lands_cleanly_iff (hp : Reachable (Storage.start members) p) (request : TextRequest) :
    (∀ (e : Rivals controller) (t : Nat) (surroundings : (op : PeerOp) → op.Res),
      ∃ out t' q said res,
        e.submit ⟨.redeem request.redeemRequest, ""⟩ t p = some (out, t', q) ∧
        Reachable (Storage.start members) q ∧ Lands q p.tasks.length request said res ∧
        ∀ x ∈ said, x.2 = redeemingWith (answer Reply.redeem? out) surroundings x.1) ∧
    ∀ i said res, Lands p i request said res →
      (LandsCleanly p.hist.jobs request said res ↔
        (⟨.connectController, .ok ()⟩ ∈ said →
          ¬ HopFound p i request.conversationId request.nonce) ∧
        ∀ message, ⟨.channel message, false⟩ ∉ said) :=
  ⟨fun e t surroundings => exists_lands hp e t request surroundings,
    fun _ _ _ h => h.cleanly_iff hp⟩

end lands

def bobsRequest (nonce : String) : TextRequest := ⟨"c", "k-bob", nonce, [104, 105]⟩

def bobReceives (nonce : String) (fromUid : String) : List Exchange :=
  [⟨.connectController, .ok ()⟩,
    ⟨.redeem (bobsRequest nonce).redeemRequest, .ok ⟨some ⟨fromUid⟩⟩⟩, ⟨.instantNow, 0⟩,
    ⟨.channel (TextMessage.new fromUid "myself" [104, 105] 0), true⟩]

theorem lands_cleanly_iff_sample : ∃ p : ControllerPool,
    Reachable (Storage.start sampleMembers) p ∧
      LandsCleanly p.hist.jobs (bobsRequest "n4") (bobReceives "n4" "alice") (.ok {}) := by
  obtain ⟨p, hrun, h9⟩ : ∃ p, (Pool.start (Storage.start sampleMembers) :
      ControllerPool).run (inTurn sampleEndRedeemed) = some p ∧
        p.returned 9 = some (redeemRoute "k-bob" "n4", .ok (.redeem ⟨some ⟨"alice"⟩⟩)) :=
    exists_run (by decide)
  have hp := Reachable.of_run hrun
  have hlands : Lands p 9 (bobsRequest "n4") (bobReceives "n4" "alice") (.ok {}) := by
    refine ⟨.step (.step (.step (.step (.done _)))), fun r a hmem => ?_⟩
    obtain ⟨rfl, rfl⟩ : r = (bobsRequest "n4").redeemRequest ∧ a = .ok ⟨some ⟨"alice"⟩⟩ := by
      simpa [bobReceives] using hmem
    exact ⟨"", _, h9, rfl⟩
  refine ⟨p, hp, ((lands_cleanly_iff hp (bobsRequest "n4")).2 9 _ _ hlands).mpr ⟨fun _ => ?_, ?_⟩⟩
  · rcases redemption_returned hp h9 with ⟨-, hnone⟩ | ⟨hno, -⟩
    · nomatch hnone
    · exact hno
  · simp [bobReceives]

/-- Sent to Bob with the nonce of a hop, a message makes his client panic. -/
theorem hop_nonce_panics : ¬ ∀ (members : Table String Member) (p : ControllerPool),
    Reachable (Storage.start members) p → ∀ request i said res,
      Lands p i request said res → LandsCleanly p.hist.jobs request said res := by
  intro hall
  obtain ⟨p, hrun, h8⟩ : ∃ p, (Pool.start (Storage.start sampleMembers) : ControllerPool).run
      (inTurn (sampleHops ++ [(redeemRoute "k-bob" "n1", 4)])) = some p ∧
        p.returned 8 = some (redeemRoute "k-bob" "n1", .ok (.redeem ⟨none⟩)) :=
    exists_run (by decide)
  have hlands : Lands p 8 (bobsRequest "n1") [⟨.connectController, .ok ()⟩,
      ⟨.redeem (bobsRequest "n1").redeemRequest, .ok ⟨none⟩⟩] (.error .panic) := by
    refine ⟨.step (.step (.done _)), fun r a hmem => ?_⟩
    obtain ⟨rfl, rfl⟩ : r = (bobsRequest "n1").redeemRequest ∧ a = .ok ⟨none⟩ := by
      simpa using hmem
    exact ⟨"", _, h8, rfl⟩
  rcases hall _ p (Reachable.of_run hrun) _ _ _ _ hlands with ⟨hok, -⟩ | ⟨⟨status, herr⟩, -⟩
  · nomatch hok
  · nomatch herr

end FuzzyChat
