import FuzzyChat.Controller.Handlers

/-! Where the answers of the controller lead: the endpoints it hands out and the senders it tells
of. -/

namespace FuzzyChat
open Interleave

theorem Coherent.opened_eq {h : ControllerHist} (hc : Coherent h) {c u t u' t' : String}
    (ho : Opened h.jobs c u t) (ho' : Opened h.jobs c u' t') : u = u' ∧ t = t' := by
  obtain ⟨r, info, hj, he, hk, rfl, rfl⟩ := ho
  obtain ⟨r', info', hj', he', hk', rfl, rfl⟩ := ho'
  have hr : (⟨.init r, c⟩ : Job) = ⟨.init r', c⟩ :=
    hc.job_eq hj hj' (by simp [Request.draws]) rfl rfl
  obtain rfl : r = r' := by simpa using hr
  obtain rfl : info = info' := hc.enrolled_eq he he' (hk.trans hk'.symm)
  exact ⟨rfl, rfl⟩

/-- A route response leads to the recipient's client or to another proxy, and a redemption names
the session that opened the conversation, whatever else is in flight. -/
theorem no_misdelivery {members : Table String Member} {p : ControllerPool}
    (hp : Reachable (Storage.start members) p) :
    (∀ i r nonce resp, p.returned i = some (⟨.route r, nonce⟩, .ok (.route resp)) →
      ∃ info, Stored p.hist info ∧ resp.Carries info ∧
        (resp.endRoute = true → info.componentType = Component.client.toU8 ∧
          (∃ fromUid, Opened p.hist.jobs r.conversationId fromUid info.uid) ∧
          ∀ fromUid toUid, Opened p.hist.jobs r.conversationId fromUid toUid → info.uid = toUid) ∧
        (resp.endRoute = false → info.componentType = Component.proxy.toU8 ∧
          info.accessKey ≠ r.accessKey)) ∧
    (∀ i r id src, p.returned i = some (⟨.redeem r, id⟩, .ok (.redeem ⟨some src⟩)) →
      (∃ toUid, Opened p.hist.jobs r.conversationId src.fromUid toUid) ∧
        ∀ fromUid toUid, Opened p.hist.jobs r.conversationId fromUid toUid →
          src.fromUid = fromUid) := by
  obtain ⟨hc, hpost⟩ := Reach.handled (G := fun _ _ _ => True) (fun _ _ _ _ _ _ => trivial) hp
  constructor
  · intro i r nonce resp hret
    obtain ⟨_, conversation, info, hr⟩ := hpost i _ _ (Pool.returned_eq_some.mp hret)
    refine ⟨info, hr.stored, hr.carries, fun hend => ?_, hr.hop⟩
    obtain ⟨htype, huid⟩ := hr.final hend
    exact ⟨htype, ⟨_, huid ▸ hr.opened⟩, fun _ _ ho => huid.trans (hc.opened_eq hr.opened ho).2⟩
  · intro i r id src hret
    have hr : Redeemed i r ⟨some src⟩ p.hist := hpost i _ _ (Pool.returned_eq_some.mp hret)
    obtain ⟨toUid, ho⟩ := hr.source src rfl
    exact ⟨⟨toUid, ho⟩, fun _ _ ho' => (hc.opened_eq ho ho').1⟩

def bobsEndpoint (nonce : String) : RouteResponse := ⟨"10.0.0.1", 50051, [1], "bob", nonce, true⟩

theorem no_misdelivery_sample : ∃ p : ControllerPool,
    Reachable (Storage.start sampleMembers) p ∧
    p.returned 8 = some (askRoute "k-north" "n4", .ok (.route (bobsEndpoint "n4"))) ∧
    p.returned 9 = some (redeemRoute "k-bob" "n4", .ok (.redeem ⟨some ⟨"alice"⟩⟩)) ∧
    (∃ info fromUid, Stored p.hist info ∧ (bobsEndpoint "n4").Carries info ∧
      info.componentType = Component.client.toU8 ∧ Opened p.hist.jobs "c" fromUid info.uid) ∧
    ∃ toUid, Opened p.hist.jobs "c" "alice" toUid := by
  obtain ⟨p, hrun, hret⟩ : ∃ p, (Pool.start (Storage.start sampleMembers) :
      ControllerPool).run (inTurn sampleEndRedeemed) = some p ∧ (p.returned 8, p.returned 9) =
        (some (askRoute "k-north" "n4", .ok (.route (bobsEndpoint "n4"))),
          some (redeemRoute "k-bob" "n4", .ok (.redeem ⟨some ⟨"alice"⟩⟩))) := exists_run (by decide)
  obtain ⟨h8, h9⟩ := Prod.mk.inj hret
  have hp := Reachable.of_run hrun
  obtain ⟨info, hs, hcarries, hfinal, -⟩ := (no_misdelivery hp).1 8 _ _ _ h8
  obtain ⟨htype, ⟨fromUid, ho⟩, -⟩ := hfinal rfl
  exact ⟨p, hp, h8, h9, ⟨info, fromUid, hs, hcarries, htype, ho⟩,
    ((no_misdelivery hp).2 9 _ _ _ h9).1⟩

/-! Who is handed the recipient's endpoint: whoever asks when the conversation has three routes. -/

def Request.route? : Request → Option RouteRequest
  | .route r => some r
  | _ => none

/-- The step is not the deciding reading of a conversation with three routes on behalf of a session
other than a proxy's. -/
def ProxiesAskLast (p : ControllerPool) : ControllerMove → Prop
  | .spawn _ => True
  | .act i _ => ∀ t ∈ p.tasks[i]?, ∀ r ∈ t.1.request.route?,
    t.2.head? = some (.getConversation r.conversationId) →
    .getConversation r.conversationId ∈ relies t.2 →
    ∀ conversation ∈ p.state.routes.getConversation r.conversationId,
      conversation.routes.length = 3 →
      ∀ j ∈ p.hist.jobs, ∀ info ∈ j.session?, info.accessKey = r.accessKey →
        info.componentType = Component.proxy.toU8

instance (p : ControllerPool) (m : ControllerMove) : Decidable (ProxiesAskLast p m) :=
  match m with
  | .spawn _ => inferInstanceAs (Decidable True)
  | .act .. => by
    dsimp only [ProxiesAskLast]
    infer_instance

/-- Where only proxies ask for the fourth route, end routes are handed out to proxies only. -/
theorem endRoute_to_proxy {members : Table String Member} {p : ControllerPool}
    (hp : Reach ProxiesAskLast (Storage.start members) p) {i : Nat} {r : RouteRequest}
    {nonce : String} {resp : RouteResponse}
    (hret : p.returned i = some (⟨.route r, nonce⟩, .ok (.route resp)))
    (hend : resp.endRoute = true) :
    (∃ info, RequesterOf p.hist r info) ∧
      ∀ info, RequesterOf p.hist r info → info.componentType = Component.proxy.toU8 := by
  obtain ⟨hc, hpost⟩ := Reach.handled
    (G := fun h i pr => ∀ r nonce, h.jobs[i]? = some ⟨.route r, nonce⟩ →
      pr.head? = some (.getConversation r.conversationId) →
      .getConversation r.conversationId ∈ relies pr → ∀ conversation,
        h.state.routes.getConversation r.conversationId = some conversation →
        conversation.routes.length = 3 → ∀ info, RequesterOf h r info →
          info.componentType = Component.proxy.toU8)
    (by
      rintro p i c t hC ht r nonce hj hhead hrel conversation hconv hlen info ⟨⟨j, hj', hs⟩, hk⟩
      have htr : t.1 = ⟨.route r, nonce⟩ := by simpa [Pool.hist, ht] using hj
      exact hC t ht r (by rw [htr]; rfl) hhead hrel conversation hconv hlen j hj' info hs hk) hp
  obtain ⟨requester, conversation, info, hr⟩ := hpost i _ _ (Pool.returned_eq_some.mp hret)
  refine ⟨⟨requester, hr.requester⟩, fun info' hr' => ?_⟩
  obtain rfl : info' = requester :=
    hc.enrolled_eq hr'.1 hr.requester.1 (hr'.2.trans hr.requester.2.symm)
  obtain ⟨h₀, -, hd⟩ := hr.decided
  have hlen : conversation.routes.length = 3 := of_decide_eq_true (hr.endRoute.symm.trans hend)
  obtain ⟨pr, hG, hhead, hrel⟩ := hd.known
  exact hG r nonce hd.job hhead hrel conversation hd.found hlen info' hd.requester

theorem endRoute_to_proxy_sample : ∃ p : ControllerPool,
    Reach ProxiesAskLast (Storage.start sampleMembers) p ∧
    p.returned 8 = some (askRoute "k-north" "n4", .ok (.route (bobsEndpoint "n4"))) ∧
    ∃ info, RequesterOf p.hist ⟨"k-north", "c"⟩ info ∧
      info.componentType = Component.proxy.toU8 := by
  obtain ⟨p, hrun, h8⟩ : ∃ p, (Pool.start (Storage.start sampleMembers) :
      ControllerPool).run (inTurn sampleEndRedeemed) = some p ∧
        p.returned 8 = some (askRoute "k-north" "n4", .ok (.route (bobsEndpoint "n4"))) :=
    exists_run (by decide)
  have hp := Reach.start.run (C := ProxiesAskLast) (by decide) hrun
  obtain ⟨⟨info, hr⟩, hall⟩ := endRoute_to_proxy hp h8 rfl
  exact ⟨p, hp, h8, info, hr, hall info hr⟩

/-- Alice asks for all four routes herself, and is handed Bob's endpoint. -/
theorem endRoute_to_client : ¬ ∀ (members : Table String Member) (p : ControllerPool),
    Reachable (Storage.start members) p → ∀ i r nonce resp info,
      p.returned i = some (⟨.route r, nonce⟩, .ok (.route resp)) → RequesterOf p.hist r info →
        info.componentType = Component.client.toU8 → resp.endRoute = false := by
  intro hall
  obtain ⟨p, hrun, hret⟩ : ∃ p, (Pool.start (Storage.start sampleMembers) : ControllerPool).run
      (inTurn (sampleHops ++ [(askRoute "k-alice" "n4", 6)])) = some p ∧
        (p.returned 8, p.hist.jobs[3]?) =
          (some (askRoute "k-alice" "n4", .ok (.route (bobsEndpoint "n4"))),
            some (signIn "alice" 2 "k-alice")) := exists_run (by decide)
  obtain ⟨h8, h3⟩ := Prod.mk.inj hret
  have hr : RequesterOf p.hist ⟨"k-alice", "c"⟩ _ := ⟨⟨_, List.mem_of_getElem? h3, rfl⟩, rfl⟩
  exact absurd (hall _ p (Reachable.of_run hrun) 8 _ _ _ _ h8 hr rfl) (by decide)

end FuzzyChat
