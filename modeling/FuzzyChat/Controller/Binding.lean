import FuzzyChat.Controller.Redemption

/-! The conversation a nonce is redeemed for, and the one it was issued for. -/

namespace FuzzyChat
open Interleave

/-- Where the step finds the route of a nonce, the conversation asked for is stored and lists it. -/
def RedeemsListed (p : ControllerPool) : ControllerMove → Prop
  | .spawn _ => True
  | .act i _ => ∀ t ∈ p.tasks[i]?, ∀ cn ∈ t.2.head?.bind RepoOp.getRoute?,
    p.state.routes.getRoute cn.1 cn.2 ≠ none →
      ∃ route ∈ p.state.routes.listed cn.1, route.nonce = cn.2

instance (p : ControllerPool) (m : ControllerMove) : Decidable (RedeemsListed p m) :=
  match m with
  | .spawn _ => inferInstanceAs (Decidable True)
  | .act .. => by
    dsimp only [RedeemsListed]
    infer_instance

theorem Coherent.issued_eq {h : ControllerHist} (hc : Coherent h) {c c' n : String}
    (hi : Issued h c n) (hi' : Issued h c' n) : c = c' := by
  obtain ⟨i, r, -, -, hj, rfl, -⟩ := hi
  obtain ⟨i', r', -, -, hj', rfl, -⟩ := hi'
  have hr : (⟨.route r, n⟩ : Job) = ⟨.route r', n⟩ := hc.job_eq (List.mem_of_getElem? hj)
    (List.mem_of_getElem? hj') (by simp [Request.draws]) rfl rfl
  obtain rfl : r = r' := by simpa using hr
  rfl

theorem issued_of_found {members : Table String Member} {p : ControllerPool}
    (hp : Reach RedeemsListed (Storage.start members) p) {i : Nat} {pre : Storage} {c n : String}
    {route : Route} (hd : p.hist.Did i pre (.getRoute c n) (some route)) : Issued p.hist c n := by
  obtain ⟨p₀, ch, j, k, hp₀, hb, hc, ht, rfl, s, he⟩ := hp.event _ hd
  have hstep : p₀.state.step ch (.getRoute c n) = (some route, s) := Option.some.inj he
  have hfound : p₀.state.routes.getRoute c n = some route := congrArg Prod.fst hstep
  obtain ⟨listed, hm, rfl⟩ := hc _ ht (c, n) rfl (by rw [hfound]; exact nofun)
  obtain ⟨conversation, hconv, hm⟩ := RouteStore.mem_listed hm
  obtain ⟨-, -, -, hissued⟩ := (coherent_of_reach hp₀).conversation hconv
  exact (hissued listed hm).mono hb

/-- Where nonces are looked up only for conversations that list them, a redemption is for the
conversation its nonce was issued for, tells of its sender, and finalizes no other. -/
theorem redeemed_for_issued {members : Table String Member} {p : ControllerPool}
    (hp : Reach RedeemsListed (Storage.start members) p) :
    (∀ i r id resp, p.returned i = some (⟨.redeem r, id⟩, .ok (.redeem resp)) →
      Issued p.hist r.conversationId r.nonce ∧
        ∀ src c, resp.sourceInfo = some src → Issued p.hist c r.nonce →
          ∃ toUid, Opened p.hist.jobs c src.fromUid toUid) ∧
    ∀ i pre c u, p.hist.Did i pre (.removeConversation c) u →
      ∃ r id, p.hist.jobs[i]? = some ⟨.redeem r, id⟩ ∧
        ∀ c', Issued p.hist c' r.nonce ↔ c' = c := by
  obtain ⟨hco, hpost⟩ := Reach.handled (G := fun _ _ _ => True) (fun _ _ _ _ _ _ => trivial) hp
  constructor
  · intro i r id resp hret
    have hr : Redeemed i r resp p.hist := hpost i _ _ (Pool.returned_eq_some.mp hret)
    obtain ⟨pre, route, hd⟩ := hr.route
    have hissued := issued_of_found hp hd
    refine ⟨hissued, fun src c hsrc hc => ?_⟩
    rw [hco.issued_eq hc hissued]
    exact hr.source src hsrc
  · intro i pre c u hd
    obtain ⟨r, id, pre', route, hj, -, hget⟩ := hco.steps i pre _ u hd
    have hissued := issued_of_found hp hget
    refine ⟨r, id, hj, fun c' => ⟨fun hc' => hco.issued_eq hc' hissued, ?_⟩⟩
    rintro rfl
    exact hissued

theorem redeemed_for_issued_sample : ∃ p : ControllerPool,
    Reach RedeemsListed (Storage.start sampleMembers) p ∧
      p.returned 9 = some (redeemRoute "k-bob" "n4", .ok (.redeem ⟨some ⟨"alice"⟩⟩)) ∧
      Issued p.hist "c" "n4" := by
  obtain ⟨p, hrun, h9⟩ : ∃ p, (Pool.start (Storage.start sampleMembers) :
      ControllerPool).run (inTurn sampleEndRedeemed) = some p ∧
        p.returned 9 = some (redeemRoute "k-bob" "n4", .ok (.redeem ⟨some ⟨"alice"⟩⟩)) :=
    exists_run (by decide)
  have hp := Reach.start.run (C := RedeemsListed) (by decide) hrun
  exact ⟨p, hp, h9, ((redeemed_for_issued hp).1 9 _ _ _ h9).1⟩

/-- The end route issued for Alice's conversation `c` is redeemed for Bob's conversation `d`: it is
`d` that is finalized, and Bob that is told of. -/
def sampleCrossed : List (Job × Nat) :=
  sampleHops ++ [(askRoute "k-north" "n4", 6), (⟨.init ⟨"k-bob", "alice"⟩, "d"⟩, 3),
    (⟨.redeem ⟨"k-south", "d", "n4"⟩, ""⟩, 6)]

theorem redeemed_for_other : ¬ ∀ (members : Table String Member) (p : ControllerPool),
    Reachable (Storage.start members) p → ∀ i r id resp,
      p.returned i = some (⟨.redeem r, id⟩, .ok (.redeem resp)) →
        Issued p.hist r.conversationId r.nonce := by
  intro hall
  obtain ⟨p, hrun, hret⟩ : ∃ p, (Pool.start (Storage.start sampleMembers) :
      ControllerPool).run (inTurn sampleCrossed) = some p ∧ (p.returned 10, p.hist.jobs) =
        (some (⟨.redeem ⟨"k-south", "d", "n4"⟩, ""⟩, .ok (.redeem ⟨some ⟨"bob"⟩⟩)),
          sampleCrossed.map Prod.fst) := exists_run (by decide)
  obtain ⟨h10, hjobs⟩ := Prod.mk.inj hret
  obtain ⟨i, r, -, -, hj, hd, -⟩ := hall _ p (Reachable.of_run hrun) 10 _ _ _ h10
  have hm : (⟨.route r, "n4"⟩ : Job) ∈ sampleCrossed.map Prod.fst :=
    hjobs ▸ List.mem_of_getElem? hj
  simp [sampleCrossed, sampleHops, sampleSignIns, signIn, askRoute] at hm
  rw [hm] at hd
  exact absurd hd (by decide)

end FuzzyChat
