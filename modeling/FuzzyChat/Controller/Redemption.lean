import FuzzyChat.Controller.Shapes
import FuzzyChat.Controller.Handlers
import FuzzyChat.Interleave.Trace

/-! The redemption of nonces: how often one is redeemed, and for which conversation. -/

namespace FuzzyChat
open Interleave

def RepoOp.getRoute? : RepoOp → Option (String × String)
  | .getRoute c n => some (c, n)
  | _ => none

/-- What `redeem` does until it is told what `redeem_route` returns. -/
def RouteService.redeemRoute (request : RedeemRequest) : Handler (Option Route) := do
  guards.checkSession request.accessKey
  guards.checkConversation request.conversationId
  RouteManager.redeemRoute request.conversationId request.nonce

/-- `redeem_route` has returned `Some` to task `i`, called with the nonce. -/
def redeems (h : ControllerHist) (n : String) (i : Nat) : Bool :=
  match h.jobs[i]? with
  | some ⟨.redeem r, _⟩ => r.nonce = n &&
    ((RouteService.redeemRoute r).run.replay (h.said i)).any fun
      | .ok (some _) => true
      | _ => false
  | _ => false

/-- How often the nonce has been redeemed. -/
def redemptions (h : ControllerHist) (n : String) : Nat :=
  ((Finset.range h.jobs.length).filter fun i => redeems h n i).card

def removals (h : ControllerHist) (n : String) : Nat :=
  h.log.countP fun e => e.op = .removeRoute n

/-- Where the step finds the route of a nonce, no task is about to remove it. -/
def RedeemsAlone (p : ControllerPool) : ControllerMove → Prop
  | .spawn _ => True
  | .act i _ => ∀ t ∈ p.tasks[i]?, ∀ cn ∈ t.2.head?.bind RepoOp.getRoute?,
    p.state.routes.getRoute cn.1 cn.2 ≠ none →
      ∀ t' ∈ p.tasks, t'.2.head? ≠ some (.removeRoute cn.2)

instance (p : ControllerPool) (m : ControllerMove) : Decidable (RedeemsAlone p m) :=
  match m with
  | .spawn _ => inferInstanceAs (Decidable True)
  | .act .. => by
    dsimp only [RedeemsAlone]
    infer_instance

def Owes (p : ControllerPool) (i : Nat) (n : String) : Prop :=
  ∃ t, p.tasks[i]? = some t ∧ t.2.head? = some (.removeRoute n)

def Drew (p : ControllerPool) (i : Nat) (n : String) : Prop :=
  ∃ t, p.tasks[i]? = some t ∧ t.1.request.draws = some .nonce ∧ t.1.id = n ∧ t.2.head? = none

def Used (p : ControllerPool) (n : String) : Prop :=
  p.state.routes.routes.lookup n ≠ none ∨ removals p.hist n ≠ 0 ∨ ∃ i, Owes p i n

structure Single (p : ControllerPool) (n : String) : Prop where
  once : removals p.hist n ≤ 1
  spent : p.state.routes.routes.lookup n ≠ none → removals p.hist n = 0
  owed : ∀ i, Owes p i n → removals p.hist n = 0 ∧ ∀ i', Owes p i' n → i' = i
  drawn : Used p n → ∃ i, Drew p i n

theorem removals_record (h : ControllerHist) (i : Nat) (op : RepoOp) (r : op.Res) (s : Storage)
    (n : String) : removals (h.record i op r s) n =
      removals h n + if op = .removeRoute n then 1 else 0 := by
  simp [removals, Hist.record, List.countP_cons]

theorem single_start (s : Storage) (hs : s.routes = RouteStore.empty) (n : String) :
    Single (Pool.start s) n where
  once := Nat.zero_le 1
  spent _ := rfl
  owed i ho := let ⟨_, ht, _⟩ := ho; nomatch ht
  drawn hu := by
    rcases hu with h | h | ⟨i, t, ht, -⟩
    · simp [Pool.start, hs, RouteStore.empty] at h
    · exact absurd rfl h
    · nomatch ht

theorem single_accept {p : ControllerPool} {n : String} (hs : Single p n) (j : Job) :
    Single (p.accept j) n := by
  have howes : ∀ {i}, Owes (p.accept j) i n → Owes p i n := by
    rintro i ⟨t, ht, hh⟩
    rcases Pool.tasks_accept.mp ht with ht | ⟨-, rfl⟩
    · exact ⟨t, ht, hh⟩
    · exact absurd hh ((quiet_handler j).head n)
  refine ⟨hs.once, hs.spent, fun i ho => ?_, fun hu => ?_⟩
  · obtain ⟨h0, huniq⟩ := hs.owed i (howes ho)
    exact ⟨h0, fun i' ho' => huniq i' (howes ho')⟩
  · have hu' : Used p n := hu.imp_right fun h => h.imp_right fun ⟨i, ho⟩ => ⟨i, howes ho⟩
    obtain ⟨i, t, ht, hx⟩ := hs.drawn hu'
    exact ⟨i, t, Pool.tasks_accept.mpr (.inl ht), hx⟩

section advance
variable {p : ControllerPool} {n : String} {i : Nat} {c : Choice} {j : Job} {op : RepoOp}
  {k : op.Res → Program} {r : op.Res} {s : Storage}

theorem owes_advance (ht : p.tasks[i]? = some (j, .call op k)) {i' : Nat} :
    Owes (p.advance (S := controller) i j op k r s) i' n ↔
      i' = i ∧ (k r).head? = some (.removeRoute n) ∨ i' ≠ i ∧ Owes p i' n := by
  constructor
  · rintro ⟨t, ht', hh⟩
    rcases (Pool.tasks_advance ht).mp ht' with ⟨rfl, rfl⟩ | ⟨hne, hold⟩
    · exact .inl ⟨rfl, hh⟩
    · exact .inr ⟨hne, t, hold, hh⟩
  · rintro (⟨rfl, hh⟩ | ⟨hne, t, hold, hh⟩)
    · exact ⟨_, (Pool.tasks_advance ht).mpr (.inl ⟨rfl, rfl⟩), hh⟩
    · exact ⟨t, (Pool.tasks_advance ht).mpr (.inr ⟨hne, hold⟩), hh⟩

theorem Drew.ne (ht : p.tasks[i]? = some (j, .call op k)) {i₀ : Nat} (hd : Drew p i₀ n) :
    i₀ ≠ i := by
  obtain ⟨t, ht₀, -, -, hh⟩ := hd
  rintro rfl
  cases ht.symm.trans ht₀
  nomatch hh

theorem Drew.advance (ht : p.tasks[i]? = some (j, .call op k)) {i₀ : Nat} (hd : Drew p i₀ n) :
    Drew (p.advance (S := controller) i j op k r s) i₀ n := by
  have hne := hd.ne ht
  obtain ⟨t, ht₀, hx⟩ := hd
  exact ⟨t, (Pool.tasks_advance ht).mpr (.inr ⟨hne, ht₀⟩), hx⟩

theorem removals_advance (ht : p.tasks[i]? = some (j, .call op k)) :
    removals (p.advance (S := controller) i j op k r s).hist n =
      removals p.hist n + if op = .removeRoute n then 1 else 0 := by
  rw [Pool.hist_advance ht, removals_record]

theorem single_remove {k : Unit → Program} (hs : Single p n)
    (ht : p.tasks[i]? = some (j, .call (.removeRoute n) k))
    (hshape : Shape j (.removeRoute n) k) :
    Single (p.advance (S := controller) i j (.removeRoute n) k ()
      (p.state.step c (.removeRoute n)).2) n := by
  obtain ⟨h0, huniq⟩ := hs.owed i ⟨_, ht, rfl⟩
  have hnone : ∀ i', ¬ Owes (p.advance (S := controller) i j (.removeRoute n) k ()
      (p.state.step c (.removeRoute n)).2) i' n := by
    intro i' ho
    rcases (owes_advance ht).mp ho with ⟨-, hh⟩ | ⟨hne, ho⟩
    · nomatch hshape.removes () n hh
    · exact hne (huniq i' ho)
  refine ⟨?_, fun h => ?_, fun i' ho => absurd ho (hnone i'), fun _ => ?_⟩
  · rw [removals_advance ht, h0, if_pos rfl]
  · exact absurd (AList.lookup_erase ..) h
  · obtain ⟨i₀, hd⟩ := hs.drawn (.inr (.inr ⟨i, _, ht, rfl⟩))
    exact ⟨i₀, hd.advance ht⟩

theorem unused_of_store (hs : Single p n) (hco : Coherent p.hist)
    (ht : p.tasks[i]? = some (j, .call op k)) (hshape : Shape j op k) {id : String} {route : Route}
    (ho : op = .setRoute id route) (hn : n = route.nonce) : ¬ Used p n := by
  intro hu
  obtain ⟨hd, hid, -⟩ := hshape.stores id route ho
  obtain ⟨i₀, hdrew⟩ := hs.drawn hu
  have hne := hdrew.ne ht
  obtain ⟨t₀, ht₀, hd₀, hid₀, -⟩ := hdrew
  have hjob₀ : p.hist.jobs[i₀]? = some t₀.1 := by simp [Pool.hist, ht₀]
  have hjob : p.hist.jobs[i]? = some j := by simp [Pool.hist, ht]
  have hsame : i₀ = i := by
    apply hco.task_eq hjob₀ hjob
    · simp [hd₀]
    · rw [hd₀, hd]
    · rw [hid₀, hid, hn]
  exact hne hsame

theorem found_of_head (ht : p.tasks[i]? = some (j, .call op k)) (hshape : Shape j op k)
    (halone : RedeemsAlone p (.act i c))
    (hh : (k (p.state.step c op).1).head? = some (.removeRoute n)) :
    p.state.routes.routes.lookup n ≠ none ∧ ∀ i', ¬ Owes p i' n := by
  have hf := hshape.removes _ n hh
  cases op with
  | getRoute id n' =>
    rw [Storage.step_getRoute] at hf
    cases hget : p.state.routes.getRoute id n' with
    | none => rw [hget] at hf; nomatch hf
    | some route =>
      rw [hget] at hf
      obtain rfl : n' = n := Option.some.inj hf
      obtain ⟨w, hw, -⟩ := Option.map_eq_some_iff.mp hget
      have hno := halone _ ht (id, n') rfl (by simp [hget])
      exact ⟨by simp [hw], fun i' ⟨t, ht', hh'⟩ => hno t (List.mem_of_getElem? ht') hh'⟩
  | _ => nomatch hf

theorem single_other (hs : Single p n) (hco : Coherent p.hist)
    (ht : p.tasks[i]? = some (j, .call op k)) (hshape : Shape j op k)
    (halone : RedeemsAlone p (.act i c)) (hop : op ≠ .removeRoute n) :
    Single (p.advance (S := controller) i j op k (p.state.step c op).1 (p.state.step c op).2) n := by
  have hred : removals (p.advance (S := controller) i j op k (p.state.step c op).1
      (p.state.step c op).2).hist n = removals p.hist n := by
    rw [removals_advance ht, if_neg hop, Nat.add_zero]
  have hstored : ∀ {w}, (p.state.step c op).2.routes.routes.lookup n = some w →
      p.state.routes.routes.lookup n ≠ none ∨
        ∃ id route, op = .setRoute id route ∧ n = route.nonce := by
    intro w hw
    rcases Storage.lookup_route_step hw with hw | ⟨id, ho, hn⟩
    · exact .inl (by simp [hw])
    · exact .inr ⟨id, _, ho, hn⟩
  refine ⟨hred ▸ hs.once, fun h => ?_, fun i' ho => ?_, fun hu => ?_⟩
  · rw [hred]
    obtain ⟨w, hw⟩ := Option.ne_none_iff_exists'.mp h
    rcases hstored hw with hold | ⟨id, route, ho, hn⟩
    · exact hs.spent hold
    · by_contra hne
      exact unused_of_store hs hco ht hshape ho hn (.inr (.inl hne))
  · rw [hred]
    rcases (owes_advance ht).mp ho with ⟨rfl, hh⟩ | ⟨-, hold⟩
    · obtain ⟨hold, hno⟩ := found_of_head ht hshape halone hh
      refine ⟨hs.spent hold, fun i'' ho' => ?_⟩
      rcases (owes_advance ht).mp ho' with ⟨rfl, -⟩ | ⟨-, ho'⟩
      · rfl
      · exact absurd ho' (hno i'')
    · obtain ⟨h0, huniq⟩ := hs.owed i' hold
      refine ⟨h0, fun i'' ho' => ?_⟩
      rcases (owes_advance ht).mp ho' with ⟨rfl, hh⟩ | ⟨-, ho'⟩
      · exact absurd hold ((found_of_head ht hshape halone hh).2 i')
      · exact huniq i'' ho'
  · have hused : Used p n ∨ ∃ id route, op = .setRoute id route ∧ n = route.nonce := by
      rcases hu with h | h | ⟨i', ho⟩
      · obtain ⟨w, hw⟩ := Option.ne_none_iff_exists'.mp h
        exact (hstored hw).imp_left .inl
      · exact .inl (.inr (.inl (hred ▸ h)))
      · rcases (owes_advance ht).mp ho with ⟨-, hh⟩ | ⟨-, ho⟩
        · exact .inl (.inl (found_of_head ht hshape halone hh).1)
        · exact .inl (.inr (.inr ⟨i', ho⟩))
    rcases hused with hused | ⟨id, route, ho, hn⟩
    · obtain ⟨i₀, hd⟩ := hs.drawn hused
      exact ⟨i₀, hd.advance ht⟩
    · obtain ⟨hd, hid, hend⟩ := hshape.stores id route ho
      exact ⟨i, _, (Pool.tasks_advance ht).mpr (.inl ⟨rfl, rfl⟩), hd, hid.trans hn.symm, hend _⟩

end advance

theorem single {members : Table String Member} {p : ControllerPool}
    (hp : Reach RedeemsAlone (Storage.start members) p) (n : String) : Single p n := by
  induction hp with
  | start => exact single_start _ rfl n
  | @step p q m hp hc hq ih =>
    rcases controller_step hq with ⟨j, rfl, rfl⟩ | ⟨i, c, j, op, k, rfl, ht, rfl⟩
    · exact single_accept ih j
    · have hshape := (hp.all all_handler i j _ ht).1
      by_cases hop : op = .removeRoute n
      · subst hop
        exact single_remove ih ht hshape
      · exact single_other ih (coherent_of_reach hp) ht hshape hc hop

theorem removed_by {h : ControllerHist} {n : String} (hone : removals h n ≤ 1) {i i' : Nat}
    {pre pre' : Storage} (hd : h.Did i pre (.removeRoute n) ())
    (hd' : h.Did i' pre' (.removeRoute n) ()) : i = i' := by
  obtain ⟨newer, older, hlog⟩ := List.append_of_mem hd
  by_contra hne
  have hother : 0 < newer.countP (fun e => e.op = .removeRoute n) +
      older.countP fun e => e.op = .removeRoute n := by
    rw [← List.countP_append, List.countP_pos_iff]
    have hmem : (⟨i', pre', .removeRoute n, ()⟩ : Event controller) ∈
        newer ++ ⟨i, pre, .removeRoute n, ()⟩ :: older := hlog ▸ hd'
    refine ⟨⟨i', pre', .removeRoute n, ()⟩, ?_, decide_eq_true rfl⟩
    rcases List.mem_append.mp hmem with hn | ho
    · exact List.mem_append_left _ hn
    · rcases List.mem_cons.mp ho with he | ho
      · exact absurd (congrArg Event.task he).symm hne
      · exact List.mem_append_right _ ho
  have hsum : removals h n = newer.countP (fun e => e.op = .removeRoute n) +
      (older.countP (fun e => e.op = .removeRoute n) + 1) := by
    rw [removals, hlog, List.countP_append, List.countP_cons]
    simp
  omega

theorem redeem_eq (r : RedeemRequest) :
    RouteService.redeem r = RouteService.redeemRoute r >>= fun
      | some route =>
        if route.endRoute then do
          let conversation ← Handler.unwrap (← RouteManager.getConversation r.conversationId)
          RouteManager.finalize r.conversationId
          pure ⟨some ⟨conversation.fromUid⟩⟩
        else pure ⟨none⟩
      | none => Handler.fail (Status.internal "Failed to redeem route") := by
  unfold RouteService.redeemRoute
  rw [bind_assoc]
  exact bind_congr fun _ => (bind_assoc _ _ _).symm

theorem redeems_iff {h : ControllerHist} {n : String} {i : Nat} :
    redeems h n i = true ↔ ∃ r id, h.jobs[i]? = some ⟨.redeem r, id⟩ ∧ r.nonce = n ∧
      ∃ route, (RouteService.redeemRoute r).run.replay (h.said i) = some (.ok (some route)) := by
  unfold redeems
  split
  case h_1 r id hj =>
    rw [Bool.and_eq_true, decide_eq_true_eq, Option.any_eq_true]
    constructor
    · rintro ⟨hn, result, hreplay, hsome⟩
      split at hsome
      · rename_i route
        exact ⟨r, id, hj, hn, route, hreplay⟩
      · contradiction
    · rintro ⟨r', id', hj', hn, route, hreplay⟩
      rw [hj] at hj'
      cases hj'
      exact ⟨hn, _, hreplay, rfl⟩
  case h_2 hj =>
    constructor
    · intro h
      contradiction
    · rintro ⟨r, id, hj', -⟩
      exact absurd hj' (hj r id)

theorem said_redeemRoute {c n : String} {route : Route} {es : List (Sigma RepoOp.Res)}
    (h : (RouteManager.redeemRoute c n).run.Tells es (.ok (some route))) :
    es = [⟨.getRoute c n, some route⟩, ⟨.removeRoute n, ()⟩] := by
  obtain ⟨found, es', rfl, hfound⟩ := h.of_call
  cases found with
  | none =>
    obtain ⟨-, he⟩ := Prog.tells_pure hfound
    cases he
  | some found =>
    obtain ⟨_, es'', rfl, hremoved⟩ := Prog.Tells.of_call hfound
    obtain ⟨rfl, he⟩ := Prog.tells_pure hremoved
    cases he
    rfl

theorem removed_of_redeems {h : ControllerHist} {n : String} {i : Nat} (hr : redeems h n i = true) :
    ∃ pre, h.Did i pre (.removeRoute n) () := by
  obtain ⟨r, id, -, rfl, route, hreplay⟩ := redeems_iff.mp hr
  obtain ⟨es, rest, hsaid, ht⟩ := Prog.tells_of_replay hreplay
  rw [RouteService.redeemRoute] at ht
  rcases Prog.tells_bind ht with ⟨e, -, he⟩ | ⟨es₁, es₂, _, rfl, -, ht⟩
  · cases he
  rcases Prog.tells_bind ht with ⟨e, -, he⟩ | ⟨es₃, es₄, _, rfl, -, ht⟩
  · cases he
  apply Hist.mem_said.mp
  rw [hsaid, said_redeemRoute ht]
  simp

theorem redemptions_le_one {h : ControllerHist} {n : String} (hone : removals h n ≤ 1) :
    redemptions h n ≤ 1 := by
  rw [redemptions, Finset.card_le_one]
  intro i hi i' hi'
  obtain ⟨pre, hd⟩ := removed_of_redeems (Finset.mem_filter.mp hi).2
  obtain ⟨pre', hd'⟩ := removed_of_redeems (Finset.mem_filter.mp hi').2
  exact removed_by hone hd hd'

theorem redeems_of_answered {C : ControllerPool → ControllerMove → Prop} {s₀ : Storage}
    {p : ControllerPool} (hp : Reach C s₀ p) {i : Nat} {r : RedeemRequest} {id : String}
    {resp : RedeemResponse} (hret : p.returned i = some (⟨.redeem r, id⟩, .ok (.redeem resp))) :
    redeems p.hist r.nonce i = true := by
  have ht := Pool.returned_eq_some.mp hret
  have htells : (Job.handler ⟨.redeem r, id⟩).run.Tells (p.hist.said i) (.ok (.redeem resp)) :=
    hp.leads i _ _ ht
  rw [Job.handler] at htells
  rcases Prog.tells_bind htells with ⟨e, -, he⟩ | ⟨es, es', resp', hsaid, htells, -⟩
  · cases he
  rw [redeem_eq] at htells
  rcases Prog.tells_bind htells with ⟨e, -, he⟩ | ⟨es₁, es₂, result, rfl, hfirst, hlast⟩
  · cases he
  cases result with
  | none =>
    obtain ⟨-, he⟩ := hlast.of_ret
    cases he
  | some route =>
    apply redeems_iff.mpr
    refine ⟨r, id, by simp [Pool.hist, ht], rfl, route, ?_⟩
    rw [hsaid, List.append_assoc]
    exact hfirst.replay (es₂ ++ es')

/-- What the nonce is good for: one redemption, which any answer goes back to. -/
structure RedeemedOnce (p : ControllerPool) (n : String) : Prop where
  once : redemptions p.hist n ≤ 1
  answered : ∀ i r id resp, p.returned i = some (⟨.redeem r, id⟩, .ok (.redeem resp)) →
    r.nonce = n → redeems p.hist n i = true

/-- Where no lookup falls between another task's lookup and removal of the same nonce, every nonce
is redeemed at most once. -/
theorem redeemed_once {members : Table String Member} {p : ControllerPool}
    (hp : Reach RedeemsAlone (Storage.start members) p) (n : String) : RedeemedOnce p n := by
  constructor
  case once => exact redemptions_le_one (single hp n).once
  case answered =>
    intro i r id resp hret hn
    subst hn
    exact redeems_of_answered hp hret

theorem redeemed_once_sample : ∃ p : ControllerPool,
    Reach RedeemsAlone (Storage.start sampleMembers) p ∧ redemptions p.hist "n4" = 1 ∧
      p.returned 9 = some (redeemRoute "k-bob" "n4", .ok (.redeem ⟨some ⟨"alice"⟩⟩)) ∧
      RedeemedOnce p "n4" := by
  obtain ⟨p, hrun, hseen⟩ : ∃ p, (Pool.start (Storage.start sampleMembers) :
      ControllerPool).run (inTurn sampleEndRedeemed) = some p ∧
        (redemptions p.hist "n4", p.returned 9) =
          (1, some (redeemRoute "k-bob" "n4", .ok (.redeem ⟨some ⟨"alice"⟩⟩))) :=
    exists_run (by decide +kernel)
  obtain ⟨hred, h9⟩ := Prod.mk.inj hseen
  have hp := Reach.start.run (C := RedeemsAlone) (by decide) hrun
  exact ⟨p, hp, hred, h9, redeemed_once hp "n4"⟩

/-- Two tasks look the route of `n1` up before either removes it, and both are given it. -/
theorem redeemed_twice : ¬ ∀ (members : Table String Member) (p : ControllerPool),
    Reachable (Storage.start members) p → ∀ n, redemptions p.hist n ≤ 1 := by
  intro hall
  obtain ⟨p, hrun, hred⟩ : ∃ p, (Pool.start (Storage.start sampleMembers) : ControllerPool).run
      (inTurn (sampleHops ++ [(redeemRoute "k-north" "n1", 3), (redeemRoute "k-south" "n1", 3)]) ++
        [.act 8 ⟨0, 0⟩, .act 9 ⟨0, 0⟩]) = some p ∧
      redemptions p.hist "n1" = 2 := exists_run (by decide +kernel)
  exact absurd (hall _ p (Reachable.of_run hrun) "n1") (by omega)

end FuzzyChat
