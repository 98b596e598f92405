import FuzzyChat.Controller.Authentic
import FuzzyChat.Interleave.Lasting

/-! What has been ended stays ended: a key after its logout, a nonce after its redemption and a
conversation after the redemption of its last route. -/

namespace FuzzyChat
open Interleave

def Absent : IdKind → String → (op : RepoOp) → op.Res → Prop
  | .accessKey, id, .getSession k, r => k = id → r = none
  | .conversationId, id, .getConversation c, r => c = id → r = none
  | .nonce, id, .getRoute _ n, r => n = id → r = none
  | _, _, _, _ => True

theorem absent_of_gone {s : Storage} {kind : IdKind} {id : String} (hgone : ¬ s.Keeps kind id)
    (c : Choice) (op : RepoOp) : Absent kind id op (s.step c op).1 := by
  cases kind with
  | accessKey =>
    cases op with
    | getSession k =>
      rintro rfl
      rw [Storage.step_getSession, SessionStore.sessionOf, not_not.mp hgone]
      rfl
    | _ => trivial
  | conversationId =>
    cases op with
    | getConversation c =>
      rintro rfl
      rw [Storage.step_getConversation, RouteStore.getConversation, not_not.mp hgone]
      rfl
    | _ => trivial
  | nonce =>
    cases op with
    | getRoute c n =>
      rintro rfl
      rw [Storage.step_getRoute, RouteStore.getRoute, not_not.mp hgone]
      rfl
    | _ => trivial

def Job.Gives (j : Job) : IdKind → String → Prop
  | .accessKey, k => j.request.accessKey? = some k
  | .conversationId, c => (∃ r, j.request = .route r ∧ r.conversationId = c) ∨
      ∃ r, j.request = .redeem r ∧ r.conversationId = c
  | .nonce, n => ∃ r, j.request = .redeem r ∧ r.nonce = n

def RepoOp.discards : RepoOp → Option (IdKind × String)
  | .takeSession k => some (.accessKey, k)
  | .removeConversation c => some (.conversationId, c)
  | .removeRoute n => some (.nonce, n)
  | _ => none

theorem gone_of_discards {s : Storage} {op : RepoOp} {kind : IdKind} {id : String}
    (hop : op.discards = some (kind, id)) (c : Choice) : ¬ (s.step c op).2.Keeps kind id := by
  cases op with
  | takeSession k =>
    cases hop
    simp [Storage.step, Storage.exec, Storage.Keeps, Storage.withSessions, SessionStore.takeSession]
  | removeConversation c =>
    cases hop
    simp [Storage.step, Storage.exec, Storage.Keeps, Storage.withRoutes,
      RouteStore.removeConversation]
  | removeRoute n =>
    cases hop
    simp [Storage.step, Storage.exec, Storage.Keeps, Storage.withRoutes, RouteStore.removeRoute]
  | _ => cases hop

def Refused (a : Except Abort Reply) : Prop := ∃ s, a = .error (.status s)

/-- As long as nothing is found under the identifier, nothing is taken out and the request is
refused. -/
def Fruitless (kind : IdKind) (id : String) : Program → Prop :=
  Prog.Within (Absent kind id) (fun op => op.discards = none) Refused

section fruitless
variable {kind : IdKind} {id : String}

theorem fruitless_refuse (s : Status) : Fruitless kind id (refuse s) := ⟨s, rfl⟩

theorem fruitless_checkedSession {k : String} {f : SessionInfo → Program}
    (h : ∀ info, Absent kind id (.getSession k) (some info) → Fruitless kind id (f info)) :
    Fruitless kind id (checkedSession k f) := by
  refine ⟨rfl, fun r hr => ?_⟩
  cases r with
  | none => exact fruitless_refuse _
  | some info => exact h info hr

theorem fruitless_checkedConversation {c : String} {f : Conversation → Program}
    (h : ∀ v, Absent kind id (.getConversation c) (some v) → Fruitless kind id (f v)) :
    Fruitless kind id (checkedConversation c f) := by
  refine ⟨rfl, fun r hr => ?_⟩
  cases r with
  | none => exact fruitless_refuse _
  | some v => exact h v hr

end fruitless

theorem fruitless_accessKey {j : Job} {k : String} (hj : j.Gives .accessKey k) :
    Fruitless .accessKey k j.handler := by
  have hcheck : ∀ f : SessionInfo → Program, Fruitless .accessKey k (checkedSession k f) :=
    fun f => fruitless_checkedSession fun info hr => by cases hr rfl
  obtain ⟨request, id⟩ := j
  cases request with
  | ping remoteAddr r =>
    cases hj
    rw [handler_ping]
    cases remoteAddr with
    | none => exact fruitless_refuse _
    | some clientIp => exact hcheck _
  | logout r =>
    cases hj
    rw [handler_logout]
    exact hcheck _
  | init r =>
    cases hj
    rw [handler_init]
    exact hcheck _
  | route r =>
    cases hj
    rw [handler_route]
    exact hcheck _
  | redeem r =>
    cases hj
    rw [handler_redeem]
    exact hcheck _
  | status version r =>
    cases hj
    rw [handler_status]
    exact hcheck _
  | _ => cases hj

theorem fruitless_handler {kind : IdKind} {id : String} {j : Job} (hj : j.Gives kind id) :
    Fruitless kind id j.handler := by
  cases kind with
  | accessKey => exact fruitless_accessKey hj
  | conversationId =>
    have hcheck : ∀ f : Conversation → Program,
        Fruitless .conversationId id (checkedConversation id f) := fun f =>
      fruitless_checkedConversation fun v hr => by cases hr rfl
    obtain ⟨request, own⟩ := j
    rcases hj with ⟨r, rfl, rfl⟩ | ⟨r, rfl, rfl⟩
    · rw [handler_route]
      exact fruitless_checkedSession fun _ _ => hcheck _
    · rw [handler_redeem]
      exact fruitless_checkedSession fun _ _ => hcheck _
  | nonce =>
    obtain ⟨request, own⟩ := j
    obtain ⟨r, rfl, rfl⟩ := hj
    rw [handler_redeem]
    refine fruitless_checkedSession fun _ _ => fruitless_checkedConversation fun _ _ =>
      ⟨rfl, fun route hr => ?_⟩
    cases route with
    | none => exact fruitless_refuse _
    | some route => cases hr rfl

/-- The moment a record is taken out, on behalf of a request that has been accepted. -/
inductive Ended (p : ControllerPool) : IdKind → String → Prop
  | logout (i : Nat) (r : LogoutRequest) (id : String) (reply : Reply)
      (h : p.returned i = some (⟨.logout r, id⟩, .ok reply)) : Ended p .accessKey r.accessKey
  | redeemed (i : Nat) (r : RedeemRequest) (id : String) (reply : Reply)
      (h : p.returned i = some (⟨.redeem r, id⟩, .ok reply)) : Ended p .nonce r.nonce
  | finalized (i : Nat) (r : RedeemRequest) (id : String) (source : SourceInfo)
      (h : p.returned i = some (⟨.redeem r, id⟩, .ok (.redeem ⟨some source⟩))) :
      Ended p .conversationId r.conversationId

theorem redeem_discards {r : RedeemRequest} {id : String} {es : List (Sigma RepoOp.Res)}
    {reply : Reply} (h : (Job.handler ⟨.redeem r, id⟩).Tells es (.ok reply)) :
    (⟨.removeRoute r.nonce, ()⟩ : Sigma RepoOp.Res) ∈ es ∧
      ∀ source, reply = .redeem ⟨some source⟩ →
        (⟨.removeConversation r.conversationId, ()⟩ : Sigma RepoOp.Res) ∈ es := by
  rw [handler_redeem] at h
  obtain ⟨info, es₁, rfl, h₁⟩ := tells_checkedSession h
  obtain ⟨conversation, es₂, rfl, h₂⟩ := tells_checkedConversation h₁
  obtain ⟨route, es₃, rfl, h₃⟩ := h₂.of_call
  cases route with
  | none => cases h₃.of_ret.2
  | some route =>
  obtain ⟨⟨⟩, es₄, rfl, h₄⟩ := h₃.of_call
  refine ⟨by simp, fun source hreply => ?_⟩
  subst hreply
  cases hend : route.endRoute with
  | false =>
    simp only [hend, Bool.false_eq_true, if_false] at h₄
    cases h₄.of_ret.2
  | true =>
    simp only [hend, if_true] at h₄
    obtain ⟨conversation', es₅, rfl, h₅⟩ := tells_fetchedConversation h₄
    obtain ⟨⟨⟩, es₆, rfl, -⟩ := h₅.of_call
    simp

section
variable {members : Table String Member} {p : ControllerPool}

theorem lodged_of_found (hp : Reachable (Storage.start members) p) {i : Nat} {op : RepoOp}
    {r : op.Res} (hs : (⟨op, r⟩ : Sigma RepoOp.Res) ∈ p.hist.said i) {kind : IdKind} {id : String}
    (hfound : ¬ Absent kind id op r) : ∃ e ∈ p.log, e.op.lodges = some (kind, id) := by
  obtain ⟨pre, hd⟩ := Hist.mem_said.mp hs
  obtain ⟨p₀, c, hp₀, hb, -, rfl⟩ := answer_of_did hp hd
  have hkeeps : p₀.state.Keeps kind id := by
    by_contra hgone
    exact hfound (absent_of_gone hgone c op)
  obtain ⟨e, he, hl⟩ := lodged_of_keeps hp₀ hkeeps
  exact ⟨e, hb.log he, hl⟩

theorem Ended.discarded (hp : Reachable (Storage.start members) p) {kind : IdKind} {id : String}
    (hend : Ended p kind id) : ∃ i j, p.hist.jobs[i]? = some j ∧ j.Gives kind id ∧
      ∃ op r, op.discards = some (kind, id) ∧
        (⟨op, r⟩ : Sigma RepoOp.Res) ∈ p.hist.said i := by
  have hjob : ∀ {i j a}, p.returned i = some (j, a) → p.hist.jobs[i]? = some j := fun h => by
    simp [Pool.hist, Pool.returned_eq_some.mp h]
  cases hend with
  | logout i r own reply h =>
    have htells : (Job.handler ⟨.logout r, own⟩).Tells (p.hist.said i) (.ok reply) :=
      hp.leads i _ _ (Pool.returned_eq_some.mp h)
    rw [handler_logout] at htells
    obtain ⟨info, es, hsaid, h₁⟩ := tells_checkedSession htells
    obtain ⟨taken, es', rfl, -⟩ := h₁.of_call
    refine ⟨i, _, hjob h, rfl, .takeSession r.accessKey, taken, rfl, ?_⟩
    rw [hsaid]
    exact List.mem_cons_of_mem _ List.mem_cons_self
  | redeemed i r own reply h =>
    have htells : (Job.handler ⟨.redeem r, own⟩).Tells (p.hist.said i) (.ok reply) :=
      hp.leads i _ _ (Pool.returned_eq_some.mp h)
    refine ⟨i, _, hjob h, ⟨r, rfl, rfl⟩, .removeRoute r.nonce, (), rfl, ?_⟩
    exact (redeem_discards htells).1
  | finalized i r own source h =>
    have htells : (Job.handler ⟨.redeem r, own⟩).Tells (p.hist.said i)
        (.ok (.redeem ⟨some source⟩)) := hp.leads i _ _ (Pool.returned_eq_some.mp h)
    refine ⟨i, _, hjob h, .inr ⟨r, rfl, rfl⟩, .removeConversation r.conversationId, (), rfl, ?_⟩
    exact (redeem_discards htells).2 source rfl

theorem gone_of_ended (hp : Reachable (Storage.start members) p) {kind : IdKind} {id : String}
    (hend : Ended p kind id) :
    (∃ e ∈ p.log, e.op.lodges = some (kind, id)) ∧ ¬ p.state.Keeps kind id := by
  obtain ⟨i, j, hj, hgives, op, r, hop, hsaid⟩ := hend.discarded hp
  obtain ⟨pre, hd⟩ := Hist.mem_said.mp hsaid
  obtain ⟨p₀, p₁, c, ms, hp₁, hx, he₁, hms⟩ := hp.after _ hd
  -- the task that takes the record out has found it before
  have hsaid₁ : (⟨op, r⟩ : Sigma RepoOp.Res) ∈ p₁.hist.said i :=
    Hist.mem_said.mpr ⟨pre, he₁⟩
  have hlt : i < p₁.tasks.length := hp₁.task_lt _ he₁
  obtain ⟨⟨j', pr⟩, ht⟩ : ∃ t, p₁.tasks[i]? = some t := ⟨_, List.getElem?_eq_getElem hlt⟩
  have hj' : p₁.hist.jobs[i]? = some j' := by simp [Pool.hist, ht]
  obtain rfl : j' = j :=
    Option.some.inj (((Pool.onward_of_run hms).before.job hj').symm.trans hj)
  have hleads : j'.handler.Leads (p₁.hist.said i) pr := hp₁.leads i _ _ ht
  obtain ⟨y, hy, hfound⟩ := (fruitless_handler hgives).answered hleads hsaid₁ (by simp [hop])
  have hlodged := lodged_of_found hp₁ hy hfound
  have hgone : ¬ p₁.state.Keeps kind id := by
    have hstate : (p₀.state.step c op).2 = p₁.state := congrArg Prod.snd (Option.some.inj hx)
    rw [← hstate]
    exact gone_of_discards hop c
  obtain ⟨e, he, hl⟩ := hlodged
  exact ⟨⟨e, Pool.log_run hms he, hl⟩, gone_of_lodged hp₁ hms ⟨e, he, hl⟩ hgone⟩

/-- After a logout no request that is sent with the key is accepted any more, after a redemption
none with the nonce, and after the redemption of a conversation's last route none for the
conversation, whatever runs in between and besides. -/
theorem ended_for_good (hp : Reachable (Storage.start members) p) {kind : IdKind} {id : String}
    (hend : Ended p kind id) {q : ControllerPool} {ms : List ControllerMove}
    (hq : p.run ms = some q) {i : Nat} {j : Job} {a : Except Abort Reply}
    (hi : p.tasks.length ≤ i) (hret : q.returned i = some (j, a)) (hj : j.Gives kind id) :
    ∃ s, a = .error (.status s) := by
  obtain ⟨hlodged, hgone⟩ := gone_of_ended hp hend
  suffices hin : Fruitless kind id (.ret a) from hin
  refine Pool.within_of_run (S := controller) (I := fun p =>
    Reachable (Storage.start members) p ∧ (∃ e ∈ p.log, e.op.lodges = some (kind, id)) ∧
      ¬ p.state.Keeps kind id) ?_ ?_ ⟨hp, hlodged, hgone⟩ hq hi (Pool.returned_eq_some.mp hret)
      (fruitless_handler hj)
  · rintro p p' m ⟨hp, hlodged, hgone⟩ hm
    have hrun : p.run [m] = some p' := Option.bind_eq_some_iff.mpr ⟨p', hm, rfl⟩
    obtain ⟨e, he, hl⟩ := hlodged
    exact ⟨hp.step trivial hm, ⟨e, Pool.log_run hrun he, hl⟩,
      gone_of_lodged hp hrun ⟨e, he, hl⟩ hgone⟩
  · rintro p i c op r s ⟨-, -, hgone⟩ hx
    obtain rfl : (p.state.step c op).1 = r := congrArg Prod.fst (Option.some.inj hx)
    exact absent_of_gone hgone c op

end

theorem ended_for_good_sample : ∃ (p q : ControllerPool) (ms : List ControllerMove)
    (a : Except Abort Reply), Reachable (Storage.start sampleMembers) p ∧
      Ended p .conversationId "c" ∧ p.run ms = some q ∧
      q.returned 10 = some (askRoute "k-north" "n5", a) ∧ ∃ s, a = .error (.status s) := by
  obtain ⟨p, hrun, h9, hlen, hlater⟩ : ∃ p, (Pool.start (Storage.start sampleMembers) :
      ControllerPool).run (inTurn sampleEndRedeemed) = some p ∧
        p.returned 9 = some (redeemRoute "k-bob" "n4", .ok (.redeem ⟨some ⟨"alice"⟩⟩)) ∧
        p.tasks.length = 10 ∧
        ((p.run ((askRoute "k-north" "n5").alone 10 2)).map fun q =>
          (q.returned 10).map Prod.fst) = some (some (askRoute "k-north" "n5")) := by
    have h : ((Pool.start (Storage.start sampleMembers) : ControllerPool).run
        (inTurn sampleEndRedeemed)).map (fun p => decide
          (p.returned 9 = some (redeemRoute "k-bob" "n4", .ok (.redeem ⟨some ⟨"alice"⟩⟩)) ∧
            p.tasks.length = 10 ∧
            ((p.run ((askRoute "k-north" "n5").alone 10 2)).map fun q =>
              (q.returned 10).map Prod.fst) = some (some (askRoute "k-north" "n5")))) =
        some true := by decide +kernel
    obtain ⟨p, hrun, hp⟩ := exists_run h
    exact ⟨p, hrun, of_decide_eq_true hp⟩
  have hp := Reachable.of_run hrun
  have hend : Ended p .conversationId "c" := .finalized 9 _ _ _ h9
  obtain ⟨q, hq, hreturned⟩ := Option.map_eq_some_iff.mp hlater
  obtain ⟨⟨j, a⟩, hret, rfl⟩ := Option.map_eq_some_iff.mp hreturned
  exact ⟨p, q, _, a, hp, hend, hq, hret,
    ended_for_good hp hend hq (by omega) hret (.inl ⟨_, rfl, rfl⟩)⟩

end FuzzyChat
