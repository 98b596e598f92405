import FuzzyChat.Controller.Handlers

/-! Who puts a record into the storage: the one task that drew its identifier, once, and as the last
thing it does. What is taken out again stays out. -/

namespace FuzzyChat
open Interleave

def RepoOp.lodges : RepoOp → Option (IdKind × String)
  | .insertSession info => some (.accessKey, info.accessKey)
  | .setConversation conversation => some (.conversationId, conversation.id)
  | .setRoute _ route => some (.nonce, route.nonce)
  | _ => none

def Storage.Keeps (s : Storage) : IdKind → String → Prop
  | .accessKey, k => s.sessions.sessions.lookup k ≠ none
  | .conversationId, c => s.routes.conversations.lookup c ≠ none
  | .nonce, n => s.routes.routes.lookup n ≠ none

theorem Storage.keeps_step {s : Storage} {c : Choice} {op : RepoOp} {kind : IdKind} {id : String}
    (h : (s.step c op).2.Keeps kind id) : s.Keeps kind id ∨ op.lodges = some (kind, id) := by
  cases kind with
  | accessKey =>
    obtain ⟨w, hw⟩ := Option.ne_none_iff_exists'.mp h
    rcases lookup_session_step hw with ⟨w₀, hw₀, -⟩ | ⟨rfl, rfl⟩
    · exact .inl (by simp [Keeps, hw₀])
    · exact .inr rfl
  | conversationId =>
    obtain ⟨w, hw⟩ := Option.ne_none_iff_exists'.mp h
    rcases lookup_conversation_step hw with ⟨w₀, hw₀, -⟩ | ⟨rfl, rfl⟩
    · exact .inl (by simp [Keeps, hw₀])
    · exact .inr rfl
  | nonce =>
    obtain ⟨w, hw⟩ := Option.ne_none_iff_exists'.mp h
    rcases lookup_route_step hw with hw₀ | ⟨id, rfl, rfl⟩
    · exact .inl (by simp [Keeps, hw₀])
    · exact .inr rfl

/-- A program puts in a record only under the identifier it has drawn, and ends with it. -/
def Lodging (j : Job) (op : RepoOp) (k : op.Res → Program) : Prop :=
  ∀ kind id, op.lodges = some (kind, id) →
    j.request.draws = some kind ∧ j.id = id ∧ ∀ r, (k r).head? = none

section shapes
variable {j : Job}

theorem lodging_call {op : RepoOp} {k : op.Res → Program} (hop : op.lodges = none)
    (hk : ∀ r, (k r).All (Lodging j)) : Prog.All (Lodging j) (.call op k) := by
  refine ⟨fun kind id h => ?_, hk⟩
  rw [hop] at h
  nomatch h

theorem lodging_checkedSession {k : String} {f : SessionInfo → Program}
    (hf : ∀ info, (f info).All (Lodging j)) : (checkedSession k f).All (Lodging j) :=
  lodging_call rfl fun | none => trivial | some info => hf info

theorem lodging_checkedConversation {c : String} {f : Conversation → Program}
    (hf : ∀ v, (f v).All (Lodging j)) : (checkedConversation c f).All (Lodging j) :=
  lodging_call rfl fun | none => trivial | some v => hf v

theorem lodging_fetchedSession {k : String} {f : SessionInfo → Program}
    (hf : ∀ info, (f info).All (Lodging j)) : (fetchedSession k f).All (Lodging j) :=
  lodging_call rfl fun | none => trivial | some info => hf info

theorem lodging_fetchedConversation {c : String} {f : Conversation → Program}
    (hf : ∀ v, (f v).All (Lodging j)) : (fetchedConversation c f).All (Lodging j) :=
  lodging_call rfl fun | none => trivial | some v => hf v

theorem lodging_storeProgram {nonce : String} {r : RouteRequest} (c : String) (info : SessionInfo)
    (endRoute : Bool) :
    (storeProgram nonce c info endRoute).All (Lodging ⟨.route r, nonce⟩) := by
  refine ⟨fun kind id h => ?_, fun | none => trivial | some _ => trivial⟩
  cases h
  exact ⟨rfl, rfl, fun | none => rfl | some _ => rfl⟩

theorem lodging_storeSession {info : SessionInfo} {t : Component} {a : Except Abort Reply}
    (hd : j.request.draws = some .accessKey) (hid : j.id = info.accessKey) :
    (storeSession info t (.ret a)).All (Lodging j) := by
  refine lodging_call rfl fun _ => ⟨fun kind id h => ?_, fun _ => trivial⟩
  cases h
  exact ⟨hd, hid, fun _ => rfl⟩

theorem lodging_handler (j : Job) : j.handler.All (Lodging j) := by
  obtain ⟨request, id⟩ := j
  cases request with
  | login remoteAddr r =>
    rw [handler_login]
    cases remoteAddr with
    | none => trivial
    | some clientIp =>
      dsimp only
      split_ifs
      · trivial
      · cases Component.fromI32 r.componentType with
        | none => trivial
        | some componentType =>
          dsimp only
          split_ifs
          · trivial
          · refine lodging_call rfl fun member => ?_
            split_ifs
            · exact lodging_storeSession rfl rfl
            · trivial
  | logout r =>
    rw [handler_logout]
    refine lodging_checkedSession fun _ => ?_
    exact lodging_call rfl fun | none => trivial | some w => lodging_call rfl fun _ => trivial
  | ping remoteAddr r =>
    rw [handler_ping]
    cases remoteAddr with
    | none => trivial
    | some clientIp =>
      refine lodging_checkedSession fun _ => lodging_fetchedSession fun session => ?_
      split_ifs
      · exact lodging_call rfl fun _ => trivial
      · trivial
  | init r =>
    rw [handler_init]
    refine lodging_checkedSession fun _ => lodging_fetchedSession fun info => ?_
    refine ⟨fun kind id h => ?_, fun | none => trivial | some _ => trivial⟩
    cases h
    exact ⟨rfl, rfl, fun | none => rfl | some _ => rfl⟩
  | route r =>
    rw [handler_route]
    refine lodging_checkedSession fun _ => lodging_checkedConversation fun _ => ?_
    refine lodging_fetchedConversation fun v => ?_
    split_ifs
    · refine lodging_call rfl fun | none => trivial | some key => ?_
      exact lodging_call rfl fun | none => trivial | some info => lodging_storeProgram _ _ _
    · refine lodging_call rfl fun | none => trivial | some proxies => ?_
      dsimp only
      split_ifs
      · trivial
      · refine lodging_call rfl fun index => ?_
        split
        · trivial
        · exact lodging_storeProgram _ _ _
    · trivial
  | redeem r =>
    rw [handler_redeem]
    refine lodging_checkedSession fun _ => lodging_checkedConversation fun _ => ?_
    refine lodging_call rfl fun | none => trivial | some route => lodging_call rfl fun _ => ?_
    split_ifs
    · exact lodging_fetchedConversation fun _ => lodging_call rfl fun _ => trivial
    · trivial
  | status version r =>
    rw [handler_status]
    refine lodging_checkedSession fun _ => lodging_call rfl fun _ => ?_
    exact lodging_call rfl fun _ => lodging_call rfl fun _ => trivial
  | register uid clientIp settings => exact lodging_storeSession rfl rfl
  | sweepSessions => exact lodging_call rfl fun _ => trivial
  | sweepRoutes => exact lodging_call rfl fun _ => trivial

end shapes

section reach
variable {C : ControllerPool → ControllerMove → Prop} {members : Table String Member}
  {p : ControllerPool} (hp : Reach C (Storage.start members) p)
include hp

theorem lodger_done : ∀ e ∈ p.log, ∀ kind id, e.op.lodges = some (kind, id) →
    ∃ t, p.tasks[e.task]? = some t ∧ t.1.request.draws = some kind ∧ t.1.id = id ∧
      t.2.head? = none := by
  induction hp with
  | start => exact fun e he => nomatch he
  | @step p q m hp hc hq ih =>
    intro e he kind id hl
    rcases controller_step hq with ⟨j, rfl, rfl⟩ | ⟨i, c, j, op, k, rfl, ht, rfl⟩
    · obtain ⟨t, hi, hdone⟩ := ih e he kind id hl
      exact ⟨t, Pool.tasks_accept.mpr (.inl hi), hdone⟩
    · rcases List.mem_cons.mp he with rfl | hold
      · obtain ⟨hd, hid, hend⟩ := (hp.all lodging_handler i j _ ht).1 kind id hl
        exact ⟨_, (Pool.tasks_advance ht).mpr (.inl ⟨rfl, rfl⟩), hd, hid, hend _⟩
      · obtain ⟨t, hi, hd, hid, hend⟩ := ih e hold kind id hl
        have hne : e.task ≠ i := by
          rintro rfl
          cases ht.symm.trans hi
          nomatch hend
        exact ⟨t, (Pool.tasks_advance ht).mpr (.inr ⟨hne, hi⟩), hd, hid, hend⟩

theorem lodged_once {i : Nat} {j : Job} {op : RepoOp} {k : op.Res → Program}
    (ht : p.tasks[i]? = some (j, .call op k)) {kind : IdKind} {id : String}
    (hl : op.lodges = some (kind, id)) : ∀ e ∈ p.log, e.op.lodges ≠ some (kind, id) := by
  intro e he hel
  obtain ⟨t, hi, hd, hid, hend⟩ := lodger_done hp e he kind id hel
  obtain ⟨hd', hid', -⟩ := (hp.all lodging_handler i j _ ht).1 kind id hl
  have hjob : p.hist.jobs[e.task]? = some t.1 := by simp [Pool.hist, hi]
  have hjob' : p.hist.jobs[i]? = some j := by simp [Pool.hist, ht]
  have hsame : e.task = i := by
    apply (coherent_of_reach hp).task_eq hjob hjob'
    · simp [hd]
    · rw [hd, hd']
    · rw [hid, hid']
  rw [hsame, ht] at hi
  cases hi
  contradiction

theorem lodged_of_keeps {kind : IdKind} {id : String} (hk : p.state.Keeps kind id) :
    ∃ e ∈ p.log, e.op.lodges = some (kind, id) := by
  induction hp with
  | start => cases kind <;> exact absurd rfl hk
  | step hp hc hq ih =>
    rcases controller_step hq with ⟨j, rfl, rfl⟩ | ⟨i, c, j, op, k, rfl, ht, rfl⟩
    · exact ih hk
    · rcases Storage.keeps_step hk with hold | hnew
      · obtain ⟨e, he, hl⟩ := ih hold
        exact ⟨e, List.mem_cons_of_mem _ he, hl⟩
      · exact ⟨_, List.mem_cons_self, hnew⟩

end reach

theorem gone_of_lodged {members : Table String Member} {p q : ControllerPool}
    (hp : Reachable (Storage.start members) p) {ms : List ControllerMove} (hq : p.run ms = some q)
    {kind : IdKind} {id : String} (hl : ∃ e ∈ p.log, e.op.lodges = some (kind, id))
    (hgone : ¬ p.state.Keeps kind id) : ¬ q.state.Keeps kind id := by
  induction ms generalizing p with
  | nil => cases hq; exact hgone
  | cons m ms ih =>
    obtain ⟨p', hm, hq⟩ := Option.bind_eq_some_iff.mp hq
    have hp' : Reachable (Storage.start members) p' := hp.step trivial hm
    rcases controller_step hm with ⟨j, rfl, rfl⟩ | ⟨i, c, j, op, k, rfl, ht, rfl⟩
    · exact ih hp' hq hl hgone
    · obtain ⟨e, he, hel⟩ := hl
      refine ih hp' hq ⟨e, List.mem_cons_of_mem _ he, hel⟩ fun hk => ?_
      rcases Storage.keeps_step hk with hold | hnew
      · exact hgone hold
      · exact lodged_once hp ht hnew e he hel

theorem gone_for_good {members : Table String Member} {p q q' : ControllerPool}
    (hp : Reachable (Storage.start members) p) {ms ms' : List ControllerMove}
    (hq : p.run ms = some q) (hq' : q.run ms' = some q') {kind : IdKind} {id : String}
    (hk : p.state.Keeps kind id) (hgone : ¬ q.state.Keeps kind id) : ¬ q'.state.Keeps kind id := by
  have hreach : Reachable (Storage.start members) q := hp.run (Pool.obeys_true _ ms) hq
  obtain ⟨e, he, hl⟩ := lodged_of_keeps hp hk
  exact gone_of_lodged hreach hq' ⟨e, Pool.log_run hq he, hl⟩ hgone

end FuzzyChat
