import FuzzyChat.Controller.Programs
import FuzzyChat.Controller.Steps

/-! The invariant of the controller's runs: whatever the storage holds goes back to a request that
was entitled to put it there. -/

namespace FuzzyChat
open Interleave

/-- The session a job stores, once its request is let in. -/
def Job.session? (j : Job) : Option SessionInfo :=
  match j.request with
  | .login (some clientIp) r =>
    if r.uid.isEmpty then none
    else (Component.fromI32 r.componentType).map fun c =>
      SessionManager.sessionInfo j.id r.uid c clientIp (AuthService.connectionSettings r)
  | .register uid clientIp settings =>
    some (SessionManager.sessionInfo j.id uid .controller clientIp settings)
  | _ => none

/-- `info` is the session of a login or registration among the jobs. -/
def Enrolled (jobs : List Job) (info : SessionInfo) : Prop :=
  ∃ j ∈ jobs, j.session? = some info

/-- Conversation `id` was asked for by an init request with that recipient, on the access key of a
session with that uid. -/
def Opened (jobs : List Job) (id fromUid toUid : String) : Prop :=
  ∃ r info, (⟨.init r, id⟩ : Job) ∈ jobs ∧ Enrolled jobs info ∧ info.accessKey = r.accessKey ∧
    info.uid = fromUid ∧ RouteService.recipient r = toUid

/-- A route request for conversation `id` drew the nonce `n` and had its route accepted. -/
def Issued (h : ControllerHist) (id n : String) : Prop :=
  ∃ i r pre route, h.jobs[i]? = some ⟨.route r, n⟩ ∧ r.conversationId = id ∧
    h.Did i pre (.setRoute id route) (some n)

/-- What has to be on record before task `i` may carry out an operation. -/
def Permits (h : ControllerHist) (i : Nat) : RepoOp → Prop
  | .insertIndex t uid k => ∃ info, Enrolled h.jobs info ∧ info.accessKey = k ∧ info.uid = uid ∧
      info.componentType = t.toU8
  | .insertSession info => Enrolled h.jobs info
  | .setConversation c => c.routingId = 1 ∧ c.routes = [] ∧ Opened h.jobs c.id c.fromUid c.toUid
  | .setRoute id route => ∃ r, h.jobs[i]? = some ⟨.route r, route.nonce⟩ ∧ r.conversationId = id
  | .removeRoute n => ∃ r id pre route, h.jobs[i]? = some ⟨.redeem r, id⟩ ∧ r.nonce = n ∧
      h.Did i pre (.getRoute r.conversationId n) (some route)
  | .removeConversation c => ∃ r id pre route, h.jobs[i]? = some ⟨.redeem r, id⟩ ∧
      r.conversationId = c ∧ h.Did i pre (.getRoute c r.nonce) (some route)
  | _ => True

structure Coherent (h : ControllerHist) : Prop where
  apart : h.jobs.Pairwise fun j j' => j'.Apart j
  sessions : ∀ k w, h.state.sessions.sessions.lookup k = some w →
    w.value.accessKey = k ∧ Enrolled h.jobs w.value
  index : ∀ t uid k, (h.state.sessions.index t).lookup uid = some k →
    ∃ info, Enrolled h.jobs info ∧ info.accessKey = k ∧ info.uid = uid ∧ info.componentType = t.toU8
  conversations : ∀ c w, h.state.routes.conversations.lookup c = some w →
    w.value.id = c ∧ w.value.routingId = 1 ∧ Opened h.jobs c w.value.fromUid w.value.toUid ∧
      ∀ route ∈ w.value.routes, Issued h c route.nonce
  steps : ∀ i pre op r, h.Did i pre op r → Permits h i op

theorem Enrolled.mono {jobs jobs' : List Job} (hj : jobs <+: jobs') {info : SessionInfo}
    (h : Enrolled jobs info) : Enrolled jobs' info :=
  let ⟨j, hm, he⟩ := h
  ⟨j, hj.subset hm, he⟩

theorem Opened.mono {jobs jobs' : List Job} (hj : jobs <+: jobs') {c u t : String}
    (h : Opened jobs c u t) : Opened jobs' c u t :=
  let ⟨r, info, hm, he, hx⟩ := h
  ⟨r, info, hj.subset hm, he.mono hj, hx⟩

theorem Issued.mono {h h' : ControllerHist} (hb : h.Before h') {c n : String} (hi : Issued h c n) :
    Issued h' c n :=
  let ⟨i, r, pre, route, hj, hc, hd⟩ := hi
  ⟨i, r, pre, route, hb.job hj, hc, hb.did hd⟩

theorem Permits.mono {h h' : ControllerHist} (hb : h.Before h') {i : Nat} {op : RepoOp}
    (hp : Permits h i op) : Permits h' i op := by
  cases op with
  | insertIndex t uid k =>
    obtain ⟨info, he, hx⟩ := hp
    exact ⟨info, he.mono hb.jobs, hx⟩
  | insertSession info => exact Enrolled.mono hb.jobs hp
  | setConversation c => exact ⟨hp.1, hp.2.1, hp.2.2.mono hb.jobs⟩
  | setRoute id route =>
    obtain ⟨r, hj, hc⟩ := hp
    exact ⟨r, hb.job hj, hc⟩
  | removeRoute n =>
    obtain ⟨r, id, pre, route, hj, hn, hd⟩ := hp
    exact ⟨r, id, pre, route, hb.job hj, hn, hb.did hd⟩
  | removeConversation c =>
    obtain ⟨r, id, pre, route, hj, hc, hd⟩ := hp
    exact ⟨r, id, pre, route, hb.job hj, hc, hb.did hd⟩
  | _ => trivial

theorem Job.session?_eq_some {j : Job} {info : SessionInfo} (h : j.session? = some info) :
    j.request.draws = some .accessKey ∧ info.accessKey = j.id ∧
      (info.uid = "" → info.componentType = Component.controller.toU8) := by
  obtain ⟨request, id⟩ := j
  cases request with
  | login remoteAddr r =>
    cases remoteAddr with
    | none => simp [session?] at h
    | some clientIp =>
      obtain ⟨hu, h⟩ := Option.ite_none_left_eq_some.mp h
      obtain ⟨c, -, rfl⟩ := Option.map_eq_some_iff.mp h
      exact ⟨rfl, rfl, fun he => absurd (String.isEmpty_iff.mpr he) hu⟩
  | register uid clientIp settings =>
    cases h
    exact ⟨rfl, rfl, fun _ => rfl⟩
  | _ => simp [session?] at h

namespace Coherent
variable {h : ControllerHist}

theorem job_eq (hc : Coherent h) {j j' : Job} (hj : j ∈ h.jobs) (hj' : j' ∈ h.jobs)
    (hd : j.request.draws ≠ none) (hdd : j.request.draws = j'.request.draws) (hid : j.id = j'.id) :
    j = j' := by
  by_contra hne
  have : Std.Symm fun a b : Job => b.Apart a :=
    ⟨fun a b hab hb hba => (hab (hba ▸ hb) hba.symm).symm⟩
  exact hc.apart.forall hj' hj (Ne.symm hne) hd hdd hid

theorem task_eq (hc : Coherent h) {i i' : Nat} {j j' : Job} (hj : h.jobs[i]? = some j)
    (hj' : h.jobs[i']? = some j') (hd : j.request.draws ≠ none)
    (hdd : j.request.draws = j'.request.draws) (hid : j.id = j'.id) : i = i' := by
  obtain ⟨hi, rfl⟩ := List.getElem?_eq_some_iff.mp hj
  obtain ⟨hi', rfl⟩ := List.getElem?_eq_some_iff.mp hj'
  rcases Nat.lt_trichotomy i i' with hlt | heq | hlt
  · exact absurd hid.symm (List.pairwise_iff_getElem.mp hc.apart i i' hi hi' hlt (hdd ▸ hd) hdd.symm)
  · exact heq
  · exact absurd hid (List.pairwise_iff_getElem.mp hc.apart i' i hi' hi hlt hd hdd)

theorem enrolled_eq (hc : Coherent h) {info info' : SessionInfo} (he : Enrolled h.jobs info)
    (he' : Enrolled h.jobs info') (hk : info.accessKey = info'.accessKey) : info = info' := by
  obtain ⟨j, hj, hs⟩ := he
  obtain ⟨j', hj', hs'⟩ := he'
  obtain ⟨hd, hid, -⟩ := Job.session?_eq_some hs
  obtain ⟨hd', hid', -⟩ := Job.session?_eq_some hs'
  have : j = j' := hc.job_eq hj hj' (by simp [hd]) (hd.trans hd'.symm)
    (hid.symm.trans (hk.trans hid'))
  exact Option.some.inj (hs.symm.trans (this ▸ hs'))

theorem indexed (hc : Coherent h) {t : Component} {uid k : String} {info : SessionInfo}
    (hi : (h.state.sessions.index t).lookup uid = some k)
    (hs : h.state.sessions.sessionOf k = some info) :
    info.accessKey = k ∧ info.uid = uid ∧ info.componentType = t.toU8 := by
  obtain ⟨info', he', hk', hu, ht⟩ := hc.index t uid k hi
  obtain ⟨w, hw, rfl⟩ := Option.map_eq_some_iff.mp hs
  obtain ⟨hk, he⟩ := hc.sessions k w hw
  have : w.value = info' := hc.enrolled_eq he he' (hk.trans hk'.symm)
  exact ⟨hk, this ▸ hu, this ▸ ht⟩

theorem session (hc : Coherent h) {k : String} {info : SessionInfo}
    (hs : h.state.sessions.sessionOf k = some info) :
    info.accessKey = k ∧ Enrolled h.jobs info := by
  obtain ⟨w, hw, rfl⟩ := Option.map_eq_some_iff.mp hs
  exact hc.sessions k w hw

theorem conversation (hc : Coherent h) {c : String} {conversation : Conversation}
    (hs : h.state.routes.getConversation c = some conversation) :
    conversation.id = c ∧ conversation.routingId = 1 ∧
      Opened h.jobs c conversation.fromUid conversation.toUid ∧
      ∀ route ∈ conversation.routes, Issued h c route.nonce := by
  obtain ⟨w, hw, rfl⟩ := Option.map_eq_some_iff.mp hs
  exact hc.conversations c w hw

theorem start (s : Storage) (hs : s.sessions = SessionStore.empty)
    (hr : s.routes = RouteStore.empty) :
    Coherent ⟨s, [], []⟩ where
  apart := List.Pairwise.nil
  sessions k w hw := by simp [hs, SessionStore.empty] at hw
  index t uid k hk := by cases t <;> simp [hs, SessionStore.empty, SessionStore.index] at hk
  conversations c w hw := by simp [hr, RouteStore.empty] at hw
  steps i pre op r hd := nomatch hd

theorem accept (hc : Coherent h) {j : Job} (hj : controller.admits h.jobs j) :
    Coherent (h.accept j) where
  apart := by
    refine List.pairwise_append.mpr ⟨hc.apart, List.pairwise_singleton _ _, fun j' hj' a ha => ?_⟩
    rw [List.mem_singleton.mp ha]
    exact hj j' hj'
  sessions k w hw := ⟨(hc.sessions k w hw).1, (hc.sessions k w hw).2.mono (List.prefix_append _ _)⟩
  index t uid k hk :=
    let ⟨info, he, hx⟩ := hc.index t uid k hk
    ⟨info, he.mono (List.prefix_append _ _), hx⟩
  conversations c w hw :=
    let ⟨hid, hr, ho, hi⟩ := hc.conversations c w hw
    ⟨hid, hr, ho.mono (List.prefix_append _ _),
      fun route hm => (hi route hm).mono (h.before_accept j)⟩
  steps i pre op r hd := (hc.steps i pre op r hd).mono (h.before_accept j)

theorem record (hc : Coherent h) {i : Nat} {op : RepoOp} (hp : Permits h i op) (c : Choice) :
    Coherent (h.record i op (h.state.step c op).1 (h.state.step c op).2) where
  apart := hc.apart
  sessions k w hw := by
    rcases Storage.lookup_session_step hw with ⟨w₀, hw₀, hv⟩ | ⟨rfl, rfl⟩
    · exact hv ▸ hc.sessions k w₀ hw₀
    · exact ⟨rfl, hp⟩
  index t uid k hk := by
    rcases Storage.lookup_index_step hk with hk | rfl
    · exact hc.index t uid k hk
    · exact hp
  conversations id w hw := by
    have hb := h.before_record i op (h.state.step c op).1 (h.state.step c op).2
    rcases Storage.lookup_conversation_step hw with ⟨w₀, hw₀, hv⟩ | ⟨rfl, rfl⟩
    · obtain ⟨hid, hr, ho, hi⟩ := hc.conversations id w₀ hw₀
      have hi' := fun route hm => (hi route hm).mono hb
      rcases hv with hv | ⟨r, rfl, hnew, hv⟩
      · exact hv ▸ ⟨hid, hr, ho, hi'⟩
      · refine hv ▸ ⟨hid, hr, ho, fun route hm => ?_⟩
        rcases List.mem_append.mp hm with hm | hm
        · exact hi' route hm
        · -- the route just added: its own step is the record that it was issued
          rw [List.mem_singleton.mp hm]
          obtain ⟨q, hj, hq⟩ := hp
          refine ⟨i, q, h.state, r, hj, hq, ?_⟩
          have hres : (h.state.step c (.setRoute id r)).1 = some r.nonce :=
            RouteStore.setRoute_eq_some.mpr ⟨rfl, hnew, w₀, hw₀⟩
          exact hres ▸ h.did_record i _ _ _
    · obtain ⟨hr, hn, ho⟩ := hp
      exact ⟨rfl, hr, ho, by simp [hn]⟩
  steps i' pre op' r hd := by
    have hb := h.before_record i op (h.state.step c op).1 (h.state.step c op).2
    rcases List.mem_cons.mp hd with he | hd
    · cases he
      exact hp.mono hb
    · exact (hc.steps i' pre op' r hd).mono hb

end Coherent
end FuzzyChat
