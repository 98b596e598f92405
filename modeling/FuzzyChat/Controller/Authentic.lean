import FuzzyChat.Controller.Delivery
import FuzzyChat.Controller.Endpoints

/-! What the controller does for an access key, it does for somebody who has given a password. -/

namespace FuzzyChat
open Interleave

/-- The session was opened by a login that is let in, or by the controller itself. -/
def Authentic (members : Table String Member) (jobs : List Job) (info : SessionInfo) : Prop :=
  ∃ j ∈ jobs, j.session? = some info ∧
    ∀ remoteAddr r, j.request = .login remoteAddr r → LetsIn members remoteAddr r

theorem Authentic.mono {members : Table String Member} {jobs jobs' : List Job}
    (hj : jobs <+: jobs') {info : SessionInfo} (h : Authentic members jobs info) :
    Authentic members jobs' info :=
  let ⟨j, hm, hx⟩ := h
  ⟨j, hj.subset hm, hx⟩

theorem Authentic.enrolled {members : Table String Member} {jobs : List Job} {info : SessionInfo}
    (h : Authentic members jobs info) : Enrolled jobs info :=
  let ⟨j, hm, hs, _⟩ := h
  ⟨j, hm, hs⟩

section
variable {members : Table String Member} {p : ControllerPool}

theorem letsIn_of_lodged (hp : Reachable (Storage.start members) p) {e : Event controller}
    (he : e ∈ p.log) {k : String} (hl : e.op.lodges = some (.accessKey, k))
    {remoteAddr : Option SocketAddr} {r : LoginRequest} {a : Except Abort Reply}
    (ht : p.tasks[e.task]? = some (⟨.login remoteAddr r, k⟩, .ret a)) :
    LetsIn members remoteAddr r := by
  have hown : e ∈ p.hist.own e.task := Hist.mem_own.mpr ⟨he, rfl⟩
  obtain ⟨info, hop⟩ : ∃ info, e.op = .insertSession info := by
    cases hop : e.op with
    | insertSession info => exact ⟨info, rfl⟩
    | setConversation c => simp [hop, RepoOp.lodges] at hl
    | _ => simp [hop, RepoOp.lodges] at hl
  cases login_outcome hp ht with
  | letIn h ha => exact h
  | panic h ha =>
    obtain ⟨hremote, huid, hc⟩ := h
    have htells : (Job.handler ⟨.login remoteAddr r, k⟩).Tells (p.hist.said e.task) a :=
      hp.leads e.task _ _ ht
    obtain ⟨clientIp, rfl⟩ := Option.ne_none_iff_exists'.mp hremote
    have hempty : r.uid.isEmpty = false := by simpa using huid
    simp only [handler_login, hempty, hc, Bool.false_eq_true, if_false] at htells
    obtain ⟨hsaid, -⟩ := htells.of_ret
    have hmem : e.exchange ∈ p.hist.said e.task := List.mem_map_of_mem hown
    rw [hsaid] at hmem
    cases hmem
  | turnedAway h h' ha =>
    have hsame := ha.unchanged e hown ⟨0, 0⟩
    have hnew := new_of_lodged hp he hl
    have hkey : info.accessKey = k := by simpa [hop, RepoOp.lodges] using hl
    refine absurd (fun hnone => ?_) hnew
    rw [← hsame, hop, ← hkey] at hnone
    simp [Storage.step, Storage.exec, Storage.withSessions, SessionStore.insertSession] at hnone

theorem authentic_of_stored (hp : Reachable (Storage.start members) p) {k : String}
    {info : SessionInfo} (hs : p.state.sessions.sessionOf k = some info) :
    info.accessKey = k ∧ Authentic members p.hist.jobs info := by
  have hco := coherent_of_reach hp
  obtain ⟨hkey, j, hj, hsession⟩ := hco.session hs
  obtain ⟨hdraws, hid, -⟩ := Job.session?_eq_some hsession
  refine ⟨hkey, j, hj, hsession, ?_⟩
  rintro remoteAddr r hr
  have hkeeps : p.state.Keeps .accessKey k := by
    intro hnone
    rw [SessionStore.sessionOf, hnone] at hs
    cases hs
  obtain ⟨e, he, hl⟩ := lodged_of_keeps hp hkeeps
  obtain ⟨⟨j', pr⟩, ht, hdraws', hid', hend⟩ := lodger_done hp e he _ _ hl
  have hj' : j' ∈ p.hist.jobs := List.mem_map.mpr ⟨_, List.mem_of_getElem? ht, rfl⟩
  obtain rfl : j' = j := by
    refine hco.job_eq hj' hj ?_ (hdraws'.trans hdraws.symm) ?_
    · simp [hdraws']
    · exact hid'.trans (hkey.symm.trans hid)
  cases pr with
  | call op k => cases hend
  | ret a =>
    obtain ⟨request, id⟩ := j'
    obtain rfl : request = .login remoteAddr r := hr
    obtain rfl : id = k := hid'
    exact letsIn_of_lodged hp he hl ht

theorem authentic_of_read (hp : Reachable (Storage.start members) p) {i : Nat} {k : String}
    {info : SessionInfo}
    (hs : (⟨.getSession k, some info⟩ : Sigma RepoOp.Res) ∈ p.hist.said i) :
    info.accessKey = k ∧ Authentic members p.hist.jobs info := by
  obtain ⟨pre, hd⟩ := Hist.mem_said.mp hs
  obtain ⟨p₀, c, hp₀, hb, -, hanswer⟩ := answer_of_did hp hd
  rw [Storage.step_getSession] at hanswer
  obtain ⟨hkey, hauthentic⟩ := authentic_of_stored hp₀ hanswer
  exact ⟨hkey, hauthentic.mono hb.jobs⟩

theorem Stored.authentic (hp : Reachable (Storage.start members) p) {info : SessionInfo}
    (hs : Stored p.hist info) : Authentic members p.hist.jobs info := by
  obtain ⟨e, he, hsession⟩ := hs
  obtain ⟨p₀, c, j, k, hp₀, hb, -, -, hpre, -⟩ := hp.event e he
  rw [hpre] at hsession
  exact (authentic_of_stored hp₀ hsession).2.mono hb.jobs

end

/-! The requests that come with an access key. -/

def Request.accessKey? : Request → Option String
  | .ping _ r => some r.accessKey
  | .logout r => some r.accessKey
  | .init r => some r.accessKey
  | .route r => some r.accessKey
  | .redeem r => some r.accessKey
  | .status _ r => some r.accessKey
  | _ => none

theorem checkedSession_read {k : String} {f : SessionInfo → Program}
    {es : List (Sigma RepoOp.Res)} {reply : Reply}
    (h : (checkedSession k f).Tells es (.ok reply)) :
    ∃ info, (⟨.getSession k, some info⟩ : Sigma RepoOp.Res) ∈ es := by
  obtain ⟨info, es', rfl, -⟩ := tells_checkedSession h
  exact ⟨info, List.mem_cons_self⟩

theorem session_read {j : Job} {k : String} {es : List (Sigma RepoOp.Res)} {reply : Reply}
    (hk : j.request.accessKey? = some k) (h : j.handler.Tells es (.ok reply)) :
    ∃ info, (⟨.getSession k, some info⟩ : Sigma RepoOp.Res) ∈ es := by
  obtain ⟨request, id⟩ := j
  cases request with
  | ping remoteAddr r =>
    cases hk
    rw [handler_ping] at h
    cases remoteAddr with
    | none => cases h.of_ret.2
    | some clientIp => exact checkedSession_read h
  | logout r =>
    cases hk
    rw [handler_logout] at h
    exact checkedSession_read h
  | init r =>
    cases hk
    rw [handler_init] at h
    exact checkedSession_read h
  | route r =>
    cases hk
    rw [handler_route] at h
    exact checkedSession_read h
  | redeem r =>
    cases hk
    rw [handler_redeem] at h
    exact checkedSession_read h
  | status version r =>
    cases hk
    rw [handler_status] at h
    exact checkedSession_read h
  | _ => cases hk

theorem opener_read {r : InitRequest} {id : String} {es : List (Sigma RepoOp.Res)}
    {a : Except Abort Reply} (h : (Job.handler ⟨.init r, id⟩).Tells es a) {x : Sigma RepoOp.Res}
    (hx : x ∈ es) (hl : x.1.lodges ≠ none) :
    ∃ info, (⟨.getSession r.accessKey, some info⟩ : Sigma RepoOp.Res) ∈ es := by
  rw [handler_init] at h
  obtain ⟨answer, es', rfl, h'⟩ := h.of_call
  cases answer with
  | none =>
    obtain ⟨rfl, -⟩ := h'.of_ret
    rw [List.mem_singleton.mp hx] at hl
    exact absurd rfl hl
  | some info => exact ⟨info, List.mem_cons_self⟩

section
variable {members : Table String Member} {p : ControllerPool}

theorem authentic_opener (hp : Reachable (Storage.start members) p) {c : String}
    {conversation : Conversation} (hs : p.state.routes.getConversation c = some conversation) :
    ∃ r info, (⟨.init r, c⟩ : Job) ∈ p.hist.jobs ∧ Authentic members p.hist.jobs info ∧
      info.accessKey = r.accessKey ∧ info.uid = conversation.fromUid := by
  have hco := coherent_of_reach hp
  obtain ⟨-, -, ⟨r, info, hj, henrolled, hkey, huid, -⟩, -⟩ := hco.conversation hs
  have hkeeps : p.state.Keeps .conversationId c := by
    intro hnone
    rw [RouteStore.getConversation, hnone] at hs
    cases hs
  obtain ⟨e, he, hl⟩ := lodged_of_keeps hp hkeeps
  obtain ⟨⟨j', pr⟩, ht, hdraws, hid, hend⟩ := lodger_done hp e he _ _ hl
  have hj' : j' ∈ p.hist.jobs := List.mem_map.mpr ⟨_, List.mem_of_getElem? ht, rfl⟩
  obtain rfl : j' = ⟨.init r, c⟩ := hco.job_eq hj' hj (by simp [hdraws]) hdraws hid
  cases pr with
  | call op k => cases hend
  | ret a =>
    have htells : (Job.handler ⟨.init r, c⟩).Tells (p.hist.said e.task) a := hp.leads e.task _ _ ht
    have hmem : e.exchange ∈ p.hist.said e.task :=
      List.mem_map_of_mem (Hist.mem_own.mpr ⟨he, rfl⟩)
    have hlodges : e.exchange.1.lodges ≠ none := by
      rw [show e.exchange.1.lodges = _ from hl]
      simp
    obtain ⟨info', hread⟩ := opener_read htells hmem hlodges
    obtain ⟨hkey', hauthentic⟩ := authentic_of_read hp hread
    obtain rfl : info = info' :=
      hco.enrolled_eq henrolled hauthentic.enrolled (hkey.trans hkey'.symm)
    exact ⟨r, info, hj, hauthentic, hkey, huid⟩

theorem source_read {r : RedeemRequest} {id : String} {es : List (Sigma RepoOp.Res)}
    {source : SourceInfo}
    (h : (Job.handler ⟨.redeem r, id⟩).Tells es (.ok (.redeem ⟨some source⟩))) :
    ∃ conversation, (⟨.getConversation r.conversationId, some conversation⟩ :
      Sigma RepoOp.Res) ∈ es ∧ conversation.fromUid = source.fromUid := by
  rw [handler_redeem] at h
  obtain ⟨info, es₁, rfl, h₁⟩ := tells_checkedSession h
  obtain ⟨conversation, es₂, rfl, h₂⟩ := tells_checkedConversation h₁
  obtain ⟨route, es₃, rfl, h₃⟩ := h₂.of_call
  cases route with
  | none => cases h₃.of_ret.2
  | some route =>
  obtain ⟨⟨⟩, es₄, rfl, h₄⟩ := h₃.of_call
  cases hend : route.endRoute with
  | false =>
    simp only [hend, Bool.false_eq_true, if_false] at h₄
    cases h₄.of_ret.2
  | true =>
    simp only [hend, if_true] at h₄
    obtain ⟨conversation', es₅, rfl, h₅⟩ := tells_fetchedConversation h₄
    obtain ⟨⟨⟩, es₆, rfl, h₆⟩ := h₅.of_call
    obtain ⟨-, hsource⟩ := h₆.of_ret
    cases hsource
    exact ⟨conversation', by simp, rfl⟩

/-- Whatever the controller grants goes back to a login with the password on record, or to the
controller's own registration: a request is accepted for such a session's key only, an endpoint is
handed out only as such a session announced it, and a message is told to come only from such a
session's uid. -/
structure Vouched (members : Table String Member) (p : ControllerPool) : Prop where
  accepted : ∀ i j k reply, p.returned i = some (j, .ok reply) → j.request.accessKey? = some k →
    ∃ info, Authentic members p.hist.jobs info ∧ info.accessKey = k
  announced : ∀ i r nonce resp, p.returned i = some (⟨.route r, nonce⟩, .ok (.route resp)) →
    ∃ info, Authentic members p.hist.jobs info ∧ resp.Carries info
  sent : ∀ i r id source, p.returned i = some (⟨.redeem r, id⟩, .ok (.redeem ⟨some source⟩)) →
    ∃ r₀ info, (⟨.init r₀, r.conversationId⟩ : Job) ∈ p.hist.jobs ∧
      Authentic members p.hist.jobs info ∧ info.accessKey = r₀.accessKey ∧
      info.uid = source.fromUid

theorem controller_vouches (hp : Reachable (Storage.start members) p) : Vouched members p where
  accepted i j k reply ht hk := by
    obtain ⟨info, hread⟩ := session_read hk (hp.leads i _ _ (Pool.returned_eq_some.mp ht))
    obtain ⟨hkey, hauthentic⟩ := authentic_of_read hp hread
    exact ⟨info, hauthentic, hkey⟩
  announced i r nonce resp ht := by
    obtain ⟨-, hpost⟩ := Reach.handled (G := fun _ _ _ => True) (fun _ _ _ _ _ _ => trivial) hp
    obtain ⟨_, conversation, info, hr⟩ := hpost i _ _ (Pool.returned_eq_some.mp ht)
    exact ⟨info, hr.stored.authentic hp, hr.carries⟩
  sent i r id source ht := by
    have htells : (Job.handler ⟨.redeem r, id⟩).Tells (p.hist.said i)
        (.ok (.redeem ⟨some source⟩)) := hp.leads i _ _ (Pool.returned_eq_some.mp ht)
    obtain ⟨conversation, hread, hfrom⟩ := source_read htells
    obtain ⟨pre, hd⟩ := Hist.mem_said.mp hread
    obtain ⟨p₀, c, hp₀, hb, -, hanswer⟩ := answer_of_did hp hd
    rw [Storage.step_getConversation] at hanswer
    obtain ⟨r₀, info, hj, hauthentic, hkey, huid⟩ := authentic_opener hp₀ hanswer
    exact ⟨r₀, info, hb.jobs.subset hj, hauthentic.mono hb.jobs, hkey, huid.trans hfrom⟩

end

theorem controller_vouches_sample : ∃ p : ControllerPool,
    Reachable (Storage.start sampleMembers) p ∧
    p.returned 9 = some (redeemRoute "k-bob" "n4", .ok (.redeem ⟨some ⟨"alice"⟩⟩)) ∧
    ∃ r info, (⟨.init r, "c"⟩ : Job) ∈ p.hist.jobs ∧ Authentic sampleMembers p.hist.jobs info ∧
      info.accessKey = r.accessKey ∧ info.uid = "alice" := by
  obtain ⟨p, hrun, h9⟩ : ∃ p, (Pool.start (Storage.start sampleMembers) :
      ControllerPool).run (inTurn sampleEndRedeemed) = some p ∧ p.returned 9 =
        some (redeemRoute "k-bob" "n4", .ok (.redeem ⟨some ⟨"alice"⟩⟩)) := exists_run (by decide)
  have hp := Reachable.of_run hrun
  exact ⟨p, hp, h9, (controller_vouches hp).sent 9 _ _ _ h9⟩

end FuzzyChat
