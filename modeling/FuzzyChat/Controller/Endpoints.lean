import FuzzyChat.Controller.Admission

/-! The sessions route requests come to, and the endpoints these were announced with. -/

namespace FuzzyChat
open Interleave

/-! What a route request has been told. -/

def sessionFound? : Sigma RepoOp.Res → Option SessionInfo
  | ⟨.sessionOf _, found⟩ => found
  | _ => none

def proxiesFound? : Sigma RepoOp.Res → Option (List SessionInfo)
  | ⟨.getProxies _, found⟩ => found
  | _ => none

def indexDrawn? : Sigma RepoOp.Res → Option Nat
  | ⟨.choose _, index⟩ => index
  | _ => none

/-- The session a route request has come to: the client it has looked up, or else the proxy it has
drawn from the list. -/
def comesTo (said : List (Sigma RepoOp.Res)) : Option SessionInfo :=
  (said.findSome? sessionFound?).or
    ((said.findSome? proxiesFound?).bind fun proxies =>
      proxies[(said.findSome? indexDrawn?).getD 0]?)

def responseTo (info : SessionInfo) (nonce : String) (endRoute : Bool) : RouteResponse where
  ipAddress := info.onIpAddress
  portNumber := info.onPortNumber.toUInt32
  publicKey := info.publicKey
  domainName := info.domainName
  nonce := nonce
  endRoute := endRoute

section tells
variable {es : List (Sigma RepoOp.Res)} {x : Reply}

theorem tells_checkedSession {k : String} {f : SessionInfo → Program}
    (h : (checkedSession k f).Tells es (.ok x)) :
    ∃ info es', es = ⟨.getSession k, some info⟩ :: es' ∧ (f info).Tells es' (.ok x) := by
  obtain ⟨found, es', rfl, hrest⟩ := h.of_call
  cases found with
  | none => nomatch hrest.of_ret.2
  | some info => exact ⟨info, es', rfl, hrest⟩

theorem tells_checkedConversation {c : String} {f : Conversation → Program}
    (h : (checkedConversation c f).Tells es (.ok x)) :
    ∃ v es', es = ⟨.getConversation c, some v⟩ :: es' ∧ (f v).Tells es' (.ok x) := by
  obtain ⟨found, es', rfl, hrest⟩ := h.of_call
  cases found with
  | none => nomatch hrest.of_ret.2
  | some v => exact ⟨v, es', rfl, hrest⟩

theorem tells_fetchedConversation {c : String} {f : Conversation → Program}
    (h : (fetchedConversation c f).Tells es (.ok x)) :
    ∃ v es', es = ⟨.getConversation c, some v⟩ :: es' ∧ (f v).Tells es' (.ok x) := by
  obtain ⟨found, es', rfl, hrest⟩ := h.of_call
  cases found with
  | none => nomatch hrest.of_ret.2
  | some v => exact ⟨v, es', rfl, hrest⟩

theorem tells_storeProgram {nonce c : String} {info : SessionInfo} {endRoute : Bool}
    (h : (storeProgram nonce c info endRoute).Tells es (.ok x)) :
    ∃ n, es = [⟨.setRoute c (RouteManager.storedRoute nonce info.toConnectionSettings endRoute),
      some n⟩] ∧ x = .route (responseTo info n endRoute) := by
  obtain ⟨stored, es', rfl, hrest⟩ := h.of_call
  cases stored with
  | none => nomatch hrest.of_ret.2
  | some n =>
    obtain ⟨rfl, hx⟩ := hrest.of_ret
    cases hx
    exact ⟨n, rfl, rfl⟩

theorem tells_finalProgram {nonce : String} {r : RouteRequest} {v : Conversation}
    (h : (finalProgram nonce r v).Tells es (.ok x)) :
    ∃ info n k, x = .route (responseTo info n true) ∧ comesTo es = some info ∧
      (⟨.clientKey v.toUid, some k⟩ : Sigma RepoOp.Res) ∈ es ∧
      (⟨.sessionOf k, some info⟩ : Sigma RepoOp.Res) ∈ es := by
  obtain ⟨found, es₁, rfl, hrest⟩ := h.of_call
  cases found with
  | none => nomatch hrest.of_ret.2
  | some k =>
    obtain ⟨client, es₂, rfl, hrest'⟩ := hrest.of_call
    cases client with
    | none => nomatch hrest'.of_ret.2
    | some info =>
      obtain ⟨n, rfl, rfl⟩ := tells_storeProgram hrest'
      exact ⟨info, n, k, rfl, rfl, List.mem_cons_self, List.mem_cons_of_mem _ List.mem_cons_self⟩

theorem tells_hopProgram {nonce : String} {r : RouteRequest}
    (h : (hopProgram nonce r).Tells es (.ok x)) :
    ∃ info n proxies, x = .route (responseTo info n false) ∧ comesTo es = some info ∧
      (⟨.getProxies r.accessKey, some proxies⟩ : Sigma RepoOp.Res) ∈ es ∧ info ∈ proxies := by
  obtain ⟨found, es₁, rfl, hrest⟩ := h.of_call
  cases found with
  | none => nomatch hrest.of_ret.2
  | some proxies =>
    dsimp only at hrest
    split_ifs at hrest with hempty
    · nomatch hrest.of_ret.2
    · obtain ⟨index, es₂, rfl, hrest'⟩ := hrest.of_call
      cases hnext : proxies[index.getD 0]? with
      | none =>
        rw [hnext] at hrest'
        nomatch hrest'.of_ret.2
      | some info =>
        rw [hnext] at hrest'
        obtain ⟨n, rfl, rfl⟩ := tells_storeProgram hrest'
        refine ⟨info, n, proxies, rfl, ?_, List.mem_cons_self, List.mem_of_getElem? hnext⟩
        cases index with
        | none => exact hnext
        | some index => exact hnext

end tells

section reach
variable {C : ControllerPool → ControllerMove → Prop} {members : Table String Member}
  {p : ControllerPool}

theorem found_enrolled (hp : Reach C (Storage.start members) p) {i : Nat} {pre : Storage}
    {k : String} {info : SessionInfo} (hd : p.hist.Did i pre (.sessionOf k) (some info)) :
    Enrolled p.hist.jobs info := by
  obtain ⟨p₀, c, hp₀, hb, -, hfound⟩ := answer_of_did hp hd
  exact ((coherent_of_reach hp₀).session hfound).2.mono hb.jobs

theorem listed_enrolled (hp : Reach C (Storage.start members) p) {i : Nat} {pre : Storage}
    {k : String} {proxies : List SessionInfo}
    (hd : p.hist.Did i pre (.getProxies k) (some proxies)) :
    ∀ info ∈ proxies, Enrolled p.hist.jobs info := by
  intro info hmem
  obtain ⟨p₀, c, hp₀, hb, -, hanswer⟩ := answer_of_did hp hd
  obtain ⟨listed, hlisted, rfl⟩ := Option.map_eq_some_iff.mp hanswer
  obtain ⟨uid, k', -, -, hfound⟩ :=
    (SessionStore.mem_getProxies hlisted).mp ((reorder_perm c.index listed).mem_iff.mp hmem)
  exact ((coherent_of_reach hp₀).session hfound).2.mono hb.jobs

theorem found_client (hp : Reach C (Storage.start members) p) {i i' : Nat} {pre pre' : Storage}
    {uid k : String} {info : SessionInfo} (hk : p.hist.Did i pre (.clientKey uid) (some k))
    (hd : p.hist.Did i' pre' (.sessionOf k) (some info)) :
    info.uid = uid ∧ info.componentType = Component.client.toU8 := by
  obtain ⟨p₀, _, hp₀, hb₀, -, hkey⟩ := answer_of_did hp hk
  obtain ⟨p₁, _, hp₁, hb₁, -, hfound⟩ := answer_of_did hp hd
  obtain ⟨listed, he, hlk, hlu, hlt⟩ := (coherent_of_reach hp₀).index .client uid k hkey
  obtain ⟨hik, hi⟩ := (coherent_of_reach hp₁).session hfound
  obtain rfl : info = listed := (coherent_of_reach hp).enrolled_eq (hi.mono hb₁.jobs)
    (he.mono hb₀.jobs) (hik.trans hlk.symm)
  exact ⟨hlu, hlt⟩

theorem route_source (hp : Reach C (Storage.start members) p) {i : Nat} {q : RouteRequest}
    {nonce : String} {resp : RouteResponse}
    (ht : p.tasks[i]? = some (⟨.route q, nonce⟩, .ret (.ok (.route resp)))) :
    ∃ info n endRoute, resp = responseTo info n endRoute ∧
      comesTo (p.hist.said i) = some info ∧ Enrolled p.hist.jobs info ∧
      (info.componentType = Component.client.toU8 ∨ ∃ pre proxies,
        p.hist.Did i pre (.getProxies q.accessKey) (some proxies) ∧ info ∈ proxies) := by
  have htells : (Job.handler ⟨.route q, nonce⟩).Tells (p.hist.said i) (.ok (.route resp)) :=
    hp.leads i _ _ ht
  rw [handler_route] at htells
  obtain ⟨caller, es₁, hsaid, h₁⟩ := tells_checkedSession htells
  obtain ⟨v, es₂, rfl, h₂⟩ := tells_checkedConversation h₁
  obtain ⟨v', es₃, rfl, h₃⟩ := tells_fetchedConversation h₂
  have hlater : ∀ x ∈ es₃, x ∈ p.hist.said i := fun x hx =>
    hsaid ▸ List.mem_cons_of_mem _ (List.mem_cons_of_mem _ (List.mem_cons_of_mem _ hx))
  have hcomes : comesTo (p.hist.said i) = comesTo es₃ := by
    rw [hsaid]
    rfl
  rw [hcomes]
  split_ifs at h₃
  · obtain ⟨info, n, k, hx, hfound, hkey, hmem⟩ := tells_finalProgram h₃
    cases hx
    obtain ⟨pre, hdkey⟩ := Hist.mem_said.mp (hlater _ hkey)
    obtain ⟨pre', hdid⟩ := Hist.mem_said.mp (hlater _ hmem)
    exact ⟨info, n, true, rfl, hfound, found_enrolled hp hdid, .inl (found_client hp hdkey hdid).2⟩
  · obtain ⟨info, n, proxies, hx, hfound, hmem, hin⟩ := tells_hopProgram h₃
    cases hx
    obtain ⟨pre, hdid⟩ := Hist.mem_said.mp (hlater _ hmem)
    exact ⟨info, n, false, rfl, hfound, listed_enrolled hp hdid info hin,
      .inr ⟨pre, proxies, hdid, hin⟩⟩
  · nomatch h₃.of_ret.2

theorem route_comesTo (hp : Reach C (Storage.start members) p) {i : Nat} {q : RouteRequest}
    {nonce : String} {resp : RouteResponse}
    (ht : p.tasks[i]? = some (⟨.route q, nonce⟩, .ret (.ok (.route resp)))) :
    ∃ info n endRoute, resp = responseTo info n endRoute ∧
      comesTo (p.hist.said i) = some info ∧ Enrolled p.hist.jobs info := by
  obtain ⟨info, n, endRoute, hresp, hcomes, henrolled, -⟩ := route_source hp ht
  exact ⟨info, n, endRoute, hresp, hcomes, henrolled⟩

theorem login_enrolled (hp : Reach C (Storage.start members) p) {i : Nat}
    {remoteAddr : Option SocketAddr} {r : LoginRequest} {accessKey : String} {lr : LoginResponse}
    (ht : p.tasks[i]? = some (⟨.login remoteAddr r, accessKey⟩, .ret (.ok (.login lr)))) :
    ∃ c clientIp, Enrolled p.hist.jobs (SessionManager.sessionInfo accessKey r.uid c clientIp
      (AuthService.connectionSettings r)) := by
  cases login_outcome hp ht with
  | panic _ ha => nomatch ha
  | turnedAway _ _ ha =>
    obtain ⟨status, hstatus⟩ := ha.result
    nomatch hstatus
  | letIn hlets ha =>
    obtain ⟨hremote, huid, htype, -⟩ := hlets
    obtain ⟨clientIp, rfl⟩ := Option.ne_none_iff_exists'.mp hremote
    obtain ⟨c, hc, -⟩ := (fromI32_eq r.componentType).2.2.mpr htype
    have hempty : r.uid.isEmpty = false :=
      Bool.eq_false_iff.mpr fun h => huid (String.isEmpty_iff.mp h)
    have hjob : (⟨.login (some clientIp) r, accessKey⟩ : Job) ∈ p.hist.jobs := by
      apply List.mem_of_getElem? (i := i)
      simp [Pool.hist, ht]
    refine ⟨c, clientIp, _, hjob, ?_⟩
    simp [Job.session?, hempty, hc]

theorem response_of_login (hp : Reach C (Storage.start members) p) {i i' : Nat}
    {remoteAddr : Option SocketAddr} {r : LoginRequest} {accessKey : String} {lr : LoginResponse}
    (hlogin : p.tasks[i]? = some (⟨.login remoteAddr r, accessKey⟩, .ret (.ok (.login lr))))
    {q : RouteRequest} {nonce : String} {resp : RouteResponse}
    (hroute : p.tasks[i']? = some (⟨.route q, nonce⟩, .ret (.ok (.route resp)))) {info : SessionInfo}
    (hcomes : comesTo (p.hist.said i') = some info) (hkey : info.accessKey = accessKey) :
    ∃ n endRoute, resp =
      { ipAddress := r.onIp
        portNumber := r.onPort.toUInt16.toUInt32
        publicKey := r.publicKey
        domainName := r.domainName
        nonce := n
        endRoute := endRoute } := by
  obtain ⟨info', n, endRoute, rfl, hcomes', henrolled⟩ := route_comesTo hp hroute
  obtain ⟨c, clientIp, henrolled'⟩ := login_enrolled hp hlogin
  obtain rfl : info = info' := Option.some.inj (hcomes.symm.trans hcomes')
  have hsame := (coherent_of_reach hp).enrolled_eq henrolled henrolled' hkey
  exact ⟨n, endRoute, by rw [hsame]; rfl⟩

end reach
end FuzzyChat
