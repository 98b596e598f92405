import FuzzyChat.Controller.Coherence

/-! What every handler guarantees of its result, whatever the other requests do between its steps.
`G` is what is known of the moments at which the steps are taken. -/

namespace FuzzyChat
open Interleave

def Holds (s : Storage) : RepoOp → Prop
  | .getSession k => s.sessions.sessionOf k ≠ none
  | .getConversation c => s.routes.getConversation c ≠ none
  | _ => True

def Stored (h : ControllerHist) (info : SessionInfo) : Prop :=
  ∃ e ∈ h.log, e.pre.sessions.sessionOf info.accessKey = some info

structure RouteResponse.Carries (resp : RouteResponse) (info : SessionInfo) : Prop where
  ipAddress : resp.ipAddress = info.onIpAddress
  portNumber : resp.portNumber = info.onPortNumber.toUInt32
  publicKey : resp.publicKey = info.publicKey
  domainName : resp.domainName = info.domainName

theorem Stored.mono {h h' : ControllerHist} (hb : h.Before h') {info : SessionInfo}
    (hs : Stored h info) : Stored h' info :=
  let ⟨e, he, hi⟩ := hs
  ⟨e, hb.log he, hi⟩

section
variable (G : ControllerHist → Nat → Program → Prop) (i : Nat)

/-- What the task relied on was gone when it came to fetch it. -/
def Lost (h : ControllerHist) : Prop :=
  ∃ h₀ pr op, h₀.Before h ∧ G h₀ i pr ∧ pr.head? = some op ∧ op ∈ relies pr ∧
    ¬ Holds h₀.state op

def RequesterOf (h : ControllerHist) (r : RouteRequest) (info : SessionInfo) : Prop :=
  Enrolled h.jobs info ∧ info.accessKey = r.accessKey

structure Decides (r : RouteRequest) (nonce : String) (requester : SessionInfo)
    (conversation : Conversation) (h : ControllerHist) : Prop where
  known : ∃ pr, G h i pr ∧ pr.head? = some (.getConversation r.conversationId) ∧
    .getConversation r.conversationId ∈ relies pr
  job : h.jobs[i]? = some ⟨.route r, nonce⟩
  requester : RequesterOf h r requester
  found : h.state.routes.getConversation r.conversationId = some conversation

structure Routed (r : RouteRequest) (nonce : String) (resp : RouteResponse) (h : ControllerHist)
    (requester : SessionInfo) (conversation : Conversation) (info : SessionInfo) : Prop where
  decided : ∃ h₀, h₀.Before h ∧ Decides G i r nonce requester conversation h₀
  opened : Opened h.jobs r.conversationId conversation.fromUid conversation.toUid
  requester : RequesterOf h r requester
  stored : Stored h info
  carries : resp.Carries info
  endRoute : resp.endRoute = decide (conversation.routes.length = 3)
  final : resp.endRoute = true →
    info.componentType = Component.client.toU8 ∧ info.uid = conversation.toUid
  hop : resp.endRoute = false →
    info.componentType = Component.proxy.toU8 ∧ info.accessKey ≠ r.accessKey

/-- A redemption got its route, and tells of no sender but the conversation's. -/
structure Redeemed (r : RedeemRequest) (resp : RedeemResponse) (h : ControllerHist) : Prop where
  route : ∃ pre route, h.Did i pre (.getRoute r.conversationId r.nonce) (some route)
  source : ∀ src, resp.sourceInfo = some src →
    ∃ toUid, Opened h.jobs r.conversationId src.fromUid toUid

def Post (j : Job) (a : Except Abort Reply) (h : ControllerHist) : Prop :=
  match j.request, a with
  | .route r, .ok (.route resp) =>
    ∃ requester conversation info, Routed G i r j.id resp h requester conversation info
  | .redeem r, .ok (.redeem resp) => Redeemed i r resp h
  | .login .., .error .panic => True
  | _, .error .panic => Lost G i h
  | _, _ => True

variable {G i}

theorem lost_of_post {j : Job} {h : ControllerHist} (hp : Post G i j (.error .panic) h)
    (hj : ∀ remoteAddr r, j.request ≠ .login remoteAddr r) : Lost G i h := by
  obtain ⟨request, id⟩ := j
  cases request with
  | login remoteAddr r => exact absurd rfl (hj remoteAddr r)
  | _ => exact hp

theorem Lost.mono {h h' : ControllerHist} (hb : h.Before h') (hl : Lost G i h) : Lost G i h' :=
  let ⟨h₀, pr, op, hb₀, hx⟩ := hl
  ⟨h₀, pr, op, hb₀.trans hb, hx⟩

theorem RequesterOf.mono {h h' : ControllerHist} (hb : h.Before h') {r : RouteRequest}
    {info : SessionInfo} (hr : RequesterOf h r info) : RequesterOf h' r info :=
  ⟨hr.1.mono hb.jobs, hr.2⟩

theorem Routed.mono {h h' : ControllerHist} (hb : h.Before h') {r : RouteRequest} {nonce : String}
    {resp : RouteResponse} {requester : SessionInfo} {conversation : Conversation}
    {info : SessionInfo} (hr : Routed G i r nonce resp h requester conversation info) :
    Routed G i r nonce resp h' requester conversation info where
  decided := let ⟨h₀, hb₀, hd⟩ := hr.decided; ⟨h₀, hb₀.trans hb, hd⟩
  opened := hr.opened.mono hb.jobs
  requester := hr.requester.mono hb
  stored := hr.stored.mono hb
  carries := hr.carries
  endRoute := hr.endRoute
  final := hr.final
  hop := hr.hop

theorem Redeemed.mono {h h' : ControllerHist} (hb : h.Before h') {r : RedeemRequest}
    {resp : RedeemResponse} (hr : Redeemed i r resp h) : Redeemed i r resp h' where
  route := let ⟨pre, route, hd⟩ := hr.route; ⟨pre, route, hb.did hd⟩
  source src hs := let ⟨t, ho⟩ := hr.source src hs; ⟨t, ho.mono hb.jobs⟩

theorem Post.mono {j : Job} {a : Except Abort Reply} {h h' : ControllerHist} (hb : h.Before h')
    (hp : Post G i j a h) : Post G i j a h' := by
  unfold Post at hp ⊢
  split at hp
  · obtain ⟨requester, conversation, info, hr⟩ := hp
    exact ⟨requester, conversation, info, hr.mono hb⟩
  · exact Redeemed.mono hb hp
  · trivial
  · exact Lost.mono hb hp
  · trivial

structure Turn (i : Nat) (h : ControllerHist) (op : RepoOp) (r : op.Res) (h₁ h₂ : ControllerHist) :
    Prop where
  waited : h.Before h₁
  coherent : Coherent h₁
  answer : ∃ c, (h₁.state.step c op).1 = r
  after : h₁.Before h₂
  did : h₂.Did i h₁.state op r

namespace Turn
variable {h h₁ h₂ : ControllerHist}

theorem before {op : RepoOp} {r : op.Res} (t : Turn i h op r h₁ h₂) : h.Before h₂ :=
  t.waited.trans t.after

theorem stored {op : RepoOp} {r : op.Res} (t : Turn i h op r h₁ h₂) {info : SessionInfo}
    (hs : h₁.state.sessions.sessionOf info.accessKey = some info) : Stored h₂ info :=
  ⟨_, t.did, hs⟩

theorem getSession {k : String} {r : Option SessionInfo} (t : Turn i h (.getSession k) r h₁ h₂) :
    h₁.state.sessions.sessionOf k = r := let ⟨c, hc⟩ := t.answer; Storage.step_getSession _ c _ ▸ hc

theorem sessionOf {k : String} {r : Option SessionInfo} (t : Turn i h (.sessionOf k) r h₁ h₂) :
    h₁.state.sessions.sessionOf k = r := let ⟨_, hc⟩ := t.answer; hc

theorem clientKey {uid : String} {r : Option String} (t : Turn i h (.clientKey uid) r h₁ h₂) :
    (h₁.state.sessions.index .client).lookup uid = r := let ⟨_, hc⟩ := t.answer; hc

theorem getConversation {id : String} {r : Option Conversation}
    (t : Turn i h (.getConversation id) r h₁ h₂) :
    h₁.state.routes.getConversation id = r := let ⟨_, hc⟩ := t.answer; hc

theorem getProxies {k : String} {proxies : List SessionInfo}
    (t : Turn i h (.getProxies k) (some proxies) h₁ h₂) :
    proxies ≠ [] ∧ ∀ info ∈ proxies, info.accessKey ≠ k ∧
      info.componentType = Component.proxy.toU8 ∧
      h₁.state.sessions.sessionOf info.accessKey = some info := by
  obtain ⟨c, hc⟩ := t.answer
  obtain ⟨listed, hl, rfl⟩ := Option.map_eq_some_iff.mp hc
  constructor
  · intro hnil
    exact SessionStore.getProxies_ne_nil hl ((reorder_perm _ _).symm.trans (.of_eq hnil)).eq_nil
  · intro info hm
    obtain ⟨uid, k', hix, hk, hs⟩ :=
      (SessionStore.mem_getProxies hl).mp ((reorder_perm _ _).mem_iff.mp hm)
    obtain ⟨rfl, -, htype⟩ := t.coherent.indexed (t := .proxy) hix hs
    exact ⟨hk, htype, hs⟩

end Turn

variable {Q : Except Abort Reply → ControllerHist → Prop} {h : ControllerHist}

theorem safe_call {op : RepoOp} {k : op.Res → Program}
    (hp : ∀ h₁ : ControllerHist, h.Before h₁ → Coherent h₁ → Permits h₁ i op)
    (hk : ∀ r h₁ h₂, Turn i h op r h₁ h₂ → G h₁ i (.call op k) →
      (k r).Safe Coherent G i Q h₂) :
    Prog.Safe (S := controller) Coherent G i Q (.call op k) h := by
  intro h₁ c r s hl hI hG he
  have hs : h₁.state.step c op = (r, s) := Option.some.inj he
  have hrec := hI.record (hp h₁ hl.before hI) c
  rw [hs] at hrec
  exact ⟨hrec, hk r h₁ _
    ⟨hl.before, hI, ⟨c, by rw [hs]⟩, h₁.before_record i op r s, h₁.did_record i op r s⟩ hG⟩

section guards
variable {j : Job}

theorem post_refuse {s : Status} : Post G i j (.error (.status s)) h := by
  unfold Post
  split
  · contradiction
  · contradiction
  · trivial
  · rename_i heq _
    cases heq
  · trivial

theorem post_lost (hl : Lost G i h) : Post G i j (.error .panic) h := by
  unfold Post
  split <;> first | exact hl | trivial

theorem safe_checkSession {k : String} {f : SessionInfo → Program}
    (hk : ∀ info h₁ h₂, Turn i h (.getSession k) (some info) h₁ h₂ →
      (f info).Safe Coherent G i (Post G i j) h₂) :
    Prog.Safe (S := controller) Coherent G i (Post G i j) (checkedSession k f) h := by
  refine safe_call (fun _ _ _ => trivial) fun r h₁ h₂ t _ => ?_
  cases r with
  | none => exact post_refuse
  | some info => exact hk info h₁ h₂ t

theorem safe_checkConversation {c : String} {f : Conversation → Program}
    (hk : ∀ conversation h₁ h₂, Turn i h (.getConversation c) (some conversation) h₁ h₂ →
      (f conversation).Safe Coherent G i (Post G i j) h₂) :
    Prog.Safe (S := controller) Coherent G i (Post G i j) (checkedConversation c f) h := by
  refine safe_call (fun _ _ _ => trivial) fun r h₁ h₂ t _ => ?_
  cases r with
  | none => exact post_refuse
  | some conversation => exact hk conversation h₁ h₂ t

theorem safe_fetchSession {k : String} {f : SessionInfo → Program}
    (hk : ∀ info h₁ h₂, Turn i h (.getSession k) (some info) h₁ h₂ →
      (f info).Safe Coherent G i (Post G i j) h₂) :
    Prog.Safe (S := controller) Coherent G i (Post G i j) (fetchedSession k f) h := by
  refine safe_call (fun _ _ _ => trivial) fun r h₁ h₂ t hG => ?_
  cases r with
  | none =>
    exact post_lost ⟨h₁, _, .getSession k, t.after, hG, rfl, List.mem_singleton_self _,
      fun hn => hn t.getSession⟩
  | some info => exact hk info h₁ h₂ t

theorem safe_fetchConversation {c : String} {f : Conversation → Program}
    (hk : ∀ conversation h₁ h₂, Turn i h (.getConversation c) (some conversation) h₁ h₂ →
      (∃ pr, G h₁ i pr ∧ pr.head? = some (.getConversation c) ∧ .getConversation c ∈ relies pr) →
      (f conversation).Safe Coherent G i (Post G i j) h₂) :
    Prog.Safe (S := controller) Coherent G i (Post G i j) (fetchedConversation c f) h := by
  refine safe_call (fun _ _ _ => trivial) fun r h₁ h₂ t hG => ?_
  cases r with
  | none =>
    exact post_lost ⟨h₁, _, .getConversation c, t.after, hG, rfl, List.mem_singleton_self _,
      fun hn => hn t.getConversation⟩
  | some conversation =>
    exact hk conversation h₁ h₂ t ⟨_, hG, rfl, List.mem_singleton_self _⟩

end guards

section route
variable {r : RouteRequest} {nonce : String} {conversation : Conversation} {requester : SessionInfo}

theorem safe_storeProgram {info : SessionInfo} {endRoute : Bool}
    (hj : h.jobs[i]? = some ⟨.route r, nonce⟩)
    (hreply : ∀ resp h', h.Before h' → resp.Carries info → resp.endRoute = endRoute →
      ∃ requester conversation info, Routed G i r nonce resp h' requester conversation info) :
    Prog.Safe (S := controller) Coherent G i (Post G i ⟨.route r, nonce⟩)
      (storeProgram nonce r.conversationId info endRoute) h := by
  refine safe_call (fun h' hb _ => ⟨r, hb.job hj, rfl⟩) fun res h₁ h₂ t _ => ?_
  cases res with
  | none => trivial
  | some n => exact hreply _ _ t.before ⟨rfl, rfl, rfl, rfl⟩ rfl

variable (hj : h.jobs[i]? = some ⟨.route r, nonce⟩)
  (hd : ∃ h₀, h₀.Before h ∧ Decides G i r nonce requester conversation h₀)
  (ho : Opened h.jobs r.conversationId conversation.fromUid conversation.toUid)
  (hr : RequesterOf h r requester)
include hj hd ho hr

theorem safe_finalProgram (hlen : conversation.routes.length = 3) :
    Prog.Safe (S := controller) Coherent G i (Post G i ⟨.route r, nonce⟩)
      (finalProgram nonce r conversation) h := by
  refine safe_call (fun _ _ _ => trivial) fun key h₁ h₂ t₁ _ => ?_
  cases key with
  | none => trivial
  | some key =>
    refine safe_call (fun _ _ _ => trivial) fun info h₃ h₄ t₂ _ => ?_
    cases info with
    | none => trivial
    | some info =>
      -- the key was read earlier than the session: no other session can have taken its place
      obtain ⟨listed, hel, hkl, hul, htl⟩ := t₁.coherent.index .client _ _ t₁.clientKey
      obtain ⟨hki, hei⟩ := t₂.coherent.session t₂.sessionOf
      have hel' := hel.mono (t₁.after.trans t₂.waited).jobs
      obtain rfl : info = listed := t₂.coherent.enrolled_eq hei hel' (hki.trans hkl.symm)
      have hb := t₁.before.trans t₂.before
      refine safe_storeProgram (hb.job hj) fun resp h' hb' hcar hend =>
        ⟨requester, conversation, info, ?_⟩
      exact
        { decided := let ⟨h₀, hb₀, hd⟩ := hd; ⟨h₀, hb₀.trans (hb.trans hb'), hd⟩
          opened := ho.mono (hb.trans hb').jobs
          requester := hr.mono (hb.trans hb')
          stored := (t₂.stored (hki.symm ▸ t₂.sessionOf)).mono hb'
          carries := hcar
          endRoute := by rw [hend, decide_eq_true hlen]
          final := fun _ => ⟨htl, hul⟩
          hop := fun hf => nomatch hend.symm.trans hf }

theorem safe_hopProgram (hlen : conversation.routes.length ≠ 3) :
    Prog.Safe (S := controller) Coherent G i (Post G i ⟨.route r, nonce⟩)
      (hopProgram nonce r) h := by
  refine safe_call (fun _ _ _ => trivial) fun proxies h₁ h₂ t₁ _ => ?_
  cases proxies with
  | none => trivial
  | some proxies =>
    obtain ⟨hne, hproxies⟩ := t₁.getProxies
    dsimp only
    rw [if_neg (by simpa using hne)]
    refine safe_call (fun _ _ _ => trivial) fun index h₃ h₄ t₂ _ => ?_
    cases hget : proxies[Option.getD index 0]? with
    | none => trivial
    | some info =>
      obtain ⟨hkey, htype, hstored⟩ := hproxies info (List.mem_of_getElem? hget)
      have hb := t₁.before.trans t₂.before
      refine safe_storeProgram (hb.job hj) fun resp h' hb' hcar hend =>
        ⟨requester, conversation, info, ?_⟩
      exact
        { decided := let ⟨h₀, hb₀, hd⟩ := hd; ⟨h₀, hb₀.trans (hb.trans hb'), hd⟩
          opened := ho.mono (hb.trans hb').jobs
          requester := hr.mono (hb.trans hb')
          stored := (t₁.stored hstored).mono (t₂.before.trans hb')
          carries := hcar
          endRoute := by rw [hend, decide_eq_false hlen]
          final := fun ht => nomatch hend.symm.trans ht
          hop := fun _ => ⟨htype, hkey⟩ }

omit hd ho hr in
theorem safe_route :
    Prog.Safe (S := controller) Coherent G i (Post G i ⟨.route r, nonce⟩)
      (Job.handler ⟨.route r, nonce⟩) h := by
  rw [handler_route]
  refine safe_checkSession fun requester h₁ h₂ t₁ => ?_
  obtain ⟨hk, he⟩ := t₁.coherent.session t₁.getSession
  have hr : RequesterOf h₂ r requester := ⟨he.mono t₁.after.jobs, hk⟩
  refine safe_checkConversation fun first h₃ h₄ t₂ => ?_
  have hb := t₁.before.trans t₂.before
  refine safe_fetchConversation fun conversation h₅ h₆ t₃ hG => ?_
  obtain ⟨-, hid, ho, -⟩ := t₃.coherent.conversation t₃.getConversation
  have hd : ∃ h₀, h₀.Before h₆ ∧ Decides G i r nonce requester conversation h₀ :=
    ⟨h₅, t₃.after,
      { known := hG
        job := (hb.trans t₃.waited).job hj
        requester := hr.mono (t₂.before.trans t₃.waited)
        found := t₃.getConversation }⟩
  have hj' := (hb.trans t₃.before).job hj
  have hr' := hr.mono (t₂.before.trans t₃.before)
  rw [if_pos hid]
  split_ifs with hlen
  · exact safe_finalProgram hj' hd (ho.mono t₃.after.jobs) hr' hlen
  · exact safe_hopProgram hj' hd (ho.mono t₃.after.jobs) hr' hlen

end route

theorem safe_redeem {r : RedeemRequest} {id : String} (hj : h.jobs[i]? = some ⟨.redeem r, id⟩) :
    Prog.Safe (S := controller) Coherent G i (Post G i ⟨.redeem r, id⟩)
      (Job.handler ⟨.redeem r, id⟩) h := by
  rw [handler_redeem]
  refine safe_checkSession fun _ h₁ h₂ t₁ => ?_
  refine safe_checkConversation fun first h₃ h₄ t₂ => ?_
  have hj₂ := (t₁.before.trans t₂.before).job hj
  refine safe_call (fun _ _ _ => trivial) fun route h₅ h₆ t₃ _ => ?_
  cases route with
  | none => trivial
  | some route =>
    have hj₃ := t₃.before.job hj₂
    refine safe_call (fun h' hb _ => ⟨r, id, _, route, hb.job hj₃, rfl, hb.did t₃.did⟩)
      fun _ h₇ h₈ t₄ _ => ?_
    have hdid := t₄.before.did t₃.did
    cases hend : route.endRoute with
    | false => exact ⟨⟨_, route, hdid⟩, fun src hs => nomatch hs⟩
    | true =>
      rw [if_pos rfl]
      refine safe_fetchConversation fun conversation h₉ h₁₀ t₅ _ => ?_
      obtain ⟨-, -, ho, -⟩ := t₅.coherent.conversation t₅.getConversation
      have hj₅ := (t₄.before.trans t₅.before).job hj₃
      have hdid₅ := t₅.before.did hdid
      refine safe_call (fun h' hb _ => ⟨r, id, _, route, hb.job hj₅, rfl, hb.did hdid₅⟩)
        fun _ h₁₁ h₁₂ t₆ _ => ⟨⟨_, route, t₆.before.did hdid₅⟩, fun src hs => ?_⟩
      cases hs
      exact ⟨_, ho.mono (t₅.after.trans t₆.before).jobs⟩

theorem safe_init {r : InitRequest} {conversationId : String}
    (hj : h.jobs[i]? = some ⟨.init r, conversationId⟩) :
    Prog.Safe (S := controller) Coherent G i (Post G i ⟨.init r, conversationId⟩)
      (Job.handler ⟨.init r, conversationId⟩) h := by
  rw [handler_init]
  refine safe_checkSession fun _ h₁ h₂ t₁ => ?_
  refine safe_fetchSession fun info h₃ h₄ t₂ => ?_
  obtain ⟨hk, he⟩ := t₂.coherent.session t₂.getSession
  have hj' := (t₁.before.trans t₂.before).job hj
  refine safe_call (fun h' hb _ => ⟨rfl, rfl, r, info, List.mem_of_getElem? (hb.job hj'),
    he.mono (t₂.after.trans hb).jobs, hk, rfl, rfl⟩) fun res h₅ h₆ _ _ => ?_
  cases res with
  | none => trivial
  | some _ => trivial

theorem safe_ping {remoteAddr : Option SocketAddr} {r : PingRequest} {id : String} :
    Prog.Safe (S := controller) Coherent G i (Post G i ⟨.ping remoteAddr r, id⟩)
      (Job.handler ⟨.ping remoteAddr r, id⟩) h := by
  rw [handler_ping]
  cases remoteAddr with
  | none => trivial
  | some clientIp =>
    refine safe_checkSession fun _ h₁ h₂ t₁ => ?_
    refine safe_fetchSession fun info h₃ h₄ _ => ?_
    split_ifs
    · exact safe_call (fun _ _ _ => trivial) fun _ _ _ _ _ => trivial
    · trivial

theorem safe_logout {r : LogoutRequest} {id : String} :
    Prog.Safe (S := controller) Coherent G i (Post G i ⟨.logout r, id⟩)
      (Job.handler ⟨.logout r, id⟩) h := by
  rw [handler_logout]
  refine safe_checkSession fun _ h₁ h₂ _ => ?_
  refine safe_call (fun _ _ _ => trivial) fun w h₃ h₄ _ _ => ?_
  cases w with
  | none => trivial
  | some w => exact safe_call (fun _ _ _ => trivial) fun _ _ _ _ _ => trivial

theorem safe_status {version : String} {r : StatusRequest} {id : String} :
    Prog.Safe (S := controller) Coherent G i (Post G i ⟨.status version r, id⟩)
      (Job.handler ⟨.status version r, id⟩) h := by
  rw [handler_status]
  refine safe_checkSession fun _ h₁ h₂ _ => ?_
  refine safe_call (fun _ _ _ => trivial) fun _ _ _ _ _ => ?_
  refine safe_call (fun _ _ _ => trivial) fun _ _ _ _ _ => ?_
  exact safe_call (fun _ _ _ => trivial) fun _ _ _ _ _ => trivial

theorem safe_storeSession {j : Job} {info : SessionInfo} {componentType : Component}
    {next : Program} (he : Enrolled h.jobs info) (ht : info.componentType = componentType.toU8)
    (hnext : ∀ h', Prog.Safe (S := controller) Coherent G i (Post G i j) next h') :
    Prog.Safe (S := controller) Coherent G i (Post G i j)
      (storeSession info componentType next) h := by
  refine safe_call (fun h' hb _ => ⟨info, he.mono hb.jobs, rfl, rfl, ht⟩) fun _ h₁ h₂ t _ => ?_
  exact safe_call (fun h' hb _ => he.mono (t.before.trans hb).jobs) fun _ _ h' _ _ => hnext h'

theorem safe_login {remoteAddr : Option SocketAddr} {r : LoginRequest} {accessKey : String}
    (hj : h.jobs[i]? = some ⟨.login remoteAddr r, accessKey⟩) :
    Prog.Safe (S := controller) Coherent G i (Post G i ⟨.login remoteAddr r, accessKey⟩)
      (Job.handler ⟨.login remoteAddr r, accessKey⟩) h := by
  rw [handler_login]
  cases remoteAddr with
  | none => trivial
  | some clientIp =>
    dsimp only
    split_ifs with hu
    · trivial
    · cases hc : Component.fromI32 r.componentType with
      | none => trivial
      | some componentType =>
        dsimp only
        split_ifs
        · trivial
        · refine safe_call (fun _ _ _ => trivial) fun member h₁ h₂ t _ => ?_
          split_ifs
          · refine safe_storeSession ⟨_, List.mem_of_getElem? (t.before.job hj), ?_⟩ rfl
              fun _ => trivial
            simp only [Job.session?, hu, hc, Option.map_some, Bool.false_eq_true, if_false]
          · trivial

theorem safe_handler {j : Job} (hj : h.jobs[i]? = some j) :
    Prog.Safe (S := controller) Coherent G i (Post G i j) j.handler h := by
  obtain ⟨request, id⟩ := j
  cases request with
  | login remoteAddr r => exact safe_login hj
  | logout r => exact safe_logout
  | ping remoteAddr r => exact safe_ping
  | init r => exact safe_init hj
  | route r => exact safe_route hj
  | redeem r => exact safe_redeem hj
  | status version r => exact safe_status
  | register uid clientIp settings =>
    exact safe_storeSession ⟨_, List.mem_of_getElem? hj, rfl⟩ rfl fun _ => trivial
  | sweepSessions => exact safe_call (fun _ _ _ => trivial) fun _ _ _ _ _ => trivial
  | sweepRoutes => exact safe_call (fun _ _ _ => trivial) fun _ _ _ _ _ => trivial

end

/-- In every run the storage is coherent and every result is as its handler guarantees. -/
theorem Reach.handled {C : ControllerPool → ControllerMove → Prop}
    {G : ControllerHist → Nat → Program → Prop} {members : Table String Member}
    (hG : ∀ (p : ControllerPool) i c t, C p (.act i c) → p.tasks[i]? = some t → G p.hist i t.2)
    {p : ControllerPool} (hp : Reach C (Storage.start members) p) :
    Coherent p.hist ∧ ∀ i j a, p.tasks[i]? = some (j, .ret a) → Post G i j a p.hist := by
  obtain ⟨hI, hsafe⟩ := hp.safe (I := Coherent) (G := G) (Q := fun j i => Post G i j)
    (Coherent.start _ rfl rfl) (fun h j hc hj => hc.accept hj)
    (fun h j _ _ => safe_handler (by simp [Hist.accept]))
    (fun j i a h h' hp hl => hp.mono hl.before) hG
  exact ⟨hI, fun i j a ht => hsafe i j _ ht⟩

theorem coherent_of_reach {C : ControllerPool → ControllerMove → Prop}
    {members : Table String Member} {p : ControllerPool}
    (hp : Reach C (Storage.start members) p) : Coherent p.hist :=
  (Reach.handled (G := fun _ _ _ => True) (fun _ _ _ _ _ _ => trivial) hp).1

theorem stored_drawn {C : ControllerPool → ControllerMove → Prop} {members : Table String Member}
    {p : ControllerPool} (hp : Reach C (Storage.start members) p) {n : String}
    {w : ExpirationWrapper Route} (hw : p.state.routes.routes.lookup n = some w) :
    ∃ r, (⟨.route r, n⟩ : Job) ∈ p.hist.jobs := by
  induction hp generalizing w with
  | start => nomatch hw
  | @step p q m hp hc hq ih =>
    rcases controller_step hq with ⟨j, rfl, rfl⟩ | ⟨i, c, j, op, k, rfl, ht, rfl⟩
    · obtain ⟨r, hr⟩ := ih hw
      exact ⟨r, by rw [Pool.hist_accept]; exact List.mem_append_left _ hr⟩
    · have hco := coherent_of_reach (hp.step hc hq)
      rw [Pool.hist_advance ht] at hco ⊢
      rcases Storage.lookup_route_step hw with hold | ⟨id, rfl, rfl⟩
      · exact ih hold
      · obtain ⟨req, hj, -⟩ := hco.steps i _ _ _ (p.hist.did_record i _ _ _)
        exact ⟨req, List.mem_of_getElem? hj⟩

end FuzzyChat
