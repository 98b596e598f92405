import FuzzyChat.Peers.Scene

/-! How the controller serves the requests of a message under way, whatever the other requests do
between the steps. -/

namespace FuzzyChat
open Interleave

section
variable {x : Setting} {d : Parties} {s₀ : Storage} {i : Nat} {j : Job} {g : Progress}
  {Q : Except Abort Reply → ControllerHist → Prop}

abbrev Served (x : Setting) (d : Parties) (s₀ : Storage) (i : Nat) (j : Job) (g : Progress)
    (pr : Program) (Q : Except Abort Reply → ControllerHist → Prop) : Prop :=
  Prog.Ends (S := controller) x.rivals s₀ i j (Stage x d g) pr Q

theorem served_call (hu : Undisturbed x d s₀) {op : RepoOp} {k : op.Res → Program}
    (P : op.Res → Progress → Prop)
    (hop : ∀ c h, Stage x d g h → ∃ g', P (h.state.step c op).1 g' ∧
      Stage x d g' (h.record i op (h.state.step c op).1 (h.state.step c op).2))
    (hk : ∀ r g', P r g' → Served x d s₀ i j g' (k r) Q) : Served x d s₀ i j g (.call op k) Q :=
  Prog.Ends.call (B := fun r h => ∃ g', P r g' ∧ Stage x d g' h)
    (fun t p hp hs => hs.steady (hu i t p hp hs.scene)) (fun c h hs => ⟨_, _, rfl, hop c h hs⟩)
    fun r => .exists fun g' => .of_imp (hk r g')

theorem served_read (hu : Undisturbed x d s₀) {op : RepoOp} {k : op.Res → Program}
    (P : op.Res → Prop) (hop : op.Reads)
    (hP : ∀ c h, Stage x d g h → P (h.state.step c op).1)
    (hk : ∀ r, P r → Served x d s₀ i j g (k r) Q) : Served x d s₀ i j g (.call op k) Q :=
  served_call hu (fun r g' => P r ∧ g' = g) (fun c h hs => ⟨g, ⟨hP c h hs, rfl⟩, hs.read op hop c⟩)
    fun r _ hr => hr.2 ▸ hk r hr.1

def Admitted (x : Setting) (d : Parties) (g : Progress) (k : String) : Prop :=
  ∀ s : SessionStore, Scene x.network d s →
    (∀ uid, g.known uid → ∃ k', s.proxies.lookup uid = some k') →
    ∃ info, s.sessionOf k = some info

theorem served_checkedSession (hu : Undisturbed x d s₀) {k : String} (hk : Admitted x d g k)
    {f : SessionInfo → Program} (hf : ∀ info, Served x d s₀ i j g (f info) Q) :
    Served x d s₀ i j g (checkedSession k f) Q := by
  refine served_read hu (fun r => ∃ info, r = some info) trivial (fun c h hs => ?_) ?_
  · rw [Storage.step_getSession]
    exact hk _ hs.scene hs.known
  · rintro r ⟨info, rfl⟩
    exact hf info

theorem served_fetchedSession (hu : Undisturbed x d s₀) {k : String} {info : SessionInfo}
    (hk : ∀ h, Stage x d g h → h.state.sessions.sessionOf k = some info)
    {f : SessionInfo → Program} (hf : Served x d s₀ i j g (f info) Q) :
    Served x d s₀ i j g (fetchedSession k f) Q := by
  refine served_read hu (fun r => r = some info) trivial (fun c h hs => ?_) ?_
  · rw [Storage.step_getSession]
    exact hk h hs
  · rintro r rfl
    exact hf

theorem served_getConversation (hu : Undisturbed x d s₀) {v : Conversation}
    (hv : g.conversation = some v) {k : Option Conversation → Program}
    (hk : Served x d s₀ i j g (k (some v)) Q) :
    Served x d s₀ i j g (.call (.getConversation (x.ids 0)) k) Q := by
  refine served_read hu (fun r => r = some v) trivial (fun c h hs => ?_) ?_
  · rw [Storage.step_getConversation]
    exact hs.conversation.trans hv
  · rintro r rfl
    exact hk

def Progress.opened (g : Progress) (v : Conversation) : Progress :=
  { g with conversation := some v }

theorem served_init (hu : Undisturbed x d s₀) (hg : g.conversation = none) (hto : d.toUid ≠ "") :
    Served x d s₀ i j g (Job.handler ⟨.init ⟨d.sender.accessKey, d.toUid⟩, x.ids 0⟩) fun a h =>
      a = .ok (.init ⟨x.ids 0⟩) ∧
        Stage x d (g.opened (Conversation.new (x.ids 0) d.sender.uid d.toUid 1)) h := by
  rw [handler_init]
  refine served_checkedSession hu (fun _ hs _ => ⟨_, hs.sender⟩) fun _ => ?_
  refine served_fetchedSession hu (fun h hs => hs.scene.sender) ?_
  have hrecipient : RouteService.recipient ⟨d.sender.accessKey, d.toUid⟩ = d.toUid :=
    if_neg fun he => hto (String.isEmpty_iff.mp he)
  rw [hrecipient]
  refine served_call hu (fun r g' => r = some (x.ids 0) ∧
      g' = g.opened (Conversation.new (x.ids 0) d.sender.uid d.toUid 1)) (fun c h hs => ?_) ?_
  · have hnone : h.state.routes.conversations.lookup (x.ids 0) = none :=
      Option.map_eq_none_iff.mp (hs.conversation.trans hg)
    refine ⟨_, ⟨?_, rfl⟩, hs.record rfl rfl (.refl _) ?_ fun n id => hs.routes n id⟩
    · simp [Storage.step, Storage.exec, Storage.tick, RouteStore.setConversation,
        Conversation.new, hnone]
    · exact RouteStore.getConversation_setConversation _ _ _
  · rintro r g' ⟨rfl, rfl⟩
    exact .ret fun h hs => ⟨rfl, hs⟩

/-! Routes. -/

def routeTo (nonce : String) (info : SessionInfo) (endRoute : Bool) : RouteResponse where
  ipAddress := info.onIpAddress
  portNumber := info.onPortNumber.toUInt32
  publicKey := info.publicKey
  domainName := info.domainName
  nonce := nonce
  endRoute := endRoute

def Progress.stored (x : Setting) (g : Progress) (v : Conversation) (m : Nat) (info : SessionInfo)
    (endRoute : Bool) : Progress :=
  let route := RouteManager.storedRoute (x.ids (m + 1)) info.toConnectionSettings endRoute
  { g with
    conversation := some (v.pushRoute route)
    routes := fun n => if n = m then some route else g.routes n }

theorem served_storeProgram (hu : Undisturbed x d s₀) (hids : Function.Injective x.ids)
    {v : Conversation} (hv : g.conversation = some v) {m : Nat} (hm : g.routes m = none)
    (info : SessionInfo) (endRoute : Bool) :
    Served x d s₀ i j g (storeProgram (x.ids (m + 1)) (x.ids 0) info endRoute) fun a h =>
      a = .ok (.route (routeTo (x.ids (m + 1)) info endRoute)) ∧
        Stage x d (g.stored x v m info endRoute) h := by
  refine served_call hu (fun r g' => r = some (x.ids (m + 1)) ∧ g' = g.stored x v m info endRoute)
    (fun c h hs => ?_) ?_
  · have hnew : h.state.routes.routes.lookup (x.ids (m + 1)) = none :=
      Option.map_eq_none_iff.mp ((hs.routes m "").trans hm)
    have hconv := hs.conversation.trans hv
    obtain ⟨w, hw, -⟩ := Option.map_eq_some_iff.mp hconv
    refine ⟨_, ⟨RouteStore.setRoute_eq_some.mpr ⟨rfl, hnew, w, hw⟩, rfl⟩,
      hs.record rfl rfl (.refl _) ?_ fun n id => ?_⟩
    · refine (RouteStore.getConversation_setRoute hnew).trans ?_
      exact congrArg _ hconv
    · refine (RouteStore.getRoute_setRoute _ _ _ _ _ _).trans ?_
      simp only [Progress.stored, RouteManager.storedRoute, hids.eq_iff, Nat.add_right_cancel_iff]
      split_ifs
      · rfl
      · exact hs.routes n id
  · rintro r g' ⟨rfl, rfl⟩
    exact .ret fun h hs => ⟨rfl, hs⟩

theorem Stage.knowing {h : ControllerHist} {known : String → Prop} (hs : Stage x d g h)
    (hk : ∀ uid, known uid → g.known uid) : Stage x d { g with known := known } h :=
  { hs with known := fun uid hu => hs.known uid (hk uid hu) }

theorem getProxies_scene {h : ControllerHist} (hs : Stage x d g h) (k : String) (index : Nat) :
    ∃ proxies, (h.state.sessions.getProxies k).map (reorder index) = some proxies ∧
      proxies ≠ [] ∧ ∀ info ∈ proxies, ∃ uid, (∃ k', h.state.sessions.proxies.lookup uid = some k') ∧
        x.network.Reaches info (.proxy uid) := by
  obtain ⟨uid, uid', k₁, k₂, hne, h₁, h₂⟩ := hs.scene.two
  obtain ⟨u, k', hk', hkk⟩ : ∃ u k', h.state.sessions.proxies.lookup u = some k' ∧ k' ≠ k := by
    by_cases hk : k₁ = k
    · exact ⟨uid', k₂, h₂, fun he => hne (hk.trans he.symm)⟩
    · exact ⟨uid, k₁, h₁, hk⟩
  obtain ⟨info, hinfo, -⟩ := (hs.scene.proxies u k' hk').stored
  cases hget : h.state.sessions.getProxies k with
  | none =>
    have hmem := SessionStore.getProxies_none hget u k' hk' hkk
    exact absurd hinfo (by simp [hmem])
  | some result =>
    refine ⟨reorder index result, rfl, fun hnil => ?_, fun info' hm => ?_⟩
    · exact SessionStore.getProxies_ne_nil hget
        (List.perm_nil.mp (hnil ▸ (reorder_perm index result).symm))
    · obtain ⟨uid, k', hl, -, hs'⟩ :=
        (SessionStore.mem_getProxies hget).mp ((reorder_perm index result).mem_iff.mp hm)
      obtain ⟨info'', hinfo'', hreach⟩ := (hs.scene.proxies uid k' hl).stored
      rw [hs', Option.some.injEq] at hinfo''
      exact ⟨uid, ⟨k', hl⟩, hinfo'' ▸ hreach⟩

def Progress.hop (x : Setting) (g : Progress) (v : Conversation) (m : Nat) (info : SessionInfo)
    (uid : String) : Progress :=
  { g.stored x v m info false with known := fun u => u = uid }

theorem served_hopProgram (hu : Undisturbed x d s₀) (hids : Function.Injective x.ids)
    {v : Conversation} (hv : g.conversation = some v) {m : Nat} (hm : g.routes m = none)
    (k : String) :
    Served x d s₀ i j g (hopProgram (x.ids (m + 1)) ⟨k, x.ids 0⟩) fun a h =>
      ∃ info uid, x.network.Reaches info (.proxy uid) ∧
        a = .ok (.route (routeTo (x.ids (m + 1)) info false)) ∧
        Stage x d (g.hop x v m info uid) h := by
  refine served_call hu (fun r g' => ∃ proxies known, r = some proxies ∧ proxies ≠ [] ∧
    (∀ info ∈ proxies, ∃ uid, known uid ∧ x.network.Reaches info (.proxy uid)) ∧
    g' = { g with known := known }) (fun c h hs => ?_) ?_
  · obtain ⟨proxies, hget, hne, hreach⟩ := getProxies_scene hs k c.index
    refine ⟨_, ⟨proxies, _, hget, hne, hreach, rfl⟩, ?_⟩
    exact { hs.read (.getProxies k) trivial c with known := fun _ hk => hk }
  · rintro r g' ⟨proxies, known, rfl, hne, hreach, rfl⟩
    have hempty : proxies.isEmpty = false := List.isEmpty_eq_false_iff.mpr hne
    simp only [hempty, Bool.false_eq_true, if_false]
    refine served_read hu (fun index : Option Nat => index.getD 0 < proxies.length) trivial
      (fun c h _ => ?_) fun index hindex => ?_
    · exact chooseFrom_lt _ hne
    · obtain ⟨uid, hknown, hr⟩ := hreach _ (List.getElem_mem hindex)
      rw [List.getElem?_eq_getElem hindex]
      refine (served_storeProgram (g := { g with known := known }) hu hids hv hm _ false).mono
        fun a h ⟨ha, hs⟩ => ⟨_, uid, hr, ha, hs.knowing fun u hu => hu ▸ hknown⟩

theorem served_finalProgram (hu : Undisturbed x d s₀) (hids : Function.Injective x.ids)
    {v : Conversation} (hv : g.conversation = some v) (hto : v.toUid = d.toUid) {m : Nat}
    (hm : g.routes m = none) (k : String) :
    Served x d s₀ i j g (finalProgram (x.ids (m + 1)) ⟨k, x.ids 0⟩ v) fun a h =>
      a = .ok (.route (routeTo (x.ids (m + 1)) d.recipient true)) ∧
        Stage x d (g.stored x v m d.recipient true) h := by
  refine served_read hu (fun r => r = some d.recipient.accessKey) trivial (fun c h hs => ?_) ?_
  · rw [Storage.step_clientKey, hto]
    exact hs.scene.client
  · rintro r rfl
    refine served_read hu (fun r => r = some d.recipient) trivial (fun c h hs => ?_) ?_
    · exact hs.scene.recipient
    · rintro r rfl
      exact served_storeProgram hu hids hv hm _ true

section
variable {k : String} (hk : Admitted x d g k) {v : Conversation} (hv : g.conversation = some v)
  {m : Nat} (hm : g.routes m = none)
include hk hv hm

theorem served_hop (hu : Undisturbed x d s₀) (hids : Function.Injective x.ids)
    (hid : v.routingId = 1) (hlen : v.routes.length ≠ 3) :
    Served x d s₀ i j g (Job.handler ⟨.route ⟨k, x.ids 0⟩, x.ids (m + 1)⟩) fun a h =>
      ∃ info uid, x.network.Reaches info (.proxy uid) ∧
        a = .ok (.route (routeTo (x.ids (m + 1)) info false)) ∧
        Stage x d (g.hop x v m info uid) h := by
  rw [handler_route]
  refine served_checkedSession hu hk fun _ => ?_
  refine served_getConversation hu hv (served_getConversation hu hv ?_)
  simp only [hid, hlen, if_true, if_false]
  exact served_hopProgram hu hids hv hm k

theorem served_final (hu : Undisturbed x d s₀) (hids : Function.Injective x.ids)
    (hid : v.routingId = 1) (hlen : v.routes.length = 3) (hto : v.toUid = d.toUid) :
    Served x d s₀ i j g (Job.handler ⟨.route ⟨k, x.ids 0⟩, x.ids (m + 1)⟩) fun a h =>
      a = .ok (.route (routeTo (x.ids (m + 1)) d.recipient true)) ∧
        Stage x d (g.stored x v m d.recipient true) h := by
  rw [handler_route]
  refine served_checkedSession hu hk fun _ => ?_
  refine served_getConversation hu hv (served_getConversation hu hv ?_)
  simp only [hid, hlen, if_true]
  exact served_finalProgram hu hids hv hto hm k

end

/-! Redemptions. -/

def Progress.redeemed (g : Progress) (m : Nat) : Progress :=
  { g with routes := fun n => if n = m then none else g.routes n }

def Progress.finalized (g : Progress) : Progress := { g with conversation := none }

theorem served_redeem (hu : Undisturbed x d s₀) (hids : Function.Injective x.ids) {k : String}
    (hk : Admitted x d g k) {v : Conversation} (hv : g.conversation = some v) {m : Nat}
    {route : Route} (hm : g.routes m = some route) (id : String) :
    Served x d s₀ i j g (Job.handler ⟨.redeem ⟨k, x.ids 0, x.ids (m + 1)⟩, id⟩) fun a h =>
      if route.endRoute then
        a = .ok (.redeem ⟨some ⟨v.fromUid⟩⟩) ∧ Stage x d (g.redeemed m).finalized h
      else a = .ok (.redeem ⟨none⟩) ∧ Stage x d (g.redeemed m) h := by
  rw [handler_redeem]
  refine served_checkedSession hu hk fun _ => served_getConversation hu hv ?_
  refine served_read hu (fun r => r = some route) trivial (fun c h hs => ?_) ?_
  · rw [Storage.step_getRoute]
    exact (hs.routes m _).trans hm
  · rintro r rfl
    refine served_call hu (fun _ g' => g' = g.redeemed m) (fun c h hs => ?_) ?_
    · refine ⟨_, rfl, hs.record rfl rfl (.refl _) hs.conversation fun n id => ?_⟩
      refine (RouteStore.getRoute_removeRoute _ _ _ _).trans ?_
      simp only [Progress.redeemed, hids.eq_iff, Nat.add_right_cancel_iff]
      split_ifs
      · rfl
      · exact hs.routes n id
    · rintro _ g' rfl
      split_ifs
      · refine served_getConversation (g := g.redeemed m) hu hv ?_
        refine served_call hu (fun _ g' => g' = (g.redeemed m).finalized) (fun c h hs => ?_) ?_
        · exact ⟨_, rfl, hs.record rfl rfl (.refl _)
            (RouteStore.getConversation_removeConversation _ _) hs.routes⟩
        · rintro _ g' rfl
          exact .ret fun h hs => ⟨rfl, hs⟩
      · exact .ret fun h hs => ⟨rfl, hs⟩

end
end FuzzyChat
