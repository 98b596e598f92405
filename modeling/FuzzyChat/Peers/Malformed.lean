import FuzzyChat.Peers.Announced
import FuzzyChat.Peers.Forwarding

/-! Announced addresses from which no endpoint can be formed: the client turns them down, a proxy
panics. -/

namespace FuzzyChat
open Interleave Peer

/-- Led on by the response, a proxy's `send` comes back, with a status if not with success. -/
def SendReturns (c : Crates) (resp : RouteResponse) : Prop :=
  ∀ conversationId accessKey content said res,
    (ProxyServiceImpl.send c conversationId accessKey content).run.Tells said res →
      ⟨.getRoute ⟨accessKey, conversationId⟩, .ok resp⟩ ∈ said →
        res = .ok () ∨ ∃ status, res = .error (.status status)

/-- Led on by the response, a client has its route or an error. -/
def InitializeReturns (c : Crates) (resp : RouteResponse) : Prop :=
  ∀ accessKey toUid said res q,
    (Commander.initializeRoute c accessKey toUid).run.Tells said res →
      ⟨.getRoute q, .ok resp⟩ ∈ said →
        (∃ route, res = .ok route) ∨ res = .error (.text "Invalid endpoint URI")

section endpoint
variable {c : Crates} {resp : RouteResponse}

theorem tells_noEndpoint {e : Fault} (he : resp.endpoint c = .error e)
    (conversationId accessKey : String) (content : List UInt8) :
    (ProxyServiceImpl.send c conversationId accessKey content).run.Tells
      [⟨.connectController, .ok ()⟩, ⟨.getRoute ⟨accessKey, conversationId⟩, .ok resp⟩]
      (.error .panic) := by
  have hpanic : (ProxyServiceImpl.routeSettings resp).getPublicEndpoint c = throw .panic := by
    rw [ConnectionSettings.getPublicEndpoint]
    exact congrArg (mapErr fun _ => Abort.panic) he
  refine .step (.step ?_)
  change (if resp.endRoute then ProxyServiceImpl.landCommand c (ProxyServiceImpl.routeSettings resp)
      conversationId resp.nonce accessKey content
    else ProxyServiceImpl.routeCommand c (ProxyServiceImpl.routeSettings resp) conversationId
      resp.nonce content).run.Leads [] (.ret (.error .panic))
  split_ifs
  · rw [ProxyServiceImpl.landCommand, hpanic]
    exact .done _
  · rw [ProxyServiceImpl.routeCommand, hpanic]
    exact .done _

theorem sendReturns_iff : SendReturns c resp ↔ ∃ uri, resp.endpoint c = .ok uri := by
  constructor
  · intro h
    cases he : resp.endpoint c with
    | ok uri => exact ⟨uri, rfl⟩
    | error e =>
      rcases h "" "" [] _ _ (tells_noEndpoint he "" "" []) (by simp) with hok | ⟨status, herr⟩
      · nomatch hok
      · nomatch herr
  · rintro ⟨uri, huri⟩ conversationId accessKey content said res htells hmem
    have hsending := ProxyServiceImpl.tells_send htells
    cases hres : res with
    | ok => exact .inl rfl
    | error e =>
      have hvalid : ∀ q route, ⟨.getRoute q, .ok route⟩ ∈ said →
          ∃ uri, route.endpoint c = .ok uri :=
        fun q route hroute => ⟨uri, hsending.route_eq hmem hroute ▸ huri⟩
      obtain ⟨x, hx, hfailed⟩ := hsending.exists_failed hvalid (by rw [hres]; rfl)
      obtain ⟨pre, post, hsaid⟩ := List.append_of_mem hx
      obtain ⟨-, e', herr, status, rfl⟩ :=
        ProxyServiceImpl.stops_send said res htells pre x post hsaid hfailed
      exact .inr ⟨status, hres ▸ herr⟩

theorem toHttpsEndpoint_error {ip : String} {port : UInt32} {e : Fault}
    (he : networking.toHttpsEndpoint c ip port = .error e) : e = .text "Invalid endpoint URI" := by
  unfold networking.toHttpsEndpoint networking.toEndpoint at he
  split at he
  · nomatch he
  · exact (Except.error.inj he).symm

theorem initializeReturns (c : Crates) (resp : RouteResponse) : InitializeReturns c resp := by
  intro accessKey toUid said res q htells hmem
  obtain ⟨r, es₁, rfl, h₁⟩ := tells_ask htells
  rcases tells_mapErr_bind h₁ with ⟨e, rfl, rfl, rfl⟩ | ⟨⟨⟩, rfl, h₂⟩
  · simp at hmem
  rcases Prog.tells_bind h₂ with ⟨e, h₃, rfl⟩ | ⟨es₂, es₃, initResponse, rfl, h₃, h₄⟩
  · obtain ⟨r, es₂, rfl, h₄⟩ := tells_ask h₃
    obtain ⟨rfl, -⟩ := tells_mapErr h₄
    simp at hmem
  obtain ⟨r, es₄, rfl, h₅⟩ := tells_ask h₃
  obtain ⟨rfl, -⟩ := tells_mapErr h₅
  rcases Prog.tells_bind h₄ with ⟨e, h₆, rfl⟩ | ⟨es₅, es₆, route, rfl, h₆, h₇⟩
  · obtain ⟨answer, es₇, rfl, h₈⟩ := tells_ask h₆
    obtain ⟨rfl, hanswer⟩ := tells_mapErr h₈
    obtain ⟨-, rfl⟩ : q = _ ∧ .ok resp = answer := by simpa using hmem
    nomatch hanswer
  obtain ⟨answer, es₇, rfl, h₈⟩ := tells_ask h₆
  obtain ⟨rfl, -⟩ := tells_mapErr h₈
  rcases tells_mapErr_bind h₇ with ⟨e, he, -, rfl⟩ | ⟨uri, -, h₉⟩
  · exact .inr (congrArg Except.error (toHttpsEndpoint_error he))
  · obtain ⟨-, rfl⟩ := Prog.tells_pure h₉
    exact .inl ⟨_, rfl⟩

end endpoint

/-- A proxy comes back from every response that leads to the session of a login that has been let in
if and only if an https URI can be formed from the address that the login has announced; a client
comes back in any case. -/
theorem announced_address_harmless_iff {members : Table String Member} {p : ControllerPool}
    (hp : Reachable (Storage.start members) p) {i : Nat} {remoteAddr : Option SocketAddr}
    {r : LoginRequest} {accessKey : String} {lr : LoginResponse}
    (hlogin : p.returned i = some (⟨.login remoteAddr r, accessKey⟩, .ok (.login lr)))
    {i' : Nat} {q : RouteRequest} {nonce : String} {resp : RouteResponse} {info : SessionInfo}
    (hroute : p.returned i' = some (⟨.route q, nonce⟩, .ok (.route resp)))
    (hcomes : comesTo (p.hist.said i') = some info) (hkey : info.accessKey = accessKey)
    (c : Crates) :
    (SendReturns c resp ↔
      ∃ uri, networking.toHttpsEndpoint c r.onIp r.onPort.toUInt16.toUInt32 = .ok uri) ∧
    InitializeReturns c resp := by
  obtain ⟨n, endRoute, rfl⟩ := response_of_login hp (Pool.returned_eq_some.mp hlogin)
    (Pool.returned_eq_some.mp hroute) hcomes hkey
  refine ⟨?_, initializeReturns c _⟩
  rw [sendReturns_iff, RouteResponse.endpoint]
  have hport : r.onPort.toUInt16.toUInt32.toNat < 2 ^ 16 := by
    rw [UInt16.toNat_toUInt32]
    exact UInt16.toNat_lt _
  rw [(toUInt32_toUInt16_eq _).mpr hport]

theorem announced_address_harmless_iff_sample :
    SendReturns sampleCrates (northResponse "10.0.0.1" 8080) := by
  obtain ⟨p, info, hp, ⟨hlogin, hroute, -⟩, hcomes, hkey⟩ :=
    @exists_viaNorth "10.0.0.1" 8080 8080 (by decide)
  exact (announced_address_harmless_iff hp hlogin hroute hcomes hkey sampleCrates).1.mpr
    ⟨⟨"https://10.0.0.1:8080"⟩, by decide⟩

/-- A proxy that announces an address with a blank in it brings its predecessor down. -/
theorem blank_address_panics : ¬ ∀ (members : Table String Member) (p : ControllerPool),
    Reachable (Storage.start members) p → ∀ i remoteAddr r accessKey lr,
      p.returned i = some (⟨.login remoteAddr r, accessKey⟩, .ok (.login lr)) →
      ∀ i' q nonce resp info, p.returned i' = some (⟨.route q, nonce⟩, .ok (.route resp)) →
        comesTo (p.hist.said i') = some info → info.accessKey = accessKey →
          ∀ c, SendReturns c resp := by
  intro hall
  obtain ⟨p, info, hp, ⟨hlogin, hroute, -⟩, hcomes, hkey⟩ :=
    @exists_viaNorth "10.0.0. 1" 8080 8080 (by decide)
  obtain ⟨uri, huri⟩ := sendReturns_iff.mp
    (hall _ p hp 0 _ _ _ _ hlogin 3 _ _ _ info hroute hcomes hkey sampleCrates)
  have hok :
      (RouteResponse.endpoint sampleCrates (northResponse "10.0.0. 1" 8080)).isOk = true := by
    rw [huri]
    rfl
  exact absurd hok (by decide)

end FuzzyChat
