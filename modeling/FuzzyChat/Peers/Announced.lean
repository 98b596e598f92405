import FuzzyChat.Controller.Endpoints
import FuzzyChat.Peers.Services
import FuzzyChat.Interleave.Twins

/-! What becomes of the endpoint a login announces, on its way through the controller to the proxy
that connects to it. -/

namespace FuzzyChat
open Interleave

/-- The response carries the endpoint that the login has announced. -/
structure RouteResponse.Announced (resp : RouteResponse) (r : LoginRequest) : Prop where
  ipAddress : resp.ipAddress = r.onIp
  portNumber : resp.portNumber = r.onPort
  domainName : resp.domainName = r.domainName
  publicKey : resp.publicKey = r.publicKey

structure ConnectionSettings.Announced (settings : ConnectionSettings) (r : LoginRequest) : Prop where
  ip : settings.ip = r.onIp
  port : settings.port.toNat = r.onPort.toNat
  domainName : settings.domainName = r.domainName
  certificate : settings.certificate = r.publicKey

def LoginRequest.Representable (r : LoginRequest) : Prop := r.onPort.toNat < 2 ^ 16

instance (r : LoginRequest) : Decidable r.Representable := by
  unfold LoginRequest.Representable
  infer_instance

/-- Every route response of the run that has come to the session carries the endpoint unchanged, and
so do the settings the next proxy makes of it. -/
def EndpointSurvives (p : ControllerPool) (accessKey : String) (r : LoginRequest) : Prop :=
  ∀ i q nonce resp info, p.returned i = some (⟨.route q, nonce⟩, .ok (.route resp)) →
    comesTo (p.hist.said i) = some info → info.accessKey = accessKey →
      resp.Announced r ∧ (ProxyServiceImpl.routeSettings resp).Announced r

theorem toNat_toUInt16_eq (port : UInt32) :
    port.toUInt16.toUInt32.toUInt16.toNat = port.toNat ↔ port.toNat < 2 ^ 16 := by
  rw [UInt32.toNat_toUInt16, UInt16.toNat_toUInt32, UInt32.toNat_toUInt16, Nat.mod_mod]
  constructor
  · intro h
    rw [← h]
    exact Nat.mod_lt _ (by decide)
  · exact Nat.mod_eq_of_lt

/-- A login that has been let in is kept to if and only if its port is one, and so is each response
that has come to its session; address, domain name and certificate survive in any case. -/
theorem endpoint_survives_iff {members : Table String Member} {p : ControllerPool}
    (hp : Reachable (Storage.start members) p) {i : Nat} {remoteAddr : Option SocketAddr}
    {r : LoginRequest} {accessKey : String} {lr : LoginResponse}
    (hlogin : p.returned i = some (⟨.login remoteAddr r, accessKey⟩, .ok (.login lr))) :
    (r.Representable ∧ EndpointSurvives p accessKey r ↔ r.Representable) ∧
    ∀ i' q nonce resp info, p.returned i' = some (⟨.route q, nonce⟩, .ok (.route resp)) →
      comesTo (p.hist.said i') = some info → info.accessKey = accessKey →
        (resp.ipAddress = r.onIp ∧ resp.domainName = r.domainName ∧
          resp.publicKey = r.publicKey) ∧
        (resp.Announced r ↔ r.Representable) ∧
        ((ProxyServiceImpl.routeSettings resp).Announced r ↔ r.Representable) := by
  have hresponses : ∀ i' q nonce resp info,
      p.returned i' = some (⟨.route q, nonce⟩, .ok (.route resp)) →
      comesTo (p.hist.said i') = some info → info.accessKey = accessKey →
        (resp.ipAddress = r.onIp ∧ resp.domainName = r.domainName ∧
          resp.publicKey = r.publicKey) ∧
        (resp.Announced r ↔ r.Representable) ∧
        ((ProxyServiceImpl.routeSettings resp).Announced r ↔ r.Representable) := by
    intro i' q nonce resp info hroute hcomes hkey
    obtain ⟨n, endRoute, rfl⟩ := response_of_login hp (Pool.returned_eq_some.mp hlogin)
      (Pool.returned_eq_some.mp hroute) hcomes hkey
    refine ⟨⟨rfl, rfl, rfl⟩, ?_, ?_⟩
    · rw [LoginRequest.Representable, ← toUInt32_toUInt16_eq]
      exact ⟨fun h => h.portNumber, fun h => ⟨rfl, h, rfl, rfl⟩⟩
    · rw [LoginRequest.Representable, ← toNat_toUInt16_eq]
      exact ⟨fun h => h.port, fun h => ⟨rfl, h, rfl, rfl⟩⟩
  refine ⟨⟨fun h => h.1, fun hport => ⟨hport, ?_⟩⟩, hresponses⟩
  intro i' q nonce resp info hroute hcomes hkey
  obtain ⟨-, hresp, hsettings⟩ := hresponses i' q nonce resp info hroute hcomes hkey
  exact ⟨hresp.mpr hport, hsettings.mpr hport⟩

def northLogin (onIp : String) (port : UInt32) : LoginRequest where
  uid := "north"
  pwd := "north"
  onIp := onIp
  onPort := port
  publicKey := [1]
  domainName := "north"
  componentType := 1

def northSignsIn (onIp : String) (port : UInt32) : Job :=
  ⟨.login (some ⟨"10.0.0.1", 40000⟩) (northLogin onIp port), "k-north"⟩

def northResponse (onIp : String) (port : UInt32) : RouteResponse :=
  ⟨onIp, port, [1], "north", "n1", false⟩

def viaNorth (onIp : String) (port : UInt32) : Option ControllerPool :=
  (Pool.start (Storage.start sampleMembers)).run (inTurn [(northSignsIn onIp port, 3),
    (signIn "alice" 2 "k-alice", 3), (⟨.init ⟨"k-alice", "bob"⟩, "c"⟩, 3),
    (askRoute "k-alice" "n1", 6)])

def ViaNorth (onIp : String) (port carried : UInt32) (p : ControllerPool) : Prop :=
  p.returned 0 = some (northSignsIn onIp port, .ok (.login ⟨"k-north", "Login successful"⟩)) ∧
  p.returned 3 = some (askRoute "k-alice" "n1", .ok (.route (northResponse onIp carried))) ∧
  (comesTo (p.hist.said 3)).map SessionInfo.accessKey = some "k-north"

instance (onIp : String) (port carried : UInt32) (p : ControllerPool) :
    Decidable (ViaNorth onIp port carried p) := by
  unfold ViaNorth
  infer_instance

theorem exists_viaNorth {onIp : String} {port carried : UInt32}
    (h : (viaNorth onIp port).map (fun p => decide (ViaNorth onIp port carried p)) = some true) :
    ∃ (p : ControllerPool) (info : SessionInfo), Reachable (Storage.start sampleMembers) p ∧
      ViaNorth onIp port carried p ∧ comesTo (p.hist.said 3) = some info ∧
        info.accessKey = "k-north" := by
  obtain ⟨p, hrun, h⟩ := exists_run h
  have hvia : ViaNorth onIp port carried p := of_decide_eq_true h
  obtain ⟨info, hcomes, hkey⟩ := Option.map_eq_some_iff.mp hvia.2.2
  exact ⟨p, info, Reachable.of_run hrun, hvia, hcomes, hkey⟩

theorem endpoint_survives_iff_sample : ∃ p : ControllerPool,
    Reachable (Storage.start sampleMembers) p ∧
      EndpointSurvives p "k-north" (northLogin "10.0.0.1" 8080) ∧
      (northResponse "10.0.0.1" 8080).Announced (northLogin "10.0.0.1" 8080) := by
  obtain ⟨p, info, hp, ⟨hlogin, hroute, -⟩, hcomes, hkey⟩ :=
    @exists_viaNorth "10.0.0.1" 8080 8080 (by decide)
  obtain ⟨hkept, hresponses⟩ := endpoint_survives_iff hp hlogin
  obtain ⟨-, hresp, -⟩ := hresponses 3 _ _ _ info hroute hcomes hkey
  exact ⟨p, hp, (hkept.mpr (by decide)).2, hresp.mpr (by decide)⟩

/-- A port beyond the range is let in, and arrives as another. -/
theorem port_truncated : ¬ ∀ (members : Table String Member) (p : ControllerPool),
    Reachable (Storage.start members) p → ∀ i remoteAddr r accessKey lr,
      p.returned i = some (⟨.login remoteAddr r, accessKey⟩, .ok (.login lr)) →
        r.Representable ∧ EndpointSurvives p accessKey r := by
  intro hall
  obtain ⟨p, info, hp, ⟨hlogin, hroute, -⟩, hcomes, hkey⟩ :=
    @exists_viaNorth "10.0.0.1" 73616 8080 (by decide)
  obtain ⟨-, hsurvives⟩ := hall _ p hp 0 _ _ _ _ hlogin
  obtain ⟨hresp, -⟩ := hsurvives 3 _ _ _ info hroute hcomes hkey
  exact absurd hresp.portNumber (by decide)

end FuzzyChat
