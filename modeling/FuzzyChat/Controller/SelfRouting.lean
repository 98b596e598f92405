import FuzzyChat.Controller.ProxyLists
import FuzzyChat.Interleave.Sequence

/-! When a proxy that has signed in more than once is routed to itself. -/

namespace FuzzyChat
open Interleave

/-- The index names another session for the uid than that under the key, and it is stored. -/
def Relisted (s : SessionStore) (accessKey uid : String) : Prop :=
  ∃ k, s.proxies.lookup uid = some k ∧ k ≠ accessKey ∧ s.sessionOf k ≠ none

/-- No list that a request on a proxy's key has been given names the proxy's uid. -/
def ShownOthers (p : ControllerPool) : Prop :=
  ∀ i q nonce, p.hist.jobs[i]? = some ⟨.route q, nonce⟩ → ∀ info, RequesterOf p.hist q info →
    info.componentType = Component.proxy.toU8 →
    ∀ pre proxies, p.hist.Did i pre (.getProxies q.accessKey) (some proxies) →
      ∀ info' ∈ proxies, info'.uid ≠ info.uid

/-- No proxy is told of itself: not by the store as it is, not in a list a request has been given,
not in a response. -/
structure NeverItself (p : ControllerPool) : Prop where
  stored : ∀ k info, p.state.sessions.sessionOf k = some info →
    info.componentType = Component.proxy.toU8 →
    ∀ proxies, p.state.sessions.getProxies k = some proxies →
      ∀ info' ∈ proxies, info'.uid ≠ info.uid
  listed : ShownOthers p
  named : ∀ i q nonce resp, p.returned i = some (⟨.route q, nonce⟩, .ok (.route resp)) →
    ∀ info, RequesterOf p.hist q info → info.componentType = Component.proxy.toU8 →
    ∃ info' n endRoute, comesTo (p.hist.said i) = some info' ∧ resp = responseTo info' n endRoute ∧
      (info'.componentType = Component.proxy.toU8 → info'.uid ≠ info.uid)

/-- The step stores a second session of a proxy, and the index names one of the two. -/
def Doubles (p : ControllerPool) (m : ControllerMove) : Prop :=
  ∃ i c j info k k', m = .act i c ∧ p.tasks[i]? = some (j, .call (.insertSession info) k) ∧
    info.componentType = Component.proxy.toU8 ∧ p.state.sessions.proxies.lookup info.uid = some k' ∧
    (k' = info.accessKey ∧ (∃ other old, p.state.sessions.sessionOf other = some old ∧
        other ≠ info.accessKey ∧ old.uid = info.uid ∧ old.componentType = Component.proxy.toU8) ∨
      k' ≠ info.accessKey ∧ p.state.sessions.sessionOf k' ≠ none)

/-- The step lists the proxies to one whose session is gone while the index names a later one. -/
def ListsLater (p : ControllerPool) (m : ControllerMove) : Prop :=
  ∃ i c q nonce k info, m = .act i c ∧
    p.tasks[i]? = some (⟨.route q, nonce⟩, .call (.getProxies q.accessKey) k) ∧
    RequesterOf p.hist q info ∧ info.componentType = Component.proxy.toU8 ∧
    p.state.sessions.sessionOf q.accessKey = none ∧
    Relisted p.state.sessions q.accessKey info.uid

/-! Who asks for what. -/

def Asks (j : Job) : RepoOp → Prop
  | .insertIndex _ _ k => j.request.draws = some .accessKey ∧ j.id = k
  | .getProxies k => ∃ r, j.request = .route r ∧ r.accessKey = k
  | _ => True

theorem asks_handler (j : Job) : j.handler.All fun op _ => Asks j op := by
  obtain ⟨request, id⟩ := j
  cases request with
  | login remoteAddr r =>
    rw [handler_login]
    cases remoteAddr with
    | none => trivial
    | some clientIp =>
      dsimp only
      split_ifs
      · trivial
      · cases Component.fromI32 r.componentType with
        | none => trivial
        | some componentType =>
          dsimp only
          split_ifs
          · trivial
          · refine ⟨trivial, fun member => ?_⟩
            dsimp only
            split_ifs
            · exact ⟨⟨rfl, rfl⟩, fun _ => ⟨trivial, fun _ => trivial⟩⟩
            · trivial
  | logout r =>
    rw [handler_logout]
    refine ⟨trivial, fun | none => trivial | some _ => ⟨trivial, ?_⟩⟩
    exact fun | none => trivial | some _ => ⟨trivial, fun _ => trivial⟩
  | ping remoteAddr r =>
    rw [handler_ping]
    cases remoteAddr with
    | none => trivial
    | some clientIp =>
      refine ⟨trivial, fun | none => trivial | some _ => ⟨trivial, ?_⟩⟩
      refine fun | none => trivial | some session => ?_
      dsimp only
      split_ifs
      · exact ⟨trivial, fun _ => trivial⟩
      · trivial
  | init r =>
    rw [handler_init]
    refine ⟨trivial, fun | none => trivial | some _ => ⟨trivial, ?_⟩⟩
    refine fun | none => trivial | some info => ⟨trivial, ?_⟩
    exact fun | none => trivial | some _ => trivial
  | route r =>
    rw [handler_route]
    refine ⟨trivial, fun | none => trivial | some _ => ⟨trivial, ?_⟩⟩
    refine fun | none => trivial | some _ => ⟨trivial, fun | none => trivial | some v => ?_⟩
    dsimp only
    split_ifs
    · refine ⟨trivial, fun | none => trivial | some key => ⟨trivial, ?_⟩⟩
      exact fun
        | none => trivial
        | some info => ⟨trivial, fun | none => trivial | some _ => trivial⟩
    · refine ⟨⟨r, rfl, rfl⟩, fun | none => trivial | some proxies => ?_⟩
      dsimp only
      split_ifs
      · trivial
      · refine ⟨trivial, fun index => ?_⟩
        dsimp only
        split
        · trivial
        · exact ⟨trivial, fun | none => trivial | some _ => trivial⟩
    · trivial
  | redeem r =>
    rw [handler_redeem]
    refine ⟨trivial, fun | none => trivial | some _ => ⟨trivial, ?_⟩⟩
    refine fun | none => trivial | some _ => ⟨trivial, fun | none => trivial | some route => ?_⟩
    refine ⟨trivial, fun _ => ?_⟩
    dsimp only
    split_ifs
    · exact ⟨trivial, fun | none => trivial | some _ => ⟨trivial, fun _ => trivial⟩⟩
    · trivial
  | status version r =>
    rw [handler_status]
    refine ⟨trivial, fun | none => trivial | some _ => ?_⟩
    exact ⟨trivial, fun _ => ⟨trivial, fun _ => ⟨trivial, fun _ => trivial⟩⟩⟩
  | register uid clientIp settings => exact ⟨⟨rfl, rfl⟩, fun _ => ⟨trivial, fun _ => trivial⟩⟩
  | sweepSessions => exact ⟨trivial, fun _ => trivial⟩
  | sweepRoutes => exact ⟨trivial, fun _ => trivial⟩

section reach
variable {C : ControllerPool → ControllerMove → Prop} {members : Table String Member}
  {p : ControllerPool}

theorem unstored_of_listing (hp : Reach C (Storage.start members) p) {i : Nat} {j : Job}
    {t : Component} {uid key : String} {k : Unit → Program}
    (ht : p.tasks[i]? = some (j, .call (.insertIndex t uid key) k)) :
    p.state.sessions.sessionOf key = none := by
  by_contra hs
  obtain ⟨hd, hid⟩ : Asks j (.insertIndex t uid key) := (hp.all asks_handler i j _ ht).1
  have hkeeps : p.state.Keeps .accessKey key := by
    intro hnone
    exact hs (by rw [SessionStore.sessionOf, hnone, Option.map_none])
  obtain ⟨e, he, hl⟩ := lodged_of_keeps hp hkeeps
  obtain ⟨t', hi, hd', hid', hend⟩ := lodger_done hp e he _ _ hl
  have hjob : p.hist.jobs[i]? = some j := by simp [Pool.hist, ht]
  have hjob' : p.hist.jobs[e.task]? = some t'.1 := by simp [Pool.hist, hi]
  have hsame : e.task = i := by
    apply (coherent_of_reach hp).task_eq hjob' hjob
    · simp [hd']
    · rw [hd, hd']
    · rw [hid, hid']
  rw [hsame, ht] at hi
  cases hi
  contradiction

theorem requester_of_head (hp : Reach C (Storage.start members) p) {i : Nat} {j : Job}
    {key : String} {k : Option (List SessionInfo) → Program}
    (ht : p.tasks[i]? = some (j, .call (.getProxies key) k)) :
    ∃ q nonce info, j = ⟨.route q, nonce⟩ ∧ q.accessKey = key ∧ RequesterOf p.hist q info := by
  obtain ⟨q, hq, rfl⟩ : Asks j (.getProxies key) := (hp.all asks_handler i j _ ht).1
  obtain ⟨request, nonce⟩ := j
  obtain rfl : request = .route q := hq
  have hleads : (Job.handler ⟨.route q, nonce⟩).Leads _ _ := hp.leads i _ _ ht
  rw [handler_route] at hleads
  rcases hleads.of_call with hguard | ⟨found, es, hsaid, hrest⟩
  · cases hguard
  · cases found with
    | none => cases hrest.of_ret
    | some info =>
      have hmem : ⟨.getSession q.accessKey, some info⟩ ∈ p.hist.said i := hsaid ▸ List.mem_cons_self
      obtain ⟨pre, hd⟩ := Hist.mem_said.mp hmem
      obtain ⟨p₀, c, hp₀, hb, -, hanswer⟩ := answer_of_did hp hd
      rw [Storage.step_getSession] at hanswer
      obtain ⟨hk, he⟩ := (coherent_of_reach hp₀).session hanswer
      exact ⟨q, nonce, info, rfl, rfl, he.mono hb.jobs, hk⟩

theorem requester_of_did (hp : Reach C (Storage.start members) p) {i : Nat} {pre : Storage}
    {key : String} {r : Option (List SessionInfo)} (hd : p.hist.Did i pre (.getProxies key) r) :
    ∃ info, Enrolled p.hist.jobs info ∧ info.accessKey = key := by
  obtain ⟨p₀, c, j, k, hp₀, hb, -, ht, -⟩ := hp.event _ hd
  obtain ⟨q, nonce, info, -, hkey, hr⟩ := requester_of_head hp₀ ht
  exact ⟨info, hr.1.mono hb.jobs, hr.2.trans hkey⟩

theorem relisted_iff (hp : Reach C (Storage.start members) p) {key uid : String} :
    Relisted p.state.sessions key uid ↔
      ∃ proxies, p.state.sessions.getProxies key = some proxies ∧
        ∃ info ∈ proxies, info.uid = uid := by
  have hc := coherent_of_reach hp
  constructor
  · rintro ⟨k, hix, hne, hs⟩
    obtain ⟨info, hinfo⟩ := Option.ne_none_iff_exists'.mp hs
    have hsome : p.state.sessions.getProxies key ≠ none := fun hnone =>
      hs (SessionStore.getProxies_none hnone uid k hix hne)
    obtain ⟨proxies, hl⟩ := Option.ne_none_iff_exists'.mp hsome
    refine ⟨proxies, hl, info, (SessionStore.mem_getProxies hl).mpr ⟨uid, k, hix, hne, hinfo⟩, ?_⟩
    exact (hc.indexed (t := .proxy) hix hinfo).2.1
  · rintro ⟨proxies, hl, info, hm, rfl⟩
    obtain ⟨uid, k, hix, hne, hs⟩ := (SessionStore.mem_getProxies hl).mp hm
    obtain ⟨-, huid, -⟩ := hc.indexed (t := .proxy) hix hs
    exact ⟨k, huid ▸ hix, hne, by simp [hs]⟩

def Unrivalled (s : SessionStore) : Prop :=
  ∀ k info, s.sessionOf k = some info → info.componentType = Component.proxy.toU8 →
    ¬ Relisted s k info.uid

theorem reachable_advance (hp : Reachable (Storage.start members) p) {i : Nat} {j : Job}
    {op : RepoOp} {k : op.Res → Program} (ht : p.tasks[i]? = some (j, .call op k)) (c : Choice) :
    p.step (.act i c) = some (p.advance (S := controller) i j op k (p.state.step c op).1
      (p.state.step c op).2) ∧
    Reachable (Storage.start members) (p.advance (S := controller) i j op k (p.state.step c op).1
      (p.state.step c op).2) := by
  have hq : p.step (.act i c) = some (p.advance (S := controller) i j op k (p.state.step c op).1
      (p.state.step c op).2) :=
    Pool.step_eq_some.mpr (.inr ⟨i, c, j, op, k, _, _, rfl, ht, rfl, rfl⟩)
  exact ⟨hq, hp.step trivial hq⟩

theorem unrivalled_advance (hp : Reachable (Storage.start members) p) {i : Nat} {c : Choice}
    {j : Job} {op : RepoOp} {k : op.Res → Program} (ht : p.tasks[i]? = some (j, .call op k))
    (hs : Unrivalled p.state.sessions) (hd : ¬ Doubles p (.act i c)) :
    Unrivalled (p.state.step c op).2.sessions := by
  have hc := coherent_of_reach (reachable_advance hp ht c).2
  rintro key info hkey htype ⟨k', hix, hne, hk'⟩
  obtain ⟨info', hinfo'⟩ := Option.ne_none_iff_exists'.mp hk'
  obtain ⟨hkk', huid', htype'⟩ := hc.indexed (t := .proxy) hix hinfo'
  have hix' := Storage.lookup_index_step (t := .proxy) hix
  rcases Storage.sessionOf_step hkey with hold | ⟨rfl, rfl⟩
  · rcases Storage.sessionOf_step hinfo' with hold' | ⟨rfl, rfl⟩
    · rcases hix' with hix | rfl
      · exact hs key info hold htype ⟨k', hix, hne, by simp [hold']⟩
      · rw [unstored_of_listing hp ht] at hold'
        contradiction
    · -- the one under the key was stored before, and the index leads to the one just stored
      rcases hix' with hix | hop
      · exact hd ⟨i, c, j, info', k, info'.accessKey, rfl, ht, htype', huid' ▸ hix,
          .inl ⟨rfl, key, info, hold, Ne.symm hne, huid'.symm, htype⟩⟩
      · cases hop
  · rcases hix' with hix | hop
    · rcases Storage.sessionOf_step hinfo' with hold' | ⟨hop, -⟩
      · exact hd ⟨i, c, j, info, k, k', rfl, ht, htype, hix, .inr ⟨hne, by simp [hold']⟩⟩
      · cases hop
        exact hne hkk'.symm
    · cases hop

theorem shownOthers_advance (hp : Reachable (Storage.start members) p) {i : Nat} {c : Choice}
    {j : Job} {op : RepoOp} {k : op.Res → Program} (ht : p.tasks[i]? = some (j, .call op k))
    (hs : Unrivalled p.state.sessions) (hshown : ShownOthers p) (hd : ¬ ListsLater p (.act i c)) :
    ShownOthers (p.advance (S := controller) i j op k (p.state.step c op).1
      (p.state.step c op).2) := by
  have hc := coherent_of_reach hp
  intro i' q nonce hjob info hr htype pre proxies hdid info' hmem huid
  rw [Pool.hist_advance ht] at hjob hr hdid
  generalize hres : (p.state.step c op).1 = r at hdid
  rcases List.mem_cons.mp hdid with he | hold
  · cases he
    obtain ⟨listed, hl, rfl⟩ := Option.map_eq_some_iff.mp hres
    have hrelisted : Relisted p.state.sessions q.accessKey info.uid :=
      (relisted_iff hp).mpr ⟨listed, hl, info', (reorder_perm c.index listed).mem_iff.mp hmem, huid⟩
    cases hstored : p.state.sessions.sessionOf q.accessKey with
    | none =>
      obtain rfl : j = ⟨.route q, nonce⟩ := by simpa [Hist.record, Pool.hist, ht] using hjob
      exact hd ⟨i, c, q, nonce, k, info, rfl, ht, hr, htype, hstored, hrelisted⟩
    | some own =>
      obtain ⟨hk, he⟩ := hc.session hstored
      have hown : own = info := hc.enrolled_eq he hr.1 (hk.trans hr.2.symm)
      exact hs _ own hstored (hown ▸ htype) (hown ▸ hrelisted)
  · exact hshown i' q nonce hjob info hr htype pre proxies hold info' hmem huid

theorem shownOthers_accept (hp : Reachable (Storage.start members) p) {j : Job}
    (hq : Reachable (Storage.start members) (p.accept j)) (hshown : ShownOthers p) :
    ShownOthers (p.accept j) := by
  intro i q nonce hjob info hr htype pre proxies hdid
  rw [Pool.hist_accept] at hjob hdid
  obtain ⟨info₀, he, hk⟩ := requester_of_did hp hdid
  -- the requester signed in before the list was made, so that the new job is not its
  have hsame : info = info₀ := by
    apply (coherent_of_reach hq).enrolled_eq hr.1 _ (hr.2.trans hk.symm)
    rw [Pool.hist_accept]
    exact he.mono (p.hist.before_accept j).jobs
  have hjob' : p.hist.jobs[i]? = some ⟨.route q, nonce⟩ := by
    have hlt : i < p.hist.jobs.length := by simpa [Pool.hist] using hp.task_lt _ hdid
    exact (List.getElem?_append_left hlt).symm.trans hjob
  exact hshown i q nonce hjob' info ⟨hsame ▸ he, hr.2⟩ htype pre proxies hdid

theorem rivalled_of_doubled {s : SessionStore} {info : SessionInfo} {k' : String}
    (htype : info.componentType = Component.proxy.toU8) (hix : s.proxies.lookup info.uid = some k')
    (hcase : k' = info.accessKey ∧ (∃ other old, s.sessionOf other = some old ∧
        other ≠ info.accessKey ∧ old.uid = info.uid ∧ old.componentType = Component.proxy.toU8) ∨
      k' ≠ info.accessKey ∧ s.sessionOf k' ≠ none) (now : Nat) :
    ¬ Unrivalled (s.insertSession now info) := by
  intro hun
  rcases hcase with ⟨rfl, other, old, hold, hne, huid, htype'⟩ | ⟨hne, hk'⟩
  · refine hun other old ?_ htype' ⟨info.accessKey, huid ▸ hix, Ne.symm hne, ?_⟩
    · rwa [SessionStore.sessionOf_insertSession, if_neg hne]
    · simp [SessionStore.sessionOf_insertSession]
  · refine hun info.accessKey info ?_ htype ⟨k', hix, hne, ?_⟩
    · rw [SessionStore.sessionOf_insertSession, if_pos rfl]
    · rwa [SessionStore.sessionOf_insertSession, if_neg hne]

theorem shown_of_relisted (hp : Reachable (Storage.start members) p) {i : Nat} {q : RouteRequest}
    {nonce : String} {k : Option (List SessionInfo) → Program}
    (ht : p.tasks[i]? = some (⟨.route q, nonce⟩, .call (.getProxies q.accessKey) k))
    {info : SessionInfo} (hr : RequesterOf p.hist q info)
    (htype : info.componentType = Component.proxy.toU8)
    (hrelisted : Relisted p.state.sessions q.accessKey info.uid) (c : Choice) :
    ¬ ShownOthers (p.advance (S := controller) i ⟨.route q, nonce⟩ (.getProxies q.accessKey) k
      (p.state.step c (.getProxies q.accessKey)).1
      (p.state.step c (.getProxies q.accessKey)).2) := by
  obtain ⟨proxies, hl, info', hm, huid⟩ := (relisted_iff hp).mp hrelisted
  have hjob : p.hist.jobs[i]? = some ⟨.route q, nonce⟩ := by simp [Pool.hist, ht]
  have hres : (p.state.step c (.getProxies q.accessKey)).1 = some (reorder c.index proxies) :=
    congrArg (Option.map (reorder c.index)) hl
  have hm' : info' ∈ reorder c.index proxies := (reorder_perm c.index proxies).mem_iff.mpr hm
  intro hshown
  unfold ShownOthers at hshown
  rw [Pool.hist_advance ht, hres] at hshown
  exact hshown i q nonce hjob info hr htype p.state _ (p.hist.did_record i _ _ _) info' hm' huid

theorem neverItself_iff (hp : Reachable (Storage.start members) p) :
    NeverItself p ↔ Unrivalled p.state.sessions ∧ ShownOthers p := by
  constructor
  · rintro ⟨hstored, hlisted, -⟩
    refine ⟨fun key info hkey htype hrelisted => ?_, hlisted⟩
    obtain ⟨proxies, hl, info', hm, huid⟩ := (relisted_iff hp).mp hrelisted
    exact hstored key info hkey htype proxies hl info' hm huid
  · rintro ⟨hs, hlisted⟩
    constructor
    case stored =>
      intro key info hkey htype proxies hl info' hm huid
      exact hs key info hkey htype ((relisted_iff hp).mpr ⟨proxies, hl, info', hm, huid⟩)
    case listed => exact hlisted
    case named =>
      intro i q nonce resp hret info hr htype
      have ht := Pool.returned_eq_some.mp hret
      have hjob : p.hist.jobs[i]? = some ⟨.route q, nonce⟩ := by simp [Pool.hist, ht]
      obtain ⟨info', n, endRoute, hresp, hcomes, -, hsource⟩ := route_source hp ht
      refine ⟨info', n, endRoute, hcomes, hresp, fun htype' => ?_⟩
      rcases hsource with hclient | ⟨pre, proxies, hd, hm⟩
      · cases Component.toU8_injective (htype'.symm.trans hclient)
      · exact hlisted i q nonce hjob info hr htype pre proxies hd info' hm

theorem neverItself_step (hp : Reachable (Storage.start members) p) (hn : NeverItself p)
    (m : ControllerMove) :
    (¬ Doubles p m ∧ ¬ ListsLater p m) ↔ ∀ q, p.step m = some q → NeverItself q := by
  obtain ⟨hs, hshown⟩ := (neverItself_iff hp).mp hn
  constructor
  · rintro ⟨hdoubles, hlater⟩ q hq
    have hreach : Reachable (Storage.start members) q := hp.step trivial hq
    rw [neverItself_iff hreach]
    rcases controller_step hq with ⟨j, rfl, rfl⟩ | ⟨i, c, j, op, k, rfl, ht, rfl⟩
    · exact ⟨hs, shownOthers_accept hp hreach hshown⟩
    · exact ⟨unrivalled_advance hp ht hs hdoubles, shownOthers_advance hp ht hs hshown hlater⟩
  · intro hall
    constructor
    · rintro ⟨i, c, j, info, k, k', rfl, ht, htype, hix, hcase⟩
      obtain ⟨hq, hreach⟩ := reachable_advance hp ht c
      refine rivalled_of_doubled htype hix hcase (p.state.now + c.elapsed) ?_
      exact ((neverItself_iff hreach).mp (hall _ hq)).1
    · rintro ⟨i, c, q, nonce, k, info, rfl, ht, hr, htype, -, hrelisted⟩
      obtain ⟨hq, hreach⟩ := reachable_advance hp ht c
      refine shown_of_relisted hp ht hr htype hrelisted c ?_
      exact ((neverItself_iff hreach).mp (hall _ hq)).2

/-- In every run no proxy is told of itself exactly as long as no step stores a second session of
one while the index names either, or lists the proxies to one that has signed in anew since. -/
theorem never_routed_to_itself_iff (members : Table String Member) (ms : List ControllerMove) :
    Always Pool.step NeverItself (Pool.start (Storage.start members) : ControllerPool) ms ↔
      Each Pool.step (fun p m => ¬ Doubles p m ∧ ¬ ListsLater p m)
        (Pool.start (Storage.start members)) ms := by
  apply always_iff_each (I := Reachable (Storage.start members))
  · exact fun p m q hp hq => hp.step trivial hq
  · exact fun p m hp hn => neverItself_step hp hn m
  · exact .start
  · refine (neverItself_iff .start).mpr ⟨fun k info hk => ?_, fun i q nonce hjob => ?_⟩
    · simp [Pool.start, Storage.start, SessionStore.empty, SessionStore.sessionOf] at hk
    · simp [Pool.start, Pool.hist] at hjob

end reach

/-- North signs in anew while its first session is stored, and on the first key is shown itself. -/
theorem routed_to_itself : ¬ ∀ (members : Table String Member) (p : ControllerPool),
    Reachable (Storage.start members) p → NeverItself p := by
  intro hall
  obtain ⟨p, hrun, h⟩ : ∃ p, (Pool.start (Storage.start sampleMembers) : ControllerPool).run
      (inTurn [(signIn "north" 1 "k-north", 3), (signIn "north" 1 "k-anew", 3)]) = some p ∧
        (p.state.sessions.sessionOf "k-north").map (fun info => (info.componentType, info.uid,
          (p.state.sessions.getProxies "k-north").map fun l => l.map SessionInfo.uid)) =
            some (Component.proxy.toU8, "north", some ["north"]) := exists_run (by decide)
  obtain ⟨info, hs, h⟩ := Option.map_eq_some_iff.mp h
  simp only [Prod.mk.injEq] at h
  obtain ⟨htype, huid, hl⟩ := h
  obtain ⟨proxies, hproxies, huids⟩ := Option.map_eq_some_iff.mp hl
  have hmem : "north" ∈ proxies.map SessionInfo.uid := by
    rw [huids]
    exact List.mem_singleton_self _
  obtain ⟨info', hm, huid'⟩ := List.mem_map.mp hmem
  have hnever := hall _ p (Reachable.of_run hrun)
  exact hnever.stored "k-north" info hs htype proxies hproxies info' hm (huid'.trans huid.symm)

end FuzzyChat
