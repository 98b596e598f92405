import FuzzyChat.Controller.Endpoints
import FuzzyChat.Controller.NextHops

/-! What `get_proxies` lists in the states the controller comes to. -/

namespace FuzzyChat
open Interleave

/-- The proxies whose entry in the index leads to a stored session under another key, once each. -/
structure ListsProxies (s : SessionStore) (accessKey : String) (proxies : List SessionInfo) :
    Prop where
  nonempty : proxies ≠ []
  members : ∀ info, info ∈ proxies ↔
    ∃ uid k, s.proxies.lookup uid = some k ∧ k ≠ accessKey ∧ s.sessionOf k = some info
  once : proxies.Nodup
  accessKeys : (proxies.map SessionInfo.accessKey).Nodup
  uids : (proxies.map SessionInfo.uid).Nodup
  proxy : ∀ info ∈ proxies, info.componentType = Component.proxy.toU8

theorem ListsProxies.perm {s : SessionStore} {k : String} {l l' : List SessionInfo}
    (h : ListsProxies s k l) (hl : l'.Perm l) : ListsProxies s k l' where
  nonempty hnil := h.nonempty (hl.symm.trans (.of_eq hnil)).eq_nil
  members info := hl.mem_iff.trans (h.members info)
  once := hl.nodup_iff.mpr h.once
  accessKeys := (hl.map _).nodup_iff.mpr h.accessKeys
  uids := (hl.map _).nodup_iff.mpr h.uids
  proxy info hm := h.proxy info (hl.mem_iff.mp hm)

theorem Coherent.listsProxies {h : ControllerHist} (hc : Coherent h) {k : String}
    {proxies : List SessionInfo} (hl : h.state.sessions.getProxies k = some proxies) :
    ListsProxies h.state.sessions k proxies := by
  have hmem : ∀ info, info ∈ proxies ↔ ∃ uid k', h.state.sessions.proxies.lookup uid = some k' ∧
      k' ≠ k ∧ h.state.sessions.sessionOf k' = some info :=
    fun info => SessionStore.mem_getProxies hl
  have huids : (proxies.map SessionInfo.uid).Nodup := by
    unfold SessionStore.getProxies at hl
    obtain ⟨-, hl⟩ := Option.ite_none_left_eq_some.mp hl
    rw [← Option.some.inj hl]
    apply AList.nodup_filterMap
    intro uid k' info hix hinfo
    obtain ⟨-, hs⟩ := Option.ite_none_left_eq_some.mp hinfo
    exact (hc.indexed (t := .proxy) hix hs).2.1
  have honce : proxies.Nodup := huids.of_map _
  constructor
  case nonempty => exact SessionStore.getProxies_ne_nil hl
  case members => exact hmem
  case once => exact honce
  case uids => exact huids
  case accessKeys =>
    apply honce.map_on
    intro info hi info' hi' hk
    obtain ⟨_, _, -, -, hs⟩ := (hmem info).mp hi
    obtain ⟨_, _, -, -, hs'⟩ := (hmem info').mp hi'
    exact hc.enrolled_eq (hc.session hs).2 (hc.session hs').2 hk
  case proxy =>
    intro info hi
    obtain ⟨uid, k', hix, -, hs⟩ := (hmem info).mp hi
    exact (hc.indexed (t := .proxy) hix hs).2.2

theorem SessionStore.getProxies_eq_none {s : SessionStore} {k : String} :
    s.getProxies k = none ↔
      ∀ uid k', s.proxies.lookup uid = some k' → k' ≠ k → s.sessionOf k' = none := by
  constructor
  · exact getProxies_none
  · intro hnone
    by_contra hsome
    obtain ⟨proxies, hl⟩ := Option.ne_none_iff_exists'.mp hsome
    obtain ⟨info, hm⟩ := List.exists_mem_of_ne_nil proxies (getProxies_ne_nil hl)
    obtain ⟨uid, k', hix, hne, hs⟩ := (mem_getProxies hl).mp hm
    rw [hnone uid k' hix hne] at hs
    contradiction

/-- In every run `get_proxies` lists what it is to list, and what it has listed can be chosen from
without the subtraction in `get_next_route` going below zero. -/
theorem getProxies_exact {members : Table String Member} {p : ControllerPool}
    (hp : Reachable (Storage.start members) p) :
    (∀ accessKey c,
      ((p.state.step c (.getProxies accessKey)).1 = none ↔
        ∀ uid k, p.state.sessions.proxies.lookup uid = some k → k ≠ accessKey →
          p.state.sessions.sessionOf k = none) ∧
      ∀ proxies, (p.state.step c (.getProxies accessKey)).1 = some proxies →
        ListsProxies p.state.sessions accessKey proxies) ∧
    ∀ i pre accessKey proxies, p.hist.Did i pre (.getProxies accessKey) (some proxies) →
      1 ≤ proxies.length ∧ ∀ index a v, nextRoute index a v proxies ≠ .error .panic := by
  have hlists : ∀ q : ControllerPool, Reachable (Storage.start members) q →
      ∀ (c : Choice) k proxies, (q.state.step c (.getProxies k)).1 = some proxies →
        ListsProxies q.state.sessions k proxies := by
    intro q hq c k proxies h
    obtain ⟨listed, hl, rfl⟩ := Option.map_eq_some_iff.mp h
    exact ((coherent_of_reach hq).listsProxies hl).perm (reorder_perm c.index listed)
  constructor
  · intro k c
    refine ⟨?_, hlists p hp c k⟩
    rw [Storage.step_getProxies, Option.map_eq_none_iff]
    exact SessionStore.getProxies_eq_none
  · intro i pre k proxies hd
    obtain ⟨p₀, c, hp₀, -, -, hanswer⟩ := answer_of_did hp hd
    have hne : proxies ≠ [] := (hlists p₀ hp₀ c k proxies hanswer).nonempty
    refine ⟨List.length_pos_iff.mpr hne, fun index a v => ?_⟩
    rw [nextRoute_eq hne]
    exact fun h => nomatch h

theorem getProxies_exact_sample : ∃ p : ControllerPool,
    Reachable (Storage.start sampleMembers) p ∧
    (∃ proxies, (p.state.step ⟨0, 0⟩ (.getProxies "k-north")).1 = some proxies ∧
      ListsProxies p.state.sessions "k-north" proxies) ∧
    ∃ pre proxies, p.hist.Did 6 pre (.getProxies "k-north") (some proxies) ∧
      1 ≤ proxies.length := by
  obtain ⟨p, hrun, h⟩ : ∃ p, (Pool.start (Storage.start sampleMembers) : ControllerPool).run
      (inTurn (sampleHops.take 6 ++ [(askRoute "k-north" "n2", 4)])) = some p ∧
        ((p.state.step ⟨0, 0⟩ (.getProxies "k-north")).1.isSome, p.log.head?.map fun e =>
          (e.task, decide (e.op = .getProxies "k-north"), (proxiesFound? e.exchange).isSome)) =
            (true, some (6, true, true)) := exists_run (by decide)
  obtain ⟨hfound, hlast⟩ := Prod.mk.inj h
  have hp := Reachable.of_run hrun
  obtain ⟨hlists, hchoice⟩ := getProxies_exact hp
  obtain ⟨proxies, hproxies⟩ := Option.isSome_iff_exists.mp hfound
  refine ⟨p, hp, ⟨proxies, hproxies, (hlists "k-north" ⟨0, 0⟩).2 proxies hproxies⟩, ?_⟩
  obtain ⟨⟨i, pre, op, r⟩, he, hlast⟩ := Option.map_eq_some_iff.mp hlast
  simp only [Prod.mk.injEq, decide_eq_true_eq] at hlast
  obtain ⟨rfl, rfl, hsome⟩ := hlast
  obtain ⟨listed, rfl⟩ := Option.isSome_iff_exists.mp hsome
  have hdid : p.hist.Did 6 pre (.getProxies "k-north") (some listed) := List.mem_of_head? he
  exact ⟨pre, listed, hdid, (hchoice 6 pre "k-north" listed hdid).1⟩

end FuzzyChat
