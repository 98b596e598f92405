import FuzzyChat.Controller.SessionRepository
import FuzzyChat.Interleave.Sequence

/-! The session repository over whole runs of completed operations, one after the other. -/

namespace FuzzyChat

inductive SessionCall where
  | setSession (info : SessionInfo)
  | getSession (accessKey : String)
  | removeSession (accessKey : String)
  | sweep

structure SessionRun where
  store : SessionStore
  now : Nat
  issued : List SessionInfo

namespace SessionRun

def start : SessionRun := ⟨SessionStore.empty, 0, []⟩

/-- One operation, some time after the last one. A session is set with a fresh access key and a
type there is. -/
def step (s : SessionRun) (call : Nat × SessionCall) : Option SessionRun :=
  let now := s.now + call.1
  match call.2 with
  | .setSession info =>
    if ∀ old ∈ s.issued, old.accessKey ≠ info.accessKey then
      (s.store.setSession now info).map fun store => ⟨store, now, info :: s.issued⟩
    else none
  | .getSession k => some ⟨(s.store.getSession now k).2, now, s.issued⟩
  | .removeSession k => some ⟨s.store.removeSession k, now, s.issued⟩
  | .sweep => some ⟨s.store.killExpiredSessions now, now, s.issued⟩

def latest (s : SessionRun) (uid : String) (c : Component) : Option SessionInfo :=
  s.issued.find? fun info => info.uid = uid ∧ info.componentType = c.toU8

structure Coherent (s : SessionRun) : Prop where
  fresh : s.issued.Pairwise fun info old => old.accessKey ≠ info.accessKey
  sessions : ∀ k w, s.store.sessions.lookup k = some w → w.value.accessKey = k ∧ w.value ∈ s.issued
  index : ∀ c uid k, (s.store.index c).lookup uid = some k →
    ∃ info, s.latest uid c = some info ∧ info.accessKey = k

theorem setSession_eq_some {store store' : SessionStore} {now : Nat} {info : SessionInfo} :
    store.setSession now info = some store' ↔ ∃ c : Component, info.componentType = c.toU8 ∧
      store' = (store.insertIndex c info.uid info.accessKey).insertSession now info := by
  rw [SessionStore.setSession, Option.map_eq_some_iff]
  constructor
  · rintro ⟨c, hc, rfl⟩
    exact ⟨c, Component.toU8_of_fromU8 hc, rfl⟩
  · rintro ⟨c, hc, rfl⟩
    exact ⟨c, by rw [hc, Component.fromU8_toU8], rfl⟩

theorem lookup_removeSession {store : SessionStore} {k k' : String}
    {w' : ExpirationWrapper SessionInfo} :
    (store.removeSession k).sessions.lookup k' = some w' ↔
      k' ≠ k ∧ store.sessions.lookup k' = some w' := by
  cases h : store.sessions.lookup k with
  | none =>
    have hs : store.removeSession k = (store.takeSession k).2 := by
      simp only [SessionStore.removeSession, SessionStore.takeSession, h]
    rw [hs, SessionStore.sessions_takeSession, AList.lookup_erase_eq_some]
  | some w =>
    have hs : store.removeSession k = (store.takeSession k).2.removeClient w.value.uid := by
      simp only [SessionStore.removeSession, SessionStore.takeSession, h]
    rw [hs, SessionStore.sessions_removeClient, SessionStore.sessions_takeSession,
      AList.lookup_erase_eq_some]

theorem index_removeSession {store : SessionStore} {k : String} {c : Component} {uid k' : String} :
    ((store.removeSession k).index c).lookup uid = some k' ↔
      (store.index c).lookup uid = some k' ∧ ∀ w, store.sessions.lookup k = some w →
        c = .client → w.value.uid ≠ uid := by
  cases h : store.sessions.lookup k with
  | none =>
    have hs : store.removeSession k = (store.takeSession k).2 := by
      simp only [SessionStore.removeSession, SessionStore.takeSession, h]
    simp [hs]
  | some w =>
    have hs : store.removeSession k = (store.takeSession k).2.removeClient w.value.uid := by
      simp only [SessionStore.removeSession, SessionStore.takeSession, h]
    rw [hs, SessionStore.index_removeClient, SessionStore.index_takeSession]
    split_ifs with hc
    · rw [AList.lookup_erase_eq_some]
      constructor
      · rintro ⟨hne, hi⟩
        exact ⟨hi, fun _ hw _ => Option.some.inj hw ▸ Ne.symm hne⟩
      · rintro ⟨hi, hne⟩
        exact ⟨Ne.symm (hne w rfl hc), hi⟩
    · simp [hc]

theorem latest_cons (store : SessionStore) (now : Nat) (issued : List SessionInfo)
    (info : SessionInfo) (uid : String) (c : Component) :
    latest ⟨store, now, info :: issued⟩ uid c =
      if info.uid = uid ∧ info.componentType = c.toU8 then some info
      else latest ⟨store, now, issued⟩ uid c := by
  simp only [latest, List.find?_cons]
  split_ifs with h <;> simp [h]

theorem latest_eq_some {s : SessionRun} {uid : String} {c : Component} {info : SessionInfo}
    (h : s.latest uid c = some info) :
    info ∈ s.issued ∧ info.uid = uid ∧ info.componentType = c.toU8 := by
  have hp := List.find?_some h
  rw [decide_eq_true_eq] at hp
  exact ⟨List.mem_of_find?_eq_some h, hp⟩

namespace Coherent
variable {s s' : SessionRun}

theorem issued_eq (hs : s.Coherent) {info info' : SessionInfo} (hi : info ∈ s.issued)
    (hi' : info' ∈ s.issued) (hk : info.accessKey = info'.accessKey) : info = info' := by
  by_contra hne
  have : Std.Symm fun a b : SessionInfo => b.accessKey ≠ a.accessKey := ⟨fun _ _ h => Ne.symm h⟩
  exact hs.fresh.forall hi' hi (Ne.symm hne) hk

theorem identify (hs : s.Coherent) {c : Component} {uid k : String}
    {w : ExpirationWrapper SessionInfo} (hi : (s.store.index c).lookup uid = some k)
    (hw : s.store.sessions.lookup k = some w) :
    s.latest uid c = some w.value ∧ w.value.uid = uid ∧ w.value.componentType = c.toU8 := by
  obtain ⟨info, hl, hk⟩ := hs.index c uid k hi
  obtain ⟨hwk, hwi⟩ := hs.sessions k w hw
  obtain ⟨hm, hu, ht⟩ := latest_eq_some hl
  obtain rfl : w.value = info := hs.issued_eq hwi hm (hwk.trans hk.symm)
  exact ⟨hl, hu, ht⟩

theorem start : SessionRun.start.Coherent where
  fresh := List.Pairwise.nil
  sessions k w hw := by simp [SessionRun.start, SessionStore.empty] at hw
  index c uid k hk := by
    cases c <;> simp [SessionRun.start, SessionStore.empty, SessionStore.index] at hk

theorem of_shrink (hs : s.Coherent) (hissued : s'.issued = s.issued)
    (hsessions : ∀ k w', s'.store.sessions.lookup k = some w' →
      ∃ w, s.store.sessions.lookup k = some w ∧ w.value = w'.value)
    (hindex : ∀ c uid k, (s'.store.index c).lookup uid = some k →
      (s.store.index c).lookup uid = some k) : s'.Coherent where
  fresh := hissued ▸ hs.fresh
  sessions k w' hw' := by
    obtain ⟨w, hw, hv⟩ := hsessions k w' hw'
    rw [hissued, ← hv]
    exact hs.sessions k w hw
  index c uid k hk := by
    rw [latest, hissued]
    exact hs.index c uid k (hindex c uid k hk)

theorem step (hs : s.Coherent) {call : Nat × SessionCall} (h : s.step call = some s') :
    s'.Coherent := by
  obtain ⟨elapsed, call⟩ := call
  cases call with
  | setSession info =>
    obtain ⟨hfresh, h⟩ := Option.ite_none_right_eq_some.mp h
    obtain ⟨store, hset, rfl⟩ := Option.map_eq_some_iff.mp h
    obtain ⟨c, hc, rfl⟩ := setSession_eq_some.mp hset
    refine ⟨List.pairwise_cons.mpr ⟨hfresh, hs.fresh⟩, fun k w hw => ?_, fun c' uid k hk => ?_⟩
    · rcases AList.lookup_insert_eq_some.mp hw with ⟨rfl, rfl⟩ | ⟨-, hw⟩
      · exact ⟨rfl, List.mem_cons_self⟩
      · rw [SessionStore.sessions_insertIndex] at hw
        exact ⟨(hs.sessions k w hw).1, List.mem_cons_of_mem _ (hs.sessions k w hw).2⟩
    · rw [SessionStore.index_insertSession, SessionStore.index_insertIndex] at hk
      rw [latest_cons]
      split_ifs at hk with hcc
      · rcases AList.lookup_insert_eq_some.mp hk with ⟨rfl, rfl⟩ | ⟨hne, hk⟩
        · exact ⟨info, if_pos ⟨rfl, hcc ▸ hc⟩, rfl⟩
        · rw [if_neg fun h => hne h.1.symm]
          exact hs.index c' uid k hk
      · rw [if_neg fun h => hcc (Component.toU8_injective (h.2.symm.trans hc))]
        exact hs.index c' uid k hk
  | getSession k =>
    cases h
    exact hs.of_shrink rfl (fun k' w' => SessionStore.lookup_getSession)
      fun c uid k' hk => by rwa [SessionStore.index_getSession] at hk
  | removeSession k =>
    cases h
    exact hs.of_shrink rfl (fun k' w' hw => ⟨w', (lookup_removeSession.mp hw).2, rfl⟩)
      fun c uid k' hk => (index_removeSession.mp hk).1
  | sweep =>
    cases h
    exact hs.of_shrink rfl
      (fun k' w' hw => ⟨w', ((SessionStore.lookup_foldl_removeExpired _ _ k' w').mp hw).1, rfl⟩)
      fun c uid k' hk => ((SessionStore.index_foldl_removeExpired _ _ c uid k').mp hk).1

end Coherent

end SessionRun
end FuzzyChat
