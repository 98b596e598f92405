import FuzzyChat.Controller.SessionHistory
import FuzzyChat.Controller.Services

/-! The indexes of the session repository: what keeps the latest session of a uid to be found, and
what keeps them from listing sessions that are gone. -/

namespace FuzzyChat
open Interleave

namespace SessionRun

/-- The session is found under its uid: listed, answered by the lookups of its type, counted. -/
structure Found (store : SessionStore) (c : Component) (info : SessionInfo) : Prop where
  index : (store.index c).lookup info.uid = some info.accessKey
  client : c = .client → store.getClient info.uid = some info
  proxy : c = .proxy → ∀ k, k ≠ info.accessKey →
    ∃ proxies, store.getProxies k = some proxies ∧ info ∈ proxies
  counted : info.uid ∈ (store.index c).keys ∧ store.count c = (store.index c).keys.length

/-- The latest session of each uid and type is found as long as it is stored. -/
def Discoverable (s : SessionRun) : Prop :=
  ∀ uid c info, s.latest uid c = some info →
    (s.store.sessions.lookup info.accessKey).isSome = true → Found s.store c info

/-- The call clears an index entry, and leaves the session it points to in the store. -/
def Hides (s : SessionRun) : Nat × SessionCall → Prop
  | (_, .removeSession k) => ∃ w k', s.store.sessions.lookup k = some w ∧
      s.store.clients.lookup w.value.uid = some k' ∧ k' ≠ k ∧
      (s.store.sessions.lookup k').isSome = true
  | (elapsed, .sweep) => ∃ k w c k' w', s.store.sessions.lookup k = some w ∧
      w.isExpired (s.now + elapsed) = true ∧ (s.store.index c).lookup w.value.uid = some k' ∧
      s.store.sessions.lookup k' = some w' ∧ w'.isExpired (s.now + elapsed) = false
  | _ => False

theorem Coherent.sessionOf {s : SessionRun} (hs : s.Coherent) {uid : String} {c : Component}
    {info : SessionInfo} (hl : s.latest uid c = some info)
    (hst : (s.store.sessions.lookup info.accessKey).isSome = true) :
    s.store.sessionOf info.accessKey = some info := by
  obtain ⟨w, hw⟩ := Option.isSome_iff_exists.mp hst
  obtain ⟨hk, hi⟩ := hs.sessions _ w hw
  have hv : w.value = info := hs.issued_eq hi (latest_eq_some hl).1 hk
  exact Option.map_eq_some_iff.mpr ⟨w, hw, hv⟩

theorem found_iff {s : SessionRun} (hs : s.Coherent) {uid : String} {c : Component}
    {info : SessionInfo} (hl : s.latest uid c = some info)
    (hst : (s.store.sessions.lookup info.accessKey).isSome = true) :
    Found s.store c info ↔ (s.store.index c).lookup uid = some info.accessKey := by
  obtain ⟨-, rfl, -⟩ := latest_eq_some hl
  have hsess := hs.sessionOf hl hst
  refine ⟨fun hf => hf.index, fun hi => ?_⟩
  constructor
  case index => exact hi
  case client =>
    rintro rfl
    have hkey : s.store.clientKey info.uid = some info.accessKey := hi
    rw [SessionStore.getClient, hkey]
    exact hsess
  case proxy =>
    rintro rfl k hk
    -- the asker's own session is left out of the list, and this is another one
    have hm : info ∈ s.store.proxies.entries.filterMap fun e =>
        if e.2 = k then none else (s.store.sessions.lookup e.2).map ExpirationWrapper.value := by
      refine List.mem_filterMap.mpr ⟨⟨info.uid, info.accessKey⟩, AList.mem_entries_iff.mpr hi, ?_⟩
      rw [if_neg (Ne.symm hk)]
      exact hsess
    refine ⟨_, ?_, hm⟩
    rw [SessionStore.getProxies, if_neg]
    intro hnil
    rw [List.isEmpty_iff.mp hnil] at hm
    nomatch hm
  case counted => exact ⟨AList.lookup_isSome.mp (hi ▸ rfl), (List.length_map _).symm⟩

theorem discoverable_iff {s : SessionRun} (hs : s.Coherent) :
    s.Discoverable ↔ ∀ uid c info, s.latest uid c = some info →
      (s.store.sessions.lookup info.accessKey).isSome = true →
        (s.store.index c).lookup uid = some info.accessKey :=
  ⟨fun h uid c info hl hst => (found_iff hs hl hst).mp (h uid c info hl hst),
    fun h uid c info hl hst => (found_iff hs hl hst).mpr (h uid c info hl hst)⟩

theorem sessions_setSession {s : SessionRun} {now : Nat} {info : SessionInfo} {c : Component}
    {k : String} : (((s.store.insertIndex c info.uid info.accessKey).insertSession now
      info).sessions.lookup k).isSome = true ↔
        k = info.accessKey ∨ (s.store.sessions.lookup k).isSome = true := by
  rw [SessionStore.sessions_insertSession, SessionStore.sessions_insertIndex,
    AList.lookup_insert_eq_ite]
  split_ifs with hk <;> simp [hk]

section steps
variable {s s' : SessionRun}

theorem discoverable_setSession (hs : s.Coherent) (hd : s.Discoverable) {elapsed : Nat}
    {info : SessionInfo} (h : s.step (elapsed, .setSession info) = some s') : s'.Discoverable := by
  rw [discoverable_iff (hs.step h)]
  rw [discoverable_iff hs] at hd
  obtain ⟨hfresh, h⟩ := Option.ite_none_right_eq_some.mp h
  obtain ⟨store, hset, rfl⟩ := Option.map_eq_some_iff.mp h
  obtain ⟨c, hc, rfl⟩ := setSession_eq_some.mp hset
  intro uid c' info' hl hst
  rw [latest_cons] at hl
  rw [SessionStore.index_insertSession, SessionStore.index_insertIndex]
  split_ifs at hl with hnew
  · obtain ⟨rfl, ht⟩ := hnew
    cases hl
    rw [if_pos (Component.toU8_injective (ht.symm.trans hc)), AList.lookup_insert]
  · have hne : info'.accessKey ≠ info.accessKey := hfresh info' (latest_eq_some hl).1
    have hold := hd uid c' info' hl ((sessions_setSession.mp hst).resolve_left hne)
    split_ifs with hcc
    · rw [AList.lookup_insert_ne fun hu => hnew ⟨hu.symm, hcc ▸ hc⟩]
      exact hold
    · exact hold

theorem discoverable_getSession (hs : s.Coherent) (hd : s.Discoverable) {elapsed : Nat} {k : String}
    (h : s.step (elapsed, .getSession k) = some s') : s'.Discoverable := by
  rw [discoverable_iff (hs.step h)]
  rw [discoverable_iff hs] at hd
  cases h
  intro uid c info hl hst
  obtain ⟨w', hw'⟩ := Option.isSome_iff_exists.mp hst
  obtain ⟨w, hw, -⟩ := SessionStore.lookup_getSession hw'
  rw [SessionStore.index_getSession]
  exact hd uid c info hl (by rw [hw]; rfl)

theorem discoverable_removeSession (hs : s.Coherent) (hd : s.Discoverable) {elapsed : Nat}
    {k : String} (h : s.step (elapsed, .removeSession k) = some s') :
    ¬ s.Hides (elapsed, .removeSession k) ↔ s'.Discoverable := by
  rw [discoverable_iff (hs.step h)]
  rw [discoverable_iff hs] at hd
  cases h
  constructor
  · intro hno uid c info hl hst
    obtain ⟨w', hw'⟩ := Option.isSome_iff_exists.mp hst
    obtain ⟨hne, hw'⟩ := lookup_removeSession.mp hw'
    have hold := hd uid c info hl (by rw [hw']; rfl)
    refine index_removeSession.mpr ⟨hold, fun w hw hc hu => ?_⟩
    subst hc hu
    exact hno ⟨w, info.accessKey, hw, hold, hne, by rw [hw']; rfl⟩
  · rintro hd' ⟨w, k', hw, hi, hne, hst⟩
    obtain ⟨w', hw'⟩ := Option.isSome_iff_exists.mp hst
    obtain ⟨hl, hu, -⟩ := hs.identify (c := .client) hi hw'
    obtain ⟨hk, -⟩ := hs.sessions k' w' hw'
    have hstored := lookup_removeSession.mpr ⟨hne, hw'⟩
    have hlisted := hd' _ .client w'.value hl (by rw [hk, hstored]; rfl)
    exact (index_removeSession.mp hlisted).2 w hw rfl rfl

theorem discoverable_sweep (hs : s.Coherent) (hd : s.Discoverable) {elapsed : Nat}
    (h : s.step (elapsed, .sweep) = some s') :
    ¬ s.Hides (elapsed, .sweep) ↔ s'.Discoverable := by
  rw [discoverable_iff (hs.step h)]
  rw [discoverable_iff hs] at hd
  cases h
  constructor
  · intro hno uid c info hl hst
    obtain ⟨w', hw'⟩ := Option.isSome_iff_exists.mp hst
    obtain ⟨hw', hkept⟩ := (SessionStore.lookup_foldl_removeExpired _ _ _ w').mp hw'
    have hold := hd uid c info hl (by rw [hw']; rfl)
    refine (SessionStore.index_foldl_removeExpired _ _ c uid _).mpr ⟨hold, fun e he hu => ?_⟩
    obtain ⟨k, w, hw, hx, rfl⟩ := SessionStore.mem_expiredSessions.mp he
    subst hu
    refine hno ⟨k, w, c, info.accessKey, w', hw, hx, hold, hw', ?_⟩
    by_contra hx'
    refine hkept _ (SessionStore.mem_expiredSessions.mpr
      ⟨_, w', hw', Bool.eq_true_of_not_eq_false hx', rfl⟩) ?_
    exact (hs.sessions _ w' hw').1
  · rintro hd' ⟨k, w, c, k', w', hw, hx, hi, hw', hx'⟩
    obtain ⟨hl, hu, -⟩ := hs.identify hi hw'
    obtain ⟨hk, -⟩ := hs.sessions k' w' hw'
    have hstored : (s.store.killExpiredSessions (s.now + elapsed)).sessions.lookup k' = some w' := by
      refine (SessionStore.lookup_foldl_removeExpired _ _ _ w').mpr ⟨hw', fun e he hek => ?_⟩
      obtain ⟨k₁, w₁, hw₁, hx₁, rfl⟩ := SessionStore.mem_expiredSessions.mp he
      obtain rfl : k₁ = k' := (hs.sessions k₁ w₁ hw₁).1.symm.trans hek
      obtain rfl : w₁ = w' := Option.some.inj (hw₁.symm.trans hw')
      exact absurd (hx₁.symm.trans hx') (by decide)
    have hlisted := hd' _ c w'.value hl (by rw [hk, hstored]; rfl)
    exact ((SessionStore.index_foldl_removeExpired _ _ c _ _).mp hlisted).2 _
      (SessionStore.mem_expiredSessions.mpr ⟨k, w, hw, hx, rfl⟩) rfl

theorem discoverable_step (hs : s.Coherent) (hd : s.Discoverable) (call : Nat × SessionCall) :
    ¬ s.Hides call ↔ ∀ s', s.step call = some s' → s'.Discoverable := by
  obtain ⟨elapsed, call⟩ := call
  cases call with
  | setSession info =>
    exact ⟨fun _ s' h => discoverable_setSession hs hd h, fun _ h => h⟩
  | getSession k => exact ⟨fun _ s' h => discoverable_getSession hs hd h, fun _ h => h⟩
  | removeSession k =>
    constructor
    · exact fun hno s' h => (discoverable_removeSession hs hd h).mp hno
    · exact fun hall => (discoverable_removeSession hs hd rfl).mpr (hall _ rfl)
  | sweep =>
    constructor
    · exact fun hno s' h => (discoverable_sweep hs hd h).mp hno
    · exact fun hall => (discoverable_sweep hs hd rfl).mpr (hall _ rfl)

end steps

/-- The latest session of a uid and type stays to be found as long as it is stored exactly when no
call of the run clears the entry of a session it leaves in the store. -/
theorem always_discoverable_iff (calls : List (Nat × SessionCall)) :
    Always step Discoverable start calls ↔ Each step (fun s call => ¬ s.Hides call) start calls :=
  always_iff_each (fun _ _ _ hs h => hs.step h)
    (fun _ call hs hd => discoverable_step hs hd call) Coherent.start fun _ _ _ hl => nomatch hl

def sampleSession (uid accessKey : String) (c : Component) : SessionInfo :=
  SessionManager.sessionInfo accessKey uid c ⟨"10.0.0.1", 40000⟩ ⟨"10.0.0.1", 50051, uid, [1]⟩

/-- Alice signs in twice and logs the first session out: the second is stored, and not found. -/
theorem logout_hides_latest : ¬ ∀ calls, Always step Discoverable start calls := by
  intro hall
  have h := (hall [(0, .setSession (sampleSession "alice" "k1" .client)),
    (0, .setSession (sampleSession "alice" "k2" .client)), (0, .removeSession "k1")]).2 _ rfl
  have hd := (h.2 _ rfl).2 _ rfl "alice" .client _ rfl rfl
  exact absurd hd.index (by decide)

/-! What the indexes list. -/

def holders (store : SessionStore) (c : Component) : Finset String :=
  ((store.sessions.entries.filter fun e => e.2.value.componentType = c.toU8).map
    fun e => e.2.value.uid).toFinset

/-- Whatever is listed is stored, so that no count exceeds the holders of sessions, nor does a
figure of the status report, and who holds no session is not counted. -/
structure NoDangling (store : SessionStore) : Prop where
  stored : ∀ c uid k, (store.index c).lookup uid = some k →
    (store.sessions.lookup k).isSome = true
  counts : ∀ c, store.count c ≤ (holders store c).card
  figures : ∀ c, (InfoService.toU32 (store.count c)).toNat ≤ (holders store c).card
  gone : ∀ c uid, uid ∉ holders store c → uid ∉ (store.index c).keys

/-- The call removes a session that is listed among the proxies or the controllers. -/
def Strands (s : SessionRun) : Nat × SessionCall → Prop
  | (_, .removeSession k) => ∃ w, s.store.sessions.lookup k = some w ∧
      (s.store.proxies.lookup w.value.uid = some k ∨
        s.store.controllers.lookup w.value.uid = some k)
  | _ => False

theorem mem_holders {store : SessionStore} {c : Component} {uid : String} :
    uid ∈ holders store c ↔ ∃ k w, store.sessions.lookup k = some w ∧
      w.value.componentType = c.toU8 ∧ w.value.uid = uid := by
  simp only [holders, List.mem_toFinset, List.mem_map, List.mem_filter, decide_eq_true_eq]
  constructor
  · rintro ⟨⟨k, w⟩, ⟨hw, ht⟩, hu⟩
    exact ⟨k, w, AList.mem_entries_iff.mp hw, ht, hu⟩
  · rintro ⟨k, w, hw, ht, hu⟩
    exact ⟨⟨k, w⟩, ⟨AList.mem_entries_iff.mpr hw, ht⟩, hu⟩

theorem toU32_le (n : Nat) : (InfoService.toU32 n).toNat ≤ n := by
  unfold InfoService.toU32
  split_ifs
  · rw [UInt32.toNat_ofNat']
    exact Nat.mod_le _ _
  · exact Nat.zero_le n

def IndexStored (store : SessionStore) (c : Component) : Prop :=
  ∀ uid k, (store.index c).lookup uid = some k → (store.sessions.lookup k).isSome = true

theorem indexStored_start (c : Component) : IndexStored SessionRun.start.store c := by
  intro uid k hk
  cases c <;> simp [SessionRun.start, SessionStore.empty, SessionStore.index] at hk

theorem noDangling_iff {s : SessionRun} (hs : s.Coherent) :
    NoDangling s.store ↔ ∀ c, IndexStored s.store c := by
  refine ⟨fun h => h.stored, fun h => ?_⟩
  have hheld : ∀ c uid k, (s.store.index c).lookup uid = some k → uid ∈ holders s.store c := by
    intro c uid k hk
    obtain ⟨w, hw⟩ := Option.isSome_iff_exists.mp (h c uid k hk)
    obtain ⟨-, hu, ht⟩ := hs.identify hk hw
    exact mem_holders.mpr ⟨k, w, hw, ht, hu⟩
  have hcount : ∀ c, s.store.count c ≤ (holders s.store c).card := fun c =>
    AList.count_le_card (hheld c)
  refine ⟨h, hcount, fun c => (toU32_le _).trans (hcount c), fun c uid hno hm => ?_⟩
  obtain ⟨k, hk⟩ := Option.isSome_iff_exists.mp (AList.lookup_isSome.mpr (AList.mem_keys.mp hm))
  exact hno (hheld c uid k hk)

section steps
variable {s s' : SessionRun} {c : Component} (hd : IndexStored s.store c) {elapsed : Nat}
include hd

theorem indexStored_setSession {info : SessionInfo}
    (h : s.step (elapsed, .setSession info) = some s') : IndexStored s'.store c := by
  obtain ⟨-, h⟩ := Option.ite_none_right_eq_some.mp h
  obtain ⟨store, hset, rfl⟩ := Option.map_eq_some_iff.mp h
  obtain ⟨t, ht, rfl⟩ := setSession_eq_some.mp hset
  intro uid k hk
  rw [SessionStore.index_insertSession, SessionStore.index_insertIndex] at hk
  apply sessions_setSession.mpr
  split_ifs at hk
  · rcases AList.lookup_insert_eq_some.mp hk with ⟨-, rfl⟩ | ⟨-, hk⟩
    · exact .inl rfl
    · exact .inr (hd uid k hk)
  · exact .inr (hd uid k hk)

theorem indexStored_getSession {k : String} (h : s.step (elapsed, .getSession k) = some s') :
    IndexStored s'.store c := by
  cases h
  intro uid k' hk
  rw [SessionStore.index_getSession] at hk
  rw [SessionStore.sessions_getSession, AList.lookup_modify]
  have hst := hd uid k' hk
  split_ifs with hkk
  · rw [Option.isSome_map, ← hkk]
    exact hst
  · exact hst

theorem indexStored_removeSession (hs : s.Coherent) {k : String}
    (h : s.step (elapsed, .removeSession k) = some s')
    (hno : c ≠ .client → ∀ w, s.store.sessions.lookup k = some w →
      (s.store.index c).lookup w.value.uid ≠ some k) : IndexStored s'.store c := by
  cases h
  intro uid k' hk
  obtain ⟨hold, hclient⟩ := index_removeSession.mp hk
  obtain ⟨w, hw⟩ := Option.isSome_iff_exists.mp (hd uid k' hold)
  have hne : k' ≠ k := by
    intro hkk
    subst hkk
    obtain ⟨-, rfl, -⟩ := hs.identify hold hw
    by_cases hc : c = .client
    · exact hclient w hw hc rfl
    · exact hno hc w hw hold
  rw [lookup_removeSession.mpr ⟨hne, hw⟩]
  rfl

theorem indexStored_sweep (hs : s.Coherent) (h : s.step (elapsed, .sweep) = some s') :
    IndexStored s'.store c := by
  cases h
  intro uid k' hk
  obtain ⟨hk, hclear⟩ := (SessionStore.index_foldl_removeExpired _ _ c uid k').mp hk
  obtain ⟨w', hw'⟩ := Option.isSome_iff_exists.mp (hd uid k' hk)
  obtain ⟨-, hu, -⟩ := hs.identify hk hw'
  have hstored : (s.store.killExpiredSessions (s.now + elapsed)).sessions.lookup k' = some w' := by
    refine (SessionStore.lookup_foldl_removeExpired _ _ _ w').mpr ⟨hw', fun e he hek => ?_⟩
    obtain ⟨k, w, hw, hx, rfl⟩ := SessionStore.mem_expiredSessions.mp he
    obtain rfl : k = k' := (hs.sessions k w hw).1.symm.trans hek
    obtain rfl : w = w' := Option.some.inj (hw.symm.trans hw')
    exact hclear _ he hu
  rw [hstored]
  rfl

end steps

/-- Whatever calls have been made and completed, the clients that are listed are stored. -/
theorem always_clientsStored (calls : List (Nat × SessionCall)) :
    Always step (fun s => s.Coherent ∧ IndexStored s.store .client) start calls := by
  apply always_of_invariant
  · rintro s ⟨elapsed, call⟩ s' ⟨hs, hd⟩ h
    refine ⟨hs.step h, ?_⟩
    cases call with
    | setSession info => exact indexStored_setSession hd h
    | getSession k => exact indexStored_getSession hd h
    | removeSession k => exact indexStored_removeSession hd hs h fun hc => absurd rfl hc
    | sweep => exact indexStored_sweep hd hs h
  · exact ⟨Coherent.start, indexStored_start .client⟩

theorem noDangling_removeSession {s s' : SessionRun} (hs : s.Coherent) (hd : NoDangling s.store)
    {elapsed : Nat} {k : String} (h : s.step (elapsed, .removeSession k) = some s') :
    ¬ s.Strands (elapsed, .removeSession k) ↔ NoDangling s'.store := by
  rw [noDangling_iff (hs.step h)]
  constructor
  · intro hno c
    apply indexStored_removeSession (hd.stored c) hs h
    intro hc w hw hold
    cases c with
    | client => exact hc rfl
    | proxy => exact hno ⟨w, hw, .inl hold⟩
    | controller => exact hno ⟨w, hw, .inr hold⟩
  · cases h
    rintro hd' ⟨w, hw, hi⟩
    have hlisted : ∃ c : Component, c ≠ .client ∧ (s.store.index c).lookup w.value.uid = some k :=
      hi.elim (fun hi => ⟨.proxy, nofun, hi⟩) fun hi => ⟨.controller, nofun, hi⟩
    obtain ⟨c, hc, hi⟩ := hlisted
    have hst := hd' c _ k (index_removeSession.mpr ⟨hi, fun _ _ h => absurd h hc⟩)
    obtain ⟨w', hw'⟩ := Option.isSome_iff_exists.mp hst
    exact (lookup_removeSession.mp hw').1 rfl

theorem noDangling_step {s : SessionRun} (hs : s.Coherent) (hd : NoDangling s.store)
    (call : Nat × SessionCall) :
    ¬ s.Strands call ↔ ∀ s', s.step call = some s' → NoDangling s'.store := by
  obtain ⟨elapsed, call⟩ := call
  cases call with
  | setSession info =>
    refine ⟨fun _ s' h => ?_, fun _ h => h⟩
    exact (noDangling_iff (hs.step h)).mpr fun c => indexStored_setSession (hd.stored c) h
  | getSession k =>
    refine ⟨fun _ s' h => ?_, fun _ h => h⟩
    exact (noDangling_iff (hs.step h)).mpr fun c => indexStored_getSession (hd.stored c) h
  | removeSession k =>
    constructor
    · exact fun hno s' h => (noDangling_removeSession hs hd h).mp hno
    · exact fun hall => (noDangling_removeSession hs hd rfl).mpr (hall _ rfl)
  | sweep =>
    refine ⟨fun _ s' h => ?_, fun _ h => h⟩
    exact (noDangling_iff (hs.step h)).mpr fun c => indexStored_sweep (hd.stored c) hs h

/-- No index ever lists a session that is gone exactly when no call of the run removes one that is
listed among the proxies or the controllers. -/
theorem always_noDangling_iff (calls : List (Nat × SessionCall)) :
    Always step (fun s => NoDangling s.store) start calls ↔
      Each step (fun s call => ¬ s.Strands call) start calls := by
  refine always_iff_each (fun _ _ _ hs h => hs.step h)
    (fun _ call hs hd => noDangling_step hs hd call) Coherent.start ?_
  exact (noDangling_iff Coherent.start).mpr indexStored_start

/-- A proxy signs in and out again: it is still listed, and counted. -/
theorem logout_strands_proxy :
    ¬ ∀ calls, Always step (fun s => NoDangling s.store) start calls := by
  intro hall
  have h := (hall [(0, .setSession (sampleSession "north" "k1" .proxy)),
    (0, .removeSession "k1")]).2 _ rfl
  have hd := (h.2 _ rfl).stored .proxy "north" "k1" rfl
  exact absurd hd (by decide)

end SessionRun
end FuzzyChat
