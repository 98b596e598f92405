import FuzzyChat.Controller.RedisSessions
import FuzzyChat.Controller.SessionHistory

/-! Runs of the session repository over Redis: when its lookups return, and what they find. -/

namespace FuzzyChat
open Redis

structure RedisSessionRun (Text : Type) where
  store : Redis.Store Text
  now : Nat
  issued : List SessionInfo

structure TimedRun where
  timed : TimedSessions
  now : Nat
  issued : List SessionInfo

def latestOf (issued : List SessionInfo) (uid : String) (c : Component) : Option SessionInfo :=
  issued.find? fun info => info.uid = uid ∧ info.componentType = c.toU8

namespace TimedRun

def start : TimedRun := ⟨TimedSessions.empty, 0, []⟩

def step (a : TimedRun) (call : Nat × SessionCall) : TimedRun :=
  let now := a.now + call.1
  match call.2 with
  | .setSession info =>
    match Component.fromU8 info.componentType with
    | none => ⟨a.timed, now, a.issued⟩
    | some c => ⟨a.timed.set now c info, now, info :: a.issued⟩
  | .getSession k => ⟨a.timed.renew now k, now, a.issued⟩
  | .removeSession k => ⟨a.timed.remove k, now, a.issued⟩
  | .sweep => ⟨a.timed, now, a.issued⟩

def run (calls : List (Nat × SessionCall)) : TimedRun := calls.foldl step start

end TimedRun

namespace RedisSessionRun
open RedisRepository
variable {Text : Type} (keys : SerdeJson Text String) (infos : SerdeJson Text SessionInfo)

def start : RedisSessionRun Text := ⟨∅, 0, []⟩

/-- One operation, some time after the last one. There is no sweep: the database lets its keys
expire by itself. -/
def step (r : RedisSessionRun Text) (call : Nat × SessionCall) : RedisSessionRun Text :=
  let now := r.now + call.1
  match call.2 with
  | .setSession info =>
    let (done, store) := RedisRepository.setSession keys infos now info r.store
    ⟨store, now, if done.isSome then info :: r.issued else r.issued⟩
  | .getSession k => ⟨(RedisRepository.getSession infos now k r.store).2, now, r.issued⟩
  | .removeSession k => ⟨(RedisRepository.removeSession k r.store).2, now, r.issued⟩
  | .sweep => ⟨r.store, now, r.issued⟩

def run (calls : List (Nat × SessionCall)) : RedisSessionRun Text :=
  calls.foldl (step keys infos) start

variable {keys infos}

structure Refines (keys : SerdeJson Text String) (infos : SerdeJson Text SessionInfo)
    (r : RedisSessionRun Text) (a : TimedRun) : Prop where
  store : Represents keys infos r.store a.timed
  typed : a.timed.Typed
  now : r.now = a.now
  issued : r.issued = a.issued

theorem step_refines {r : RedisSessionRun Text} {a : TimedRun} (h : Refines keys infos r a)
    (call : Nat × SessionCall) : Refines keys infos (r.step keys infos call) (a.step call) := by
  obtain ⟨elapsed, call⟩ := call
  have hnow : r.now + elapsed = a.now + elapsed := by rw [h.now]
  cases call with
  | setSession info =>
    simp only [step, TimedRun.step]
    cases hc : Component.fromU8 info.componentType with
    | none =>
      simp only [RedisRepository.setSession, hc]
      exact ⟨h.store, h.typed, hnow, h.issued⟩
    | some c =>
      have htype := Component.toU8_of_fromU8 hc
      obtain ⟨hdone, hstore⟩ :=
        represents_setSession h.store (r.now + elapsed) htype
      simp only [hdone, Option.isSome_some, if_true]
      exact ⟨hnow ▸ hstore, h.typed.set _ htype, hnow, by rw [h.issued]⟩
  | getSession k =>
    obtain ⟨-, hstore⟩ := represents_getSession h.store h.typed (r.now + elapsed) k
    refine ⟨?_, h.typed.renew _ k, hnow, h.issued⟩
    rw [hnow] at hstore
    simp only [step, TimedRun.step, hnow]
    exact hstore
  | removeSession k =>
    exact ⟨represents_removeSession h.store k, h.typed.remove k, hnow, h.issued⟩
  | sweep => exact ⟨h.store, h.typed, hnow, h.issued⟩

theorem run_refines (calls : List (Nat × SessionCall)) :
    Refines keys infos (run keys infos calls) (TimedRun.run calls) := by
  induction calls using List.reverseRecOn with
  | nil => exact ⟨represents_empty, TimedSessions.typed_empty, rfl, rfl⟩
  | append_singleton calls call ih =>
    rw [run, TimedRun.run, List.foldl_concat, List.foldl_concat]
    exact step_refines ih call

/-! When the lookups return. -/

def Stored (infos : SerdeJson Text SessionInfo) (r : RedisSessionRun Text) (info : SessionInfo) :
    Prop :=
  r.store.get r.now (getSessionKey info.accessKey) = some (some (infos.toString info))

/-- `get_client` returns, and with nothing but a stored client session of the uid. -/
def ClientTotal (keys : SerdeJson Text String) (infos : SerdeJson Text SessionInfo)
    (r : RedisSessionRun Text) (uid : String) : Prop :=
  ∃ found, RedisRepository.getClient keys infos r.now uid r.store = some found ∧ ∀ info ∈ found,
    Stored infos r info ∧ info.uid = uid ∧ info.componentType = Component.client.toU8

/-- `get_proxies` returns, and with nothing but stored proxy sessions other than the asker's, at
least one. -/
def ProxiesTotal (keys : SerdeJson Text String) (infos : SerdeJson Text SessionInfo)
    (r : RedisSessionRun Text) (accessKey : String) : Prop :=
  ∃ found, RedisRepository.getProxies keys infos r.now accessKey r.store = some found ∧
    found ≠ some [] ∧
    ∀ proxies ∈ found, ∀ info ∈ proxies, Stored infos r info ∧ info.accessKey ≠ accessKey ∧
      info.componentType = Component.proxy.toU8

/-- The client index has an entry for the uid, and the session it names, if it is there, is the
uid's as a client. -/
def ClientIndexed (keys : SerdeJson Text String) (infos : SerdeJson Text SessionInfo)
    (r : RedisSessionRun Text) (uid : String) : Prop :=
  ∃ k, r.store.get r.now (getMemberSessionKey .client uid) = some (some (keys.toString k)) ∧
    ∀ info, r.store.get r.now (getSessionKey k) = some (some (infos.toString info)) →
      info.uid = uid ∧ info.componentType = Component.client.toU8

/-- Every entry of the proxy index names a session that is there, and is a proxy's unless it is the
asker's own. -/
def ProxiesIndexed (keys : SerdeJson Text String) (infos : SerdeJson Text SessionInfo)
    (r : RedisSessionRun Text) (accessKey : String) : Prop :=
  ∀ uid k, r.store.get r.now (getMemberSessionKey .proxy uid) = some (some (keys.toString k)) →
    ∃ info, r.store.get r.now (getSessionKey k) = some (some (infos.toString info)) ∧
      (k ≠ accessKey → info.componentType = Component.proxy.toU8)

section refined
variable {r : RedisSessionRun Text} {a : TimedRun}

theorem Refines.get_session (h : Refines keys infos r a) {k : String} {info : SessionInfo} :
    r.store.get r.now (getSessionKey k) = some (some (infos.toString info)) ↔
      a.timed.sessions.live a.now k = some info := by
  rw [h.store.sessions.get, h.now, Option.some_inj, Option.map_eq_some_iff]
  constructor
  · rintro ⟨info', hlive, he⟩
    exact infos.toString_injective he ▸ hlive
  · exact fun hlive => ⟨info, hlive, rfl⟩

theorem Refines.get_index (h : Refines keys infos r a) {c : Component} {uid k : String} :
    r.store.get r.now (getMemberSessionKey c uid) = some (some (keys.toString k)) ↔
      (a.timed.index c).live a.now uid = some k := by
  rw [(h.store.index c).get, h.now, Option.some_inj, Option.map_eq_some_iff]
  constructor
  · rintro ⟨k', hlive, he⟩
    exact keys.toString_injective he ▸ hlive
  · exact fun hlive => ⟨k, hlive, rfl⟩

theorem Refines.stored (h : Refines keys infos r a) {k : String} {info : SessionInfo}
    (hlive : a.timed.sessions.live a.now k = some info) :
    info.accessKey = k ∧ Stored infos r info := by
  obtain ⟨t, hk, -⟩ := Timed.live_eq_some.mp hlive
  obtain ⟨hown, -⟩ := h.typed k info t hk
  refine ⟨hown, ?_⟩
  rw [Stored, hown]
  exact h.get_session.mpr hlive

theorem Refines.clientTotal_iff (h : Refines keys infos r a) (uid : String) :
    ClientTotal keys infos r uid ↔ ClientIndexed keys infos r uid := by
  simp only [ClientTotal, ClientIndexed, h.get_index, h.get_session]
  rw [getClient_eq h.store, h.now]
  constructor
  · rintro ⟨found, hfound, hall⟩
    obtain ⟨k, hk, rfl⟩ := Option.map_eq_some_iff.mp hfound
    exact ⟨k, hk, fun info hinfo => (hall info hinfo).2⟩
  · rintro ⟨k, hk, hall⟩
    refine ⟨_, Option.map_eq_some_iff.mpr ⟨k, hk, rfl⟩, fun info hinfo => ?_⟩
    exact ⟨(h.stored hinfo).2, hall info hinfo⟩

theorem Refines.proxiesTotal_iff (h : Refines keys infos r a) (accessKey : String) :
    ProxiesTotal keys infos r accessKey ↔ ProxiesIndexed keys infos r accessKey := by
  simp only [ProxiesTotal, ProxiesIndexed, h.get_index, h.get_session]
  rw [h.now]
  constructor
  · -- an entry that names nothing would have made the listing panic
    rintro ⟨found, hfound, -, hall⟩ uid k hk
    obtain ⟨-, hmem⟩ := getProxies_eq_some h.store hfound
    cases hlive : a.timed.sessions.live a.now k with
    | none =>
      have hnone := (getProxies_eq_none h.store _ accessKey).mpr ⟨uid, k, hk, hlive⟩
      rw [hfound] at hnone
      nomatch hnone
    | some info =>
      refine ⟨info, rfl, fun hne => ?_⟩
      have hown := (h.stored hlive).1
      have hlisted := (hmem info).mpr ⟨hown ▸ hne, uid, k, hk, hlive⟩
      cases found with
      | none => nomatch hlisted
      | some proxies => exact (hall proxies rfl info hlisted).2.2
  · intro hall
    cases hfound : RedisRepository.getProxies keys infos a.now accessKey r.store with
    | none =>
      obtain ⟨uid, k, hk, hgone⟩ := (getProxies_eq_none h.store _ accessKey).mp hfound
      obtain ⟨info, hinfo, -⟩ := hall uid k hk
      rw [hgone] at hinfo
      nomatch hinfo
    | some found =>
      obtain ⟨hne, hmem⟩ := getProxies_eq_some h.store hfound
      refine ⟨found, rfl, hne, ?_⟩
      rintro proxies rfl info hinfo
      obtain ⟨hother, uid, k, hk, hlive⟩ := (hmem info).mp hinfo
      obtain ⟨hown, hstored⟩ := h.stored hlive
      obtain ⟨info', hinfo', htype⟩ := hall uid k hk
      obtain rfl : info = info' := Option.some.inj (hlive.symm.trans hinfo')
      exact ⟨hstored, hother, htype (hown ▸ hother)⟩

end refined

/-- After any run, a lookup of a client returns as it should exactly when the index has an entry
for it, and a lookup of the proxies exactly when no entry of their index is left behind. -/
theorem lookups_total_iff {Text : Type} (keys : SerdeJson Text String)
    (infos : SerdeJson Text SessionInfo) (calls : List (Nat × SessionCall)) :
    (∀ uid, ClientTotal keys infos (run keys infos calls) uid ↔
      ClientIndexed keys infos (run keys infos calls) uid) ∧
    ∀ accessKey, ProxiesTotal keys infos (run keys infos calls) accessKey ↔
      ProxiesIndexed keys infos (run keys infos calls) accessKey := by
  have h : Refines keys infos (run keys infos calls) (TimedRun.run calls) := run_refines calls
  exact ⟨h.clientTotal_iff, h.proxiesTotal_iff⟩

def plainKeys : SerdeJson (String ⊕ SessionInfo) String := ⟨.inl, Sum.getLeft?, fun _ => rfl⟩

def plainInfos : SerdeJson (String ⊕ SessionInfo) SessionInfo :=
  ⟨.inr, Sum.getRight?, fun _ => rfl⟩

/-- A client that has never signed in is looked up, and a proxy that has signed out is listed. -/
theorem lookups_panic : ¬ ∀ calls : List (Nat × SessionCall),
    (∀ uid, ClientTotal plainKeys plainInfos (run plainKeys plainInfos calls) uid) ∧
    ∀ accessKey, ProxiesTotal plainKeys plainInfos (run plainKeys plainInfos calls) accessKey := by
  intro hall
  obtain ⟨found, hfound, -⟩ := (hall []).1 "bob"
  nomatch hfound

end RedisSessionRun

/-! What they find: the latest session of a uid, as long as it is there. -/

def FreshKeys (issued : List SessionInfo) : Prop := (issued.map SessionInfo.accessKey).Nodup

instance (issued : List SessionInfo) : Decidable (FreshKeys issued) := by
  unfold FreshKeys
  infer_instance

theorem FreshKeys.eq {issued : List SessionInfo} (h : FreshKeys issued) {info info' : SessionInfo}
    (hi : info ∈ issued) (hi' : info' ∈ issued) (hk : info.accessKey = info'.accessKey) :
    info = info' := List.inj_on_of_nodup_map h hi hi' hk

theorem latestOf_eq_some {issued : List SessionInfo} {uid : String} {c : Component}
    {info : SessionInfo} (h : latestOf issued uid c = some info) :
    info ∈ issued ∧ info.uid = uid ∧ info.componentType = c.toU8 := by
  have hp := List.find?_some h
  rw [decide_eq_true_eq] at hp
  exact ⟨List.mem_of_find?_eq_some h, hp⟩

theorem latestOf_set {issued : List SessionInfo} {info : SessionInfo} {c : Component}
    (hc : info.componentType = c.toU8) (c' : Component) (uid : String) :
    latestOf (info :: issued) uid c' =
      if c' = c ∧ uid = info.uid then some info else latestOf issued uid c' := by
  have hsame : info.uid = uid ∧ info.componentType = c'.toU8 ↔ c' = c ∧ uid = info.uid := by
    rw [hc, and_comm, eq_comm (a := uid)]
    exact and_congr_left' ⟨fun he => (Component.toU8_injective he).symm, fun he => he ▸ rfl⟩
  simp only [latestOf, List.find?_cons, hsame]
  split_ifs with h <;> simp [h]

namespace TimedRun

structure Paired (a : TimedRun) : Prop where
  known : ∀ k info t, a.timed.sessions k = some (info, t) →
    info ∈ a.issued ∧ info.accessKey = k ∧ t ≤ a.now + SESSIONS_EXPIRATION_TIME
  paired : ∀ uid c info, latestOf a.issued uid c = some info → ∀ info' t,
    a.timed.sessions info.accessKey = some (info', t) →
      ∃ t', a.timed.index c uid = some (info.accessKey, t') ∧ t ≤ t'

theorem Paired.elapse {a : TimedRun} (h : Paired a) (elapsed : Nat) :
    Paired ⟨a.timed, a.now + elapsed, a.issued⟩ := by
  constructor
  case known =>
    intro k info t hk
    obtain ⟨hi, hown, ht⟩ := h.known k info t hk
    have hlater : t ≤ a.now + elapsed + SESSIONS_EXPIRATION_TIME := by omega
    exact ⟨hi, hown, hlater⟩
  case paired => exact h.paired

theorem Paired.set {a : TimedRun} (h : Paired a) {c : Component} {info : SessionInfo}
    (hc : info.componentType = c.toU8) (hfresh : FreshKeys (info :: a.issued)) :
    Paired ⟨a.timed.set a.now c info, a.now, info :: a.issued⟩ := by
  constructor
  case known =>
    intro k info' t hk
    rw [TimedSessions.sessions_set] at hk
    split_ifs at hk with he
    · cases hk
      exact ⟨List.mem_cons_self, he.symm, le_refl _⟩
    · obtain ⟨hi, hown, ht⟩ := h.known k info' t hk
      exact ⟨List.mem_cons_of_mem _ hi, hown, ht⟩
  case paired =>
    intro uid c' info₀ hlatest info' t hk
    rw [latestOf_set hc] at hlatest
    rw [TimedSessions.sessions_set] at hk
    rw [TimedSessions.index_set]
    split_ifs at hlatest with hmatch
    · cases hlatest
      rw [if_pos rfl] at hk
      cases hk
      exact ⟨_, if_pos hmatch, le_refl _⟩
    · -- an older session: its key is another one
      obtain ⟨hi₀, -, -⟩ := latestOf_eq_some hlatest
      have hne : info₀.accessKey ≠ info.accessKey := fun he => by
        have hnew := (List.nodup_cons.mp hfresh).1
        exact hnew (he ▸ List.mem_map_of_mem hi₀)
      rw [if_neg hne] at hk
      rw [if_neg hmatch]
      exact h.paired uid c' info₀ hlatest info' t hk

theorem Paired.renew {a : TimedRun} (h : Paired a) (hfresh : FreshKeys a.issued) (k : String) :
    Paired ⟨a.timed.renew a.now k, a.now, a.issued⟩ := by
  cases hlive : a.timed.sessions.live a.now k with
  | none =>
    rw [TimedSessions.renew_of_none hlive]
    exact h
  | some info =>
    obtain ⟨hsessions, hindexes⟩ := TimedSessions.renew_of_live hlive
    obtain ⟨t₀, hk₀, hnow⟩ := Timed.live_eq_some.mp hlive
    obtain ⟨hi, hown, -⟩ := h.known k info t₀ hk₀
    constructor
    case known =>
      intro k' info' t hk
      simp only [hsessions, Timed.renew_apply, hlive, Option.isSome_some, and_true] at hk
      split_ifs at hk with he
      · rw [hk₀, Option.map_some] at hk
        cases hk
        exact ⟨hi, hown.trans he.symm, le_refl _⟩
      · exact h.known k' info' t hk
    case paired =>
      intro uid c info₁ hlatest info' t hk
      obtain ⟨hi₁, huid, htype⟩ := latestOf_eq_some hlatest
      simp only [hsessions, Timed.renew_apply, hlive, Option.isSome_some, and_true] at hk
      simp only [hindexes]
      split_ifs at hk with he
      · -- the latest session itself: both entries are renewed
        rw [hk₀, Option.map_some] at hk
        cases hk
        obtain rfl : info = info₁ := hfresh.eq hi hi₁ (hown.trans he.symm)
        obtain ⟨t', hindex, ht⟩ := h.paired uid c info hlatest info t₀ (he ▸ hk₀)
        have hentry : (a.timed.index c).live a.now uid = some info.accessKey :=
          Timed.live_eq_some.mpr ⟨t', hindex, hnow.trans ht⟩
        refine ⟨_, ?_, le_refl _⟩
        rw [if_pos htype, Timed.renew_apply, huid, hentry, hindex, if_pos ⟨rfl, rfl⟩, Option.map_some]
      · -- the latest session ends when it did, within the time sessions last
        obtain ⟨t', hindex, ht⟩ := h.paired uid c info₁ hlatest info' t hk
        obtain ⟨-, -, hbound⟩ := h.known _ _ _ hk
        split_ifs with htc
        · -- an older session of the uid may renew the entry of the latest
          rw [Timed.renew_apply]
          split_ifs
          · rw [show info.uid = uid by tauto, hindex]
            exact ⟨_, rfl, hbound⟩
          · exact ⟨t', hindex, ht⟩
        · exact ⟨t', hindex, ht⟩

theorem Paired.remove {a : TimedRun} (h : Paired a) (k : String) :
    Paired ⟨a.timed.remove k, a.now, a.issued⟩ := by
  constructor
  case known =>
    intro k' info t hk
    rw [TimedSessions.sessions_remove] at hk
    split_ifs at hk
    exact h.known k' info t hk
  case paired =>
    intro uid c info hlatest info' t hk
    rw [TimedSessions.sessions_remove] at hk
    split_ifs at hk
    exact h.paired uid c info hlatest info' t hk

theorem paired_step {a : TimedRun} (h : Paired a) (call : Nat × SessionCall)
    (hfresh : FreshKeys (a.step call).issued) : Paired (a.step call) := by
  obtain ⟨elapsed, call⟩ := call
  have hlater := h.elapse elapsed
  cases call with
  | setSession info =>
    simp only [step] at hfresh ⊢
    cases hc : Component.fromU8 info.componentType with
    | none => exact hlater
    | some c =>
      simp only [hc] at hfresh
      exact hlater.set (Component.toU8_of_fromU8 hc) hfresh
  | getSession k => exact hlater.renew hfresh k
  | removeSession k => exact hlater.remove k
  | sweep => exact hlater

theorem issued_suffix (a : TimedRun) (call : Nat × SessionCall) :
    a.issued <:+ (a.step call).issued := by
  obtain ⟨elapsed, call⟩ := call
  cases call with
  | setSession info =>
    simp only [step]
    split
    · exact List.suffix_refl _
    · exact List.suffix_cons _ _
  | _ => exact List.suffix_refl _

theorem paired_run (calls : List (Nat × SessionCall)) (hfresh : FreshKeys (run calls).issued) :
    Paired (run calls) := by
  induction calls using List.reverseRecOn with
  | nil => exact ⟨fun _ _ _ h => (nomatch h), fun _ _ _ h => (nomatch h)⟩
  | append_singleton calls call ih =>
    rw [run, List.foldl_concat] at hfresh ⊢
    -- keys that are distinct at the end were distinct all along
    have hold : FreshKeys (run calls).issued :=
      ((issued_suffix (run calls) call).map SessionInfo.accessKey).sublist.nodup hfresh
    exact paired_step (ih hold) call hfresh

end TimedRun

namespace RedisSessionRun
open RedisRepository

/-- As long as the latest session set for a uid and a type is there, so is the index entry with its
key, to the same instant or a later one, and a client is found by it. -/
theorem latest_discoverable {Text : Type} (keys : SerdeJson Text String)
    (infos : SerdeJson Text SessionInfo) (calls : List (Nat × SessionCall))
    (hfresh : FreshKeys (run keys infos calls).issued) {uid : String} {c : Component}
    {info : SessionInfo} (hlatest : latestOf (run keys infos calls).issued uid c = some info)
    {e : Entry Text} (hlive : (run keys infos calls).store.live (run keys infos calls).now
      (getSessionKey info.accessKey) = some e) :
    (∃ e' t t', (run keys infos calls).store.live (run keys infos calls).now
        (getMemberSessionKey c uid) = some e' ∧
      e'.value = .string (keys.toString info.accessKey) ∧
      e.expiresAt = some t ∧ e'.expiresAt = some t' ∧ t ≤ t') ∧
    (c = .client → RedisRepository.getClient keys infos (run keys infos calls).now uid
      (run keys infos calls).store = some (some info)) := by
  have href : Refines keys infos (run keys infos calls) (TimedRun.run calls) := run_refines calls
  rw [href.issued] at hfresh hlatest
  have hpaired := TimedRun.paired_run calls hfresh
  rw [href.store.sessions.live, href.now] at hlive
  obtain ⟨⟨info', t⟩, hentry, rfl⟩ := Option.map_eq_some_iff.mp hlive
  obtain ⟨hk, hnow⟩ := Option.filter_eq_some_iff.mp hentry
  replace hnow : (TimedRun.run calls).now ≤ t := of_decide_eq_true hnow
  obtain ⟨t', hindex, ht⟩ := hpaired.paired uid c info hlatest info' t hk
  -- the entry ends no earlier than the session, so that it is there too
  have hlisted : ((TimedRun.run calls).timed.index c).live (TimedRun.run calls).now uid =
      some info.accessKey := Timed.live_eq_some.mpr ⟨t', hindex, hnow.trans ht⟩
  refine ⟨⟨Store.entry keys.toString (info.accessKey, t'), t, t', ?_, rfl, rfl, rfl, ht⟩, ?_⟩
  · have hstays : (TimedRun.run calls).now ≤ t' := hnow.trans ht
    rw [(href.store.index c).live, href.now, hindex]
    simp [hstays]
  · rintro rfl
    obtain ⟨hi', hown, -⟩ := hpaired.known _ _ _ hk
    obtain ⟨hi, -, -⟩ := latestOf_eq_some hlatest
    -- what is stored under a fresh key is what it was issued for
    obtain rfl : info' = info := hfresh.eq hi' hi hown
    have hsession : (TimedRun.run calls).timed.sessions.live (TimedRun.run calls).now
        info'.accessKey = some info' := Timed.live_eq_some.mpr ⟨t, hk, hnow⟩
    rw [getClient_eq href.store, href.now, hlisted, Option.map_some, hsession]

def bobSession (accessKey : String) : SessionInfo :=
  SessionManager.sessionInfo accessKey "bob" .client ⟨"10.0.0.1", 40000⟩
    ⟨"10.0.0.1", 50051, "bob", [1]⟩

theorem latest_discoverable_sample :
    let r := run plainKeys plainInfos [(0, .setSession (bobSession "k1")),
      (5000, .setSession (bobSession "k2")), (4000, .getSession "k1"), (5000, .getSession "k2")]
    RedisRepository.getClient plainKeys plainInfos r.now "bob" r.store =
      some (some (bobSession "k2")) := by
  intro r
  have hlatest : latestOf r.issued "bob" .client = some (bobSession "k2") := rfl
  have hlive : r.store.live r.now (RedisRepository.getSessionKey "k2") =
      some ⟨.string (.inr (bobSession "k2")), some 24000⟩ := rfl
  exact (latest_discoverable plainKeys plainInfos _ (by decide) hlatest hlive).2 rfl

end RedisSessionRun
end FuzzyChat
