import FuzzyChat.Controller.RedisLookups

/-! The two session repositories side by side: the same operations on both, and when their answers
are the same. -/

namespace FuzzyChat
open Interleave Redis

/-- The operations of the repository; `count` is `count_proxies`, `count_clients` or
`count_controllers`. -/
inductive SessionOp where
  | setSession (info : SessionInfo)
  | getSession (accessKey : String)
  | removeSession (accessKey : String)
  | getProxies (accessKey : String)
  | getClient (uid : String)
  | count (c : Component)

inductive SessionAnswer where
  | panic
  | done
  | session (found : Option SessionInfo)
  | proxies (found : Option (List SessionInfo))
  | count (n : Nat)

/-- The same answer, lists of proxies compared as sets. -/
def SessionAnswer.Agree : SessionAnswer → SessionAnswer → Prop
  | .proxies (some l), .proxies (some l') => ∀ info, info ∈ l ↔ info ∈ l'
  | answer, answer' => answer = answer'

namespace SessionOp

def inMemory (now : Nat) (s : SessionStore) : SessionOp → SessionAnswer × SessionStore
  | setSession info =>
    match s.setSession now info with
    | some s => (.done, s)
    | none => (.panic, s)
  | getSession k => (.session (s.getSession now k).1, (s.getSession now k).2)
  | removeSession k => (.done, s.removeSession k)
  | getProxies k => (.proxies (s.getProxies k), s)
  | getClient uid => (.session (s.getClient uid), s)
  | count c => (.count (s.count c), s)

variable {Text : Type} (keys : SerdeJson Text String) (infos : SerdeJson Text SessionInfo)

def inRedis (now : Nat) (s : Redis.Store Text) : SessionOp → SessionAnswer × Redis.Store Text
  | setSession info =>
    match RedisRepository.setSession keys infos now info s with
    | (some (), s) => (.done, s)
    | (none, s) => (.panic, s)
  | getSession k =>
    match RedisRepository.getSession infos now k s with
    | (some found, s) => (.session found, s)
    | (none, s) => (.panic, s)
  | removeSession k =>
    match RedisRepository.removeSession k s with
    | (some (), s) => (.done, s)
    | (none, s) => (.panic, s)
  | getProxies k => ((RedisRepository.getProxies keys infos now k s).elim .panic .proxies, s)
  | getClient uid => ((RedisRepository.getClient keys infos now uid s).elim .panic .session, s)
  | count c => (.count (RedisRepository.count now c s), s)

variable {keys infos}

theorem inRedis_setSession (now : Nat) (s : Redis.Store Text) (info : SessionInfo) :
    ((setSession info).inRedis keys infos now s).2 =
      (RedisRepository.setSession keys infos now info s).2 := by
  rw [inRedis]
  split <;> simp only [*]

theorem inRedis_getSession (now : Nat) (s : Redis.Store Text) (k : String) :
    ((getSession k).inRedis keys infos now s).2 =
      (RedisRepository.getSession infos now k s).2 := by
  rw [inRedis]
  split <;> simp only [*]

end SessionOp

structure SessionPair (Text : Type) where
  memory : SessionStore
  redis : Redis.Store Text
  now : Nat
  issued : List SessionInfo

namespace SessionPair
variable {Text : Type} (keys : SerdeJson Text String) (infos : SerdeJson Text SessionInfo)

def start : SessionPair Text := ⟨SessionStore.empty, ∅, 0, []⟩

/-- One operation on both, some time after the last one, within the time sessions live. -/
def step (p : SessionPair Text) (call : Nat × SessionOp) : Option (SessionPair Text) :=
  let now := p.now + call.1
  if now ≤ SESSIONS_EXPIRATION_TIME then
    some
      { memory := (call.2.inMemory now p.memory).2
        redis := (call.2.inRedis keys infos now p.redis).2
        now := now
        issued := match call.2 with
          | .setSession info =>
            if (Component.fromU8 info.componentType).isSome then info :: p.issued else p.issued
          | _ => p.issued }
  else none

def Agree (p : SessionPair Text) (call : Nat × SessionOp) : Prop :=
  p.now + call.1 ≤ SESSIONS_EXPIRATION_TIME →
    ((call.2.inMemory (p.now + call.1) p.memory).1).Agree
      (call.2.inRedis keys infos (p.now + call.1) p.redis).1

/-- The call asks for what a logout has left in one index and taken from the other, or for a client
that has never been. -/
def Diverges (p : SessionPair Text) (call : Nat × SessionOp) : Prop :=
  p.now + call.1 ≤ SESSIONS_EXPIRATION_TIME ∧ match call.2 with
  | .getClient uid => p.memory.clients.lookup uid = none ∧
      ∀ info, latestOf p.issued uid .client = some info →
        p.memory.sessions.lookup info.accessKey ≠ none
  | .getProxies _ => ∃ uid info, latestOf p.issued uid .proxy = some info ∧
      p.memory.sessions.lookup info.accessKey = none
  | .count .client => ∃ uid info, latestOf p.issued uid .client = some info ∧
      p.memory.clients.lookup uid = none
  | _ => False

variable {keys infos}

/-- The database holds the sessions the memory has, none of which ends in time, and an index of the
latest; the memory's index is that one, but for the clients it may lack. -/
structure Synced (keys : SerdeJson Text String) (infos : SerdeJson Text SessionInfo)
    (p : SessionPair Text) (a : TimedSessions) : Prop where
  redis : RedisRepository.Represents keys infos p.redis a
  typed : a.Typed
  sessions : ∀ k, (a.sessions k).map Prod.fst = p.memory.sessionOf k
  lasting : ∀ k info t, a.sessions k = some (info, t) → SESSIONS_EXPIRATION_TIME ≤ t
  indexed : ∀ c uid, (a.index c uid).map Prod.fst =
    (latestOf p.issued uid c).map SessionInfo.accessKey
  kept : ∀ c uid k t, a.index c uid = some (k, t) → SESSIONS_EXPIRATION_TIME ≤ t
  listed : ∀ c uid k, (p.memory.index c).lookup uid = some k →
    (latestOf p.issued uid c).map SessionInfo.accessKey = some k
  complete : ∀ c uid, c ≠ .client → (latestOf p.issued uid c).isSome →
    ((p.memory.index c).lookup uid).isSome

section synced
variable {p : SessionPair Text} {a : TimedSessions} {now : Nat}

theorem Synced.live_session (h : Synced keys infos p a) (hnow : now ≤ SESSIONS_EXPIRATION_TIME)
    (k : String) : a.sessions.live now k = p.memory.sessionOf k := by
  rw [Timed.live_of_lasting fun info t hk => hnow.trans (h.lasting k info t hk), h.sessions]

theorem Synced.live_index (h : Synced keys infos p a) (hnow : now ≤ SESSIONS_EXPIRATION_TIME)
    (c : Component) (uid : String) :
    (a.index c).live now uid = (latestOf p.issued uid c).map SessionInfo.accessKey := by
  rw [Timed.live_of_lasting fun k t hk => hnow.trans (h.kept c uid k t hk), h.indexed]

theorem Synced.own (h : Synced keys infos p a) {k : String} {info : SessionInfo}
    (hs : p.memory.sessionOf k = some info) : info.accessKey = k := by
  have hk := h.sessions k
  rw [hs] at hk
  obtain ⟨⟨info', t⟩, hentry, rfl⟩ := Option.map_eq_some_iff.mp hk
  exact (h.typed k info' t hentry).1

theorem mem_memberKeys {s : SessionStore} {c : Component} {uid : String} :
    RedisRepository.getMemberSessionKey c uid ∈
        (s.index c).keys.map (RedisRepository.getMemberSessionKey c) ↔
      (s.index c).lookup uid ≠ none := by
  rw [List.mem_map_of_injective (RedisRepository.getMemberSessionKey_injective c), ← AList.mem_keys,
    ← AList.lookup_isSome, Option.isSome_iff_ne_none]

theorem Synced.memberKeys_subset_scan (h : Synced keys infos p a)
    (hnow : now ≤ SESSIONS_EXPIRATION_TIME) (c : Component) :
    (p.memory.index c).keys.map (RedisRepository.getMemberSessionKey c) ⊆
      p.redis.scan now (RedisRepository.getMemberSessionKey c "") := by
  intro key hkey
  obtain ⟨uid, -, rfl⟩ := List.mem_map.mp hkey
  obtain ⟨k, hk⟩ := Option.ne_none_iff_exists'.mp (mem_memberKeys.mp hkey)
  apply (RedisRepository.mem_scan_member h.redis).mpr
  have hlive : (a.index c).live now uid = some k := by
    rw [h.live_index hnow, h.listed c uid k hk]
  exact ⟨uid, k, hlive, rfl⟩

theorem Synced.scan_subset_memberKeys_iff (h : Synced keys infos p a)
    (hnow : now ≤ SESSIONS_EXPIRATION_TIME) (c : Component) :
    p.redis.scan now (RedisRepository.getMemberSessionKey c "") ⊆
        (p.memory.index c).keys.map (RedisRepository.getMemberSessionKey c) ↔
      ∀ uid info, latestOf p.issued uid c = some info → (p.memory.index c).lookup uid ≠ none := by
  constructor
  · intro hsub uid info hlatest
    have hlive : (a.index c).live now uid = some info.accessKey := by
      rw [h.live_index hnow, hlatest, Option.map_some]
    have hscan := (RedisRepository.mem_scan_member h.redis).mpr ⟨uid, info.accessKey, hlive, rfl⟩
    exact mem_memberKeys.mp (hsub hscan)
  · intro hall key hkey
    obtain ⟨uid, k, hk, rfl⟩ := (RedisRepository.mem_scan_member h.redis).mp hkey
    rw [h.live_index hnow] at hk
    obtain ⟨info, hlatest, -⟩ := Option.map_eq_some_iff.mp hk
    exact mem_memberKeys.mpr (hall uid info hlatest)

theorem Synced.count_eq_iff (h : Synced keys infos p a) (hnow : now ≤ SESSIONS_EXPIRATION_TIME)
    (c : Component) :
    p.memory.count c = RedisRepository.count now c p.redis ↔
      ∀ uid info, latestOf p.issued uid c = some info → (p.memory.index c).lookup uid ≠ none := by
  have hnodup : ((p.memory.index c).keys.map (RedisRepository.getMemberSessionKey c)).Nodup :=
    (p.memory.index c).keys_nodup.map (RedisRepository.getMemberSessionKey_injective c)
  have hlength : p.memory.count c =
      ((p.memory.index c).keys.map (RedisRepository.getMemberSessionKey c)).length := by
    rw [List.length_map]
    exact (List.length_map _).symm
  -- no key comes twice on either side, and those of the memory are all scanned
  have hsubperm := List.subperm_of_subset hnodup (h.memberKeys_subset_scan hnow c)
  rw [hlength, RedisRepository.count, ← h.scan_subset_memberKeys_iff hnow]
  constructor
  · intro heq
    exact (hsubperm.perm_of_length_le heq.ge).symm.subset
  · intro hsub
    have hperm := hsubperm.antisymm (List.subperm_of_subset (Store.nodup_scan _) hsub)
    exact hperm.length_eq

theorem SessionAnswer.agree_proxies {found found' : Option (List SessionInfo)} (h : found ≠ some [])
    (h' : found' ≠ some []) :
    (SessionAnswer.proxies found).Agree (.proxies found') ↔
      ∀ info, info ∈ found.getD [] ↔ info ∈ found'.getD [] := by
  cases found with
  | none =>
    cases found' with
    | none => exact ⟨fun _ _ => Iff.rfl, fun _ => rfl⟩
    | some l' =>
      refine ⟨fun ha => (nomatch ha), fun hall => absurd ?_ h'⟩
      have hnil : l' = [] :=
        List.eq_nil_iff_forall_not_mem.mpr fun info hm => nomatch (hall info).mpr hm
      rw [hnil]
  | some l =>
    cases found' with
    | none =>
      refine ⟨fun ha => (nomatch ha), fun hall => absurd ?_ h⟩
      have hnil : l = [] :=
        List.eq_nil_iff_forall_not_mem.mpr fun info hm => nomatch (hall info).mp hm
      rw [hnil]
    | some l' => exact Iff.rfl

theorem SessionAnswer.not_agree_panic (found : Option (List SessionInfo)) :
    ¬ (SessionAnswer.proxies found).Agree .panic := by
  intro ha
  cases found <;> nomatch ha

theorem mem_getProxies_getD {s : SessionStore} {k : String} {info : SessionInfo} :
    info ∈ (s.getProxies k).getD [] ↔
      ∃ uid k', s.proxies.lookup uid = some k' ∧ k' ≠ k ∧ s.sessionOf k' = some info := by
  cases hp : s.getProxies k with
  | none =>
    refine ⟨fun hm => (nomatch hm), ?_⟩
    rintro ⟨uid, k', hk', hne, hs⟩
    rw [SessionStore.getProxies_none hp uid k' hk' hne] at hs
    nomatch hs
  | some result => exact SessionStore.mem_getProxies hp

theorem Synced.agree_getProxies (h : Synced keys infos p a) (hnow : now ≤ SESSIONS_EXPIRATION_TIME)
    (k : String) :
    ((SessionOp.getProxies k).inMemory now p.memory).1.Agree
        ((SessionOp.getProxies k).inRedis keys infos now p.redis).1 ↔
      ∀ uid info, latestOf p.issued uid .proxy = some info →
        p.memory.sessionOf info.accessKey ≠ none := by
  have hpanics := RedisRepository.getProxies_eq_none h.redis now k
  simp only [h.live_index hnow, h.live_session hnow] at hpanics
  change (SessionAnswer.proxies _).Agree
    ((RedisRepository.getProxies keys infos now k p.redis).elim .panic .proxies) ↔ _
  cases hfound : RedisRepository.getProxies keys infos now k p.redis with
  | none =>
    -- a panic, which the memory never answers with
    obtain ⟨uid, k', hk', hgone⟩ := hpanics.mp hfound
    obtain ⟨info, hlatest, rfl⟩ := Option.map_eq_some_iff.mp hk'
    exact ⟨fun ha => absurd ha (SessionAnswer.not_agree_panic _),
      fun hall => absurd hgone (hall uid info hlatest)⟩
  | some found =>
    have hstored : ∀ uid info, latestOf p.issued uid .proxy = some info →
        p.memory.sessionOf info.accessKey ≠ none := by
      intro uid info hlatest hgone
      have hnone := hpanics.mpr ⟨uid, info.accessKey, by rw [hlatest, Option.map_some], hgone⟩
      rw [hfound] at hnone
      nomatch hnone
    obtain ⟨hne, hmem⟩ := RedisRepository.getProxies_eq_some h.redis hfound
    simp only [h.live_index hnow, h.live_session hnow] at hmem
    refine ⟨fun _ => hstored, fun _ => ?_⟩
    apply (SessionAnswer.agree_proxies _ hne).mpr
    · intro info
      rw [mem_getProxies_getD, hmem]
      constructor
      · rintro ⟨uid, k', hk', hother, hs⟩
        exact ⟨h.own hs ▸ hother, uid, k', h.listed .proxy uid k' hk', hs⟩
      · rintro ⟨hother, uid, k', hk', hs⟩
        obtain ⟨latest, hlatest, rfl⟩ := Option.map_eq_some_iff.mp hk'
        have hsome := h.complete .proxy uid nofun (by rw [hlatest]; rfl)
        obtain ⟨k', hk'⟩ := Option.isSome_iff_exists.mp hsome
        have hkey := h.listed .proxy uid k' hk'
        rw [hlatest, Option.map_some] at hkey
        obtain rfl := Option.some.inj hkey
        exact ⟨uid, latest.accessKey, hk', h.own hs ▸ hother, hs⟩
    · intro hnil
      exact SessionStore.getProxies_ne_nil hnil rfl

theorem Synced.agree_getClient (h : Synced keys infos p a) (hnow : now ≤ SESSIONS_EXPIRATION_TIME)
    (uid : String) :
    ((SessionOp.getClient uid).inMemory now p.memory).1.Agree
        ((SessionOp.getClient uid).inRedis keys infos now p.redis).1 ↔
      ¬ (p.memory.clients.lookup uid = none ∧ ∀ info, latestOf p.issued uid .client = some info →
        p.memory.sessionOf info.accessKey ≠ none) := by
  change (SessionAnswer.session (p.memory.getClient uid)).Agree
    ((RedisRepository.getClient keys infos now uid p.redis).elim .panic .session) ↔ _
  rw [RedisRepository.getClient_eq h.redis, h.live_index hnow, SessionStore.getClient,
    SessionStore.clientKey]
  cases hclient : p.memory.clients.lookup uid with
  | some k =>
    -- what the memory's index names is the latest session, as in Redis
    rw [h.listed .client uid k hclient, Option.map_some, Option.bind_some, h.live_session hnow]
    exact ⟨fun _ hd => (nomatch hd.1), fun _ => rfl⟩
  | none =>
    rw [Option.bind_none]
    cases latestOf p.issued uid .client with
    | none => exact ⟨fun ha => (nomatch ha), fun hd => absurd ⟨rfl, fun _ hl => nomatch hl⟩ hd⟩
    | some info =>
      simp only [Option.map_some, h.live_session hnow, Option.elim_some]
      constructor
      · rintro ha ⟨-, hstored⟩
        exact hstored info rfl (SessionAnswer.session.inj ha).symm
      · intro hd
        have hgone : p.memory.sessionOf info.accessKey = none := by
          by_contra hstored
          refine hd ⟨trivial, fun info' hl => ?_⟩
          cases hl
          exact hstored
        rw [hgone]
        rfl

theorem sessionOf_eq_none {s : SessionStore} {k : String} :
    s.sessionOf k = none ↔ s.sessions.lookup k = none := Option.map_eq_none_iff

theorem Synced.agree_iff (h : Synced keys infos p a) (call : Nat × SessionOp) :
    p.Agree keys infos call ↔ ¬ p.Diverges call := by
  obtain ⟨elapsed, op⟩ := call
  unfold Agree Diverges
  rw [not_and]
  refine imp_congr_right fun hnow => ?_
  cases op with
  | setSession info =>
    simp only [SessionOp.inMemory, SessionOp.inRedis, RedisRepository.setSession,
      SessionStore.setSession, not_false_eq_true, iff_true]
    cases Component.fromU8 info.componentType <;> rfl
  | getSession k =>
    obtain ⟨hfound, -⟩ :=
      RedisRepository.represents_getSession h.redis h.typed (p.now + elapsed) k
    have hlookup : (p.memory.getSession (p.now + elapsed) k).1 = p.memory.sessionOf k := by
      simp only [SessionStore.getSession, SessionStore.sessionOf, ExpirationWrapper.renew_value]
    rw [h.live_session hnow] at hfound
    refine ⟨fun _ hd => hd, fun _ => ?_⟩
    simp only [SessionOp.inMemory, SessionOp.inRedis, hlookup]
    split
    · rename_i found s hget
      rw [hget] at hfound
      cases hfound
      rfl
    · rename_i s hget
      rw [hget] at hfound
      contradiction
  | removeSession k => exact ⟨fun _ hd => hd, fun _ => rfl⟩
  | getProxies k =>
    rw [h.agree_getProxies hnow]
    simp only [ne_eq, sessionOf_eq_none, not_exists, not_and]
  | getClient uid =>
    rw [h.agree_getClient hnow]
    simp only [ne_eq, sessionOf_eq_none]
  | count c =>
    have hcount := h.count_eq_iff hnow c
    have hagree : ((SessionOp.count c).inMemory (p.now + elapsed) p.memory).1.Agree
        ((SessionOp.count c).inRedis keys infos (p.now + elapsed) p.redis).1 ↔
          p.memory.count c = RedisRepository.count (p.now + elapsed) c p.redis :=
      ⟨SessionAnswer.count.inj, congrArg SessionAnswer.count⟩
    rw [hagree, hcount]
    cases c with
    | client =>
      simp only [ne_eq, not_exists, not_and]
      exact Iff.rfl
    | controller | proxy =>
      refine ⟨fun _ hd => hd, fun _ uid info hlatest => ?_⟩
      apply Option.isSome_iff_ne_none.mp
      exact h.complete _ uid (by simp) (by rw [hlatest]; rfl)

/-! What each operation makes of the two repositories. -/

theorem Synced.set (h : Synced keys infos p a) {info : SessionInfo} {c : Component}
    (hc : info.componentType = c.toU8) {redis : Redis.Store Text}
    (hredis : RedisRepository.Represents keys infos redis (a.set now c info)) :
    Synced keys infos ⟨(p.memory.insertIndex c info.uid info.accessKey).insertSession now info,
      redis, now, info :: p.issued⟩ (a.set now c info) := by
  constructor
  case redis => exact hredis
  case typed => exact h.typed.set now hc
  case sessions =>
    intro k
    rw [SessionStore.sessionOf, SessionStore.sessions_insertSession, AList.lookup_insert_eq_ite,
      SessionStore.sessions_insertIndex, TimedSessions.sessions_set]
    split_ifs
    · rfl
    · exact h.sessions k
  case lasting =>
    intro k info' t hk
    rw [TimedSessions.sessions_set] at hk
    split_ifs at hk
    · cases hk
      exact Nat.le_add_left _ _
    · exact h.lasting k info' t hk
  case indexed =>
    intro c' uid
    rw [latestOf_set hc, TimedSessions.index_set]
    split_ifs
    · rfl
    · exact h.indexed c' uid
  case kept =>
    intro c' uid k t hk
    rw [TimedSessions.index_set] at hk
    split_ifs at hk
    · cases hk
      exact Nat.le_add_left _ _
    · exact h.kept c' uid k t hk
  case listed =>
    intro c' uid k hk
    rw [SessionStore.index_insertSession, SessionStore.index_insertIndex] at hk
    rw [latestOf_set hc]
    by_cases hcc : c' = c
    · rw [if_pos hcc] at hk
      rcases AList.lookup_insert_eq_some.mp hk with ⟨rfl, rfl⟩ | ⟨hne, hk⟩
      · rw [if_pos ⟨hcc, rfl⟩]
        rfl
      · rw [if_neg fun he => hne he.2]
        exact h.listed c' uid k hk
    · rw [if_neg hcc] at hk
      rw [if_neg fun he => hcc he.1]
      exact h.listed c' uid k hk
  case complete =>
    intro c' uid hne hsome
    rw [SessionStore.index_insertSession, SessionStore.index_insertIndex]
    rw [latestOf_set hc] at hsome
    by_cases hcc : c' = c
    · rw [if_pos hcc, AList.lookup_insert_eq_ite]
      split_ifs with huid
      · rfl
      · rw [if_neg fun he => huid he.2] at hsome
        exact h.complete c' uid hne hsome
    · rw [if_neg hcc]
      rw [if_neg fun he => hcc he.1] at hsome
      exact h.complete c' uid hne hsome

theorem Synced.get (h : Synced keys infos p a) (k : String) {redis : Redis.Store Text}
    (hredis : RedisRepository.Represents keys infos redis (a.renew now k)) :
    Synced keys infos ⟨(p.memory.getSession now k).2, redis, now, p.issued⟩ (a.renew now k) := by
  have hmemory : ∀ k', (p.memory.getSession now k).2.sessionOf k' = p.memory.sessionOf k' := by
    intro k'
    rw [SessionStore.sessionOf, SessionStore.sessions_getSession, AList.lookup_modify,
      SessionStore.sessionOf]
    split_ifs with hk
    · rw [hk, Option.map_map]
      rfl
    · rfl
  cases hlive : a.sessions.live now k with
  | none =>
    rw [TimedSessions.renew_of_none hlive] at hredis ⊢
    constructor
    case redis => exact hredis
    case typed => exact h.typed
    case sessions => exact fun k' => (h.sessions k').trans (hmemory k').symm
    case lasting => exact h.lasting
    case indexed => exact h.indexed
    case kept => exact h.kept
    case listed =>
      intro c uid k' hk'
      exact h.listed c uid k' (by rwa [SessionStore.index_getSession] at hk')
    case complete =>
      intro c uid hne hsome
      rw [SessionStore.index_getSession]
      exact h.complete c uid hne hsome
  | some info =>
    -- the entries get a later end, and none another value
    obtain ⟨hsessions, hindexes⟩ := TimedSessions.renew_of_live hlive
    have hlater : SESSIONS_EXPIRATION_TIME ≤ now + SESSIONS_EXPIRATION_TIME := Nat.le_add_left _ _
    have hfst : ∀ {α : Type} (x : Option (α × Nat)) (t : Nat),
        (x.map fun y => (y.1, t)).map Prod.fst = x.map Prod.fst := fun x t => by cases x <;> rfl
    constructor
    case redis => exact hredis
    case typed => exact h.typed.renew now k
    case sessions =>
      intro k'
      rw [hsessions, Timed.renew_apply, hmemory, ← h.sessions]
      split_ifs with hk
      · rw [hfst, hk.1]
      · rfl
    case lasting =>
      intro k' info' t hk'
      rw [hsessions, Timed.renew_apply] at hk'
      split_ifs at hk'
      · obtain ⟨x, -, he⟩ := Option.map_eq_some_iff.mp hk'
        cases he
        exact hlater
      · exact h.lasting k' info' t hk'
    case indexed =>
      intro c uid
      rw [hindexes, ← h.indexed]
      split_ifs
      · rw [Timed.renew_apply]
        split_ifs with huid
        · rw [hfst, huid.1]
        · rfl
      · rfl
    case kept =>
      intro c uid k' t hk'
      rw [hindexes] at hk'
      split_ifs at hk'
      · rw [Timed.renew_apply] at hk'
        split_ifs at hk'
        · obtain ⟨x, -, he⟩ := Option.map_eq_some_iff.mp hk'
          cases he
          exact hlater
        · exact h.kept c uid k' t hk'
      · exact h.kept c uid k' t hk'
    case listed =>
      intro c uid k' hk'
      exact h.listed c uid k' (by rwa [SessionStore.index_getSession] at hk')
    case complete =>
      intro c uid hne hsome
      rw [SessionStore.index_getSession]
      exact h.complete c uid hne hsome

theorem Synced.remove (h : Synced keys infos p a) (k : String) {redis : Redis.Store Text}
    (hredis : RedisRepository.Represents keys infos redis (a.remove k)) :
    Synced keys infos ⟨p.memory.removeSession k, redis, now, p.issued⟩ (a.remove k) := by
  constructor
  case redis => exact hredis
  case typed => exact h.typed.remove k
  case sessions =>
    intro k'
    ext info
    simp only [TimedSessions.sessions_remove, SessionStore.sessionOf,
      Option.map_eq_some_iff, SessionRun.lookup_removeSession]
    have hk := congrArg (· = some info) (h.sessions k')
    simp only [SessionStore.sessionOf, Option.map_eq_some_iff, eq_iff_iff] at hk
    by_cases he : k' = k
    · simp [he]
    · rw [if_neg he, hk]
      simp [he]
  case lasting =>
    intro k' info t hk'
    rw [TimedSessions.sessions_remove] at hk'
    split_ifs at hk'
    exact h.lasting k' info t hk'
  case indexed => exact h.indexed
  case kept => exact h.kept
  case listed =>
    intro c uid k' hk'
    exact h.listed c uid k' (SessionRun.index_removeSession.mp hk').1
  case complete =>
    -- in memory a logout takes out entries of the clients index only
    intro c uid hne hsome
    obtain ⟨k', hk'⟩ := Option.isSome_iff_exists.mp (h.complete c uid hne hsome)
    have hstays := SessionRun.index_removeSession (k := k).mpr ⟨hk', fun _ _ hc => absurd hc hne⟩
    rw [hstays]
    rfl

end synced

theorem step_synced {p p' : SessionPair Text} (h : ∃ a, Synced keys infos p a)
    {call : Nat × SessionOp} (hp : p.step keys infos call = some p') :
    ∃ a, Synced keys infos p' a := by
  obtain ⟨a, h⟩ := h
  obtain ⟨elapsed, op⟩ := call
  obtain ⟨-, hp⟩ := Option.ite_none_right_eq_some.mp hp
  cases hp
  cases op with
  | setSession info =>
    simp only [SessionOp.inMemory, SessionOp.inRedis_setSession, SessionStore.setSession]
    cases hc : Component.fromU8 info.componentType with
    | none =>
      simp only [RedisRepository.setSession, hc]
      exact ⟨a, h.redis, h.typed, h.sessions, h.lasting, h.indexed, h.kept, h.listed, h.complete⟩
    | some c =>
      have htype := Component.toU8_of_fromU8 hc
      obtain ⟨-, hredis⟩ := RedisRepository.represents_setSession h.redis
        (p.now + elapsed) htype
      exact ⟨a.set (p.now + elapsed) c info, h.set htype hredis⟩
  | getSession k =>
    obtain ⟨-, hredis⟩ :=
      RedisRepository.represents_getSession h.redis h.typed (p.now + elapsed) k
    refine ⟨a.renew (p.now + elapsed) k, ?_⟩
    simp only [SessionOp.inMemory, SessionOp.inRedis_getSession]
    exact h.get k hredis
  | removeSession k =>
    exact ⟨a.remove k, h.remove k (RedisRepository.represents_removeSession h.redis k)⟩
  | _ => exact ⟨a, h.redis, h.typed, h.sessions, h.lasting, h.indexed, h.kept, h.listed, h.complete⟩

theorem synced_start : Synced keys infos start TimedSessions.empty where
  redis := RedisRepository.represents_empty
  typed := TimedSessions.typed_empty
  sessions _ := rfl
  lasting _ _ _ h := nomatch h
  indexed _ _ := rfl
  kept _ _ _ _ h := nomatch h
  listed c uid k h := by cases c <;> nomatch h
  complete _ _ _ h := nomatch h

/-- Within the time sessions live, the two repositories answer a sequence of operations alike exactly
when none of them diverges. -/
theorem interchangeable_iff {Text : Type} (keys : SerdeJson Text String)
    (infos : SerdeJson Text SessionInfo) (calls : List (Nat × SessionOp)) :
    Each (step keys infos) (Agree keys infos) start calls ↔
      Each (step keys infos) (fun p call => ¬ p.Diverges call) start calls :=
  each_congr (I := fun p => ∃ a, Synced keys infos p a) (fun _ _ _ hs _ hp => step_synced hs hp)
    (fun _ call ⟨_, hs⟩ => hs.agree_iff call) ⟨_, synced_start⟩

/-- Bob signs in twice and signs out of the first session: in memory he is found no more. -/
theorem not_interchangeable : ¬ ∀ calls : List (Nat × SessionOp),
    Each (step RedisSessionRun.plainKeys RedisSessionRun.plainInfos)
      (Agree RedisSessionRun.plainKeys RedisSessionRun.plainInfos) start calls := by
  intro hall
  have h := hall [(0, .setSession (RedisSessionRun.bobSession "k1")),
    (0, .setSession (RedisSessionRun.bobSession "k2")), (0, .removeSession "k1"),
    (0, .getClient "bob")]
  have hlast := (((h.2 _ rfl).2 _ rfl).2 _ rfl).1 (by decide)
  nomatch hlast

end SessionPair
end FuzzyChat
