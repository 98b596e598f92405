import FuzzyChat.Controller.SessionRepository
import FuzzyChat.Controller.RedisRoutes
import FuzzyChat.Redis.Timed

/-! The sessions in Redis: the repository, and the timed maps it amounts to. As for the routes,
`none` is the panic of an unwrap. -/

namespace FuzzyChat

namespace RedisRepository
variable {Text : Type} (keys : SerdeJson Text String) (infos : SerdeJson Text SessionInfo)

def CONTROLLER_SESSION_KEY : String := "ctrl_ss"
def CLIENT_SESSION_KEY : String := "c_ss"
def PROXY_SESSION_KEY : String := "p_ss"
def SESSIONS_KEY : String := "ss"

def EXPIRY_TIME : Nat := SESSIONS_EXPIRATION_TIME / 1000

def getSessionKey (key : String) : String := SESSIONS_KEY ++ ":" ++ key

def getMemberSessionKey (componentType : Component) (uid : String) : String :=
  let key := match componentType with
    | .controller => CONTROLLER_SESSION_KEY
    | .client => CLIENT_SESSION_KEY
    | .proxy => PROXY_SESSION_KEY
  key ++ ":" ++ uid

/-- The access key is written as it is, the session as a text. -/
def setSession (now : Nat) (info : SessionInfo) (s : Redis.Store Text) :
    Option Unit × Redis.Store Text :=
  match Component.fromU8 info.componentType with
  | none => (none, s)
  | some componentType =>
    let s := s.setEx now (getMemberSessionKey componentType info.uid)
      (keys.toString info.accessKey) EXPIRY_TIME
    (some (), s.setEx now (getSessionKey info.accessKey) (infos.toString info) EXPIRY_TIME)

def getSession (now : Nat) (accessKey : String) (s : Redis.Store Text) :
    Option (Option SessionInfo) × Redis.Store Text :=
  let (value, s) := s.getEx now (getSessionKey accessKey) EXPIRY_TIME
  match fromRedisValue infos value with
  | none => (none, s)
  | some none => (some none, s)
  | some (some info) =>
    match Component.fromU8 info.componentType with
    | none => (none, s)
    | some componentType =>
      (some (some info), s.expire now (getMemberSessionKey componentType info.uid) EXPIRY_TIME)

/-- The index entry of the session stays. -/
def removeSession (accessKey : String) (s : Redis.Store Text) : Option Unit × Redis.Store Text :=
  (some (), s.del (getSessionKey accessKey))

/-- What the loop of `get_proxies` fetches for one key of the index, with two unwraps. -/
def listedSession (now : Nat) (key : String) (s : Redis.Store Text) : Option SessionInfo := do
  let key ← (fromRedisValue keys (s.get now key)).join
  (fromRedisValue infos (s.get now (getSessionKey key))).join

def getProxies (now : Nat) (accessKey : String) (s : Redis.Store Text) :
    Option (Option (List SessionInfo)) :=
  let all := s.scan now (getMemberSessionKey .proxy "")
  if all.isEmpty then some none
  else (all.mapM fun key => listedSession keys infos now key s).map fun sessions =>
    let proxies := sessions.filter fun session => session.accessKey ≠ accessKey
    if proxies.isEmpty then none else some proxies

/-- The key is unwrapped, the session is not. -/
def getClient (now : Nat) (uid : String) (s : Redis.Store Text) : Option (Option SessionInfo) :=
  match (fromRedisValue keys (s.get now (getMemberSessionKey .client uid))).join with
  | none => none
  | some accessKey => fromRedisValue infos (s.get now (getSessionKey accessKey))

def count (now : Nat) (c : Component) (s : Redis.Store Text) : Nat :=
  (s.scan now (getMemberSessionKey c "")).length

theorem getSessionKey_injective : Function.Injective getSessionKey := fun _ _ h =>
  (String.append_right_inj _).mp h

theorem getMemberSessionKey_injective (c : Component) :
    Function.Injective (getMemberSessionKey c) := fun _ _ h => (String.append_right_inj _).mp h

theorem getMemberSessionKey_ne {c c' : Component} (hc : c ≠ c') (uid uid' : String) :
    getMemberSessionKey c uid ≠ getMemberSessionKey c' uid' := by
  intro h
  have hl := congrArg String.toList h
  cases c <;> cases c' <;> first
    | exact hc rfl
    | simp [getMemberSessionKey, CONTROLLER_SESSION_KEY, CLIENT_SESSION_KEY, PROXY_SESSION_KEY] at hl

theorem getSessionKey_ne (key : String) (c : Component) (uid : String) :
    getSessionKey key ≠ getMemberSessionKey c uid := by
  intro h
  have hl := congrArg String.toList h
  cases c <;> simp [getSessionKey, SESSIONS_KEY, getMemberSessionKey, CONTROLLER_SESSION_KEY,
    CLIENT_SESSION_KEY, PROXY_SESSION_KEY] at hl

end RedisRepository

/-! The sessions and the index as maps of their own. -/

structure TimedSessions where
  sessions : Redis.Timed String SessionInfo
  index : Component → Redis.Timed String String

namespace TimedSessions

def empty : TimedSessions := ⟨Redis.Timed.empty, fun _ => Redis.Timed.empty⟩

def set (now : Nat) (c : Component) (info : SessionInfo) (a : TimedSessions) : TimedSessions where
  sessions := a.sessions.put info.accessKey info (now + SESSIONS_EXPIRATION_TIME)
  index := fun c' =>
    if c' = c then (a.index c').put info.uid info.accessKey (now + SESSIONS_EXPIRATION_TIME)
    else a.index c'

/-- The lookup renews what it finds, and the index entry of its uid, whatever key that holds. -/
def renew (now : Nat) (k : String) (a : TimedSessions) : TimedSessions :=
  match a.sessions.live now k with
  | none => a
  | some info =>
    { sessions := a.sessions.renew now k (now + SESSIONS_EXPIRATION_TIME)
      index := fun c =>
        if info.componentType = c.toU8 then
          (a.index c).renew now info.uid (now + SESSIONS_EXPIRATION_TIME)
        else a.index c }

def remove (k : String) (a : TimedSessions) : TimedSessions :=
  { a with sessions := a.sessions.drop k }

@[simp] theorem sessions_set (a : TimedSessions) (now : Nat) (c : Component) (info : SessionInfo)
    (k : String) :
    (a.set now c info).sessions k =
      if k = info.accessKey then some (info, now + SESSIONS_EXPIRATION_TIME) else a.sessions k :=
  Redis.Timed.put_apply

@[simp] theorem index_set (a : TimedSessions) (now : Nat) (c c' : Component) (info : SessionInfo)
    (uid : String) :
    (a.set now c info).index c' uid =
      if c' = c ∧ uid = info.uid then some (info.accessKey, now + SESSIONS_EXPIRATION_TIME)
      else a.index c' uid := by
  unfold set
  by_cases hc : c' = c
  · simp only [hc, true_and]
    exact Redis.Timed.put_apply
  · simp only [hc, false_and, if_false]

@[simp] theorem sessions_remove (a : TimedSessions) (k k' : String) :
    (a.remove k).sessions k' = if k' = k then none else a.sessions k' := Redis.Timed.drop_apply

theorem renew_of_none {a : TimedSessions} {now : Nat} {k : String}
    (h : a.sessions.live now k = none) : a.renew now k = a := by
  rw [renew, h]

theorem renew_of_live {a : TimedSessions} {now : Nat} {k : String} {info : SessionInfo}
    (h : a.sessions.live now k = some info) :
    (a.renew now k).sessions = a.sessions.renew now k (now + SESSIONS_EXPIRATION_TIME) ∧
      ∀ c, (a.renew now k).index c =
        if info.componentType = c.toU8 then
          (a.index c).renew now info.uid (now + SESSIONS_EXPIRATION_TIME)
        else a.index c := by
  rw [renew, h]
  exact ⟨rfl, fun _ => rfl⟩

def Typed (a : TimedSessions) : Prop :=
  ∀ k info t, a.sessions k = some (info, t) → info.accessKey = k ∧
    ∃ c : Component, info.componentType = c.toU8

theorem typed_empty : empty.Typed := fun _ _ _ h => nomatch h

theorem Typed.set {a : TimedSessions} (ha : a.Typed) (now : Nat) {c : Component}
    {info : SessionInfo} (hc : info.componentType = c.toU8) : (a.set now c info).Typed := by
  intro k info' t h
  rw [sessions_set] at h
  split_ifs at h with hk
  · cases h
    exact ⟨hk.symm, c, hc⟩
  · exact ha k info' t h

theorem Typed.renew {a : TimedSessions} (ha : a.Typed) (now : Nat) (k : String) :
    (a.renew now k).Typed := by
  unfold TimedSessions.renew
  split
  · exact ha
  · intro k' info' t h
    simp only [Redis.Timed.renew_apply] at h
    split_ifs at h with hk
    · obtain ⟨⟨info₀, t₀⟩, h₀, he⟩ := Option.map_eq_some_iff.mp h
      cases he
      exact hk.1 ▸ ha k info₀ t₀ h₀
    · exact ha k' info' t h

theorem Typed.remove {a : TimedSessions} (ha : a.Typed) (k : String) : (a.remove k).Typed := by
  intro k' info t h
  rw [sessions_remove] at h
  split_ifs at h
  exact ha k' info t h

end TimedSessions

namespace RedisRepository
open Redis
variable {Text : Type} {keys : SerdeJson Text String} {infos : SerdeJson Text SessionInfo}

structure Represents (keys : SerdeJson Text String) (infos : SerdeJson Text SessionInfo)
    (s : Redis.Store Text) (a : TimedSessions) : Prop where
  sessions : Store.Holds getSessionKey infos.toString s a.sessions
  index : ∀ c, Store.Holds (getMemberSessionKey c) keys.toString s (a.index c)

variable {s : Redis.Store Text} {a : TimedSessions} {now : Nat}

theorem represents_empty : Represents keys infos ∅ TimedSessions.empty :=
  ⟨fun _ => rfl, fun _ _ => rfl⟩

theorem represents_setSession (h : Represents keys infos s a) (now : Nat) {c : Component}
    {info : SessionInfo} (hc : info.componentType = c.toU8) :
    (setSession keys infos now info s).1 = some () ∧
      Represents keys infos (setSession keys infos now info s).2 (a.set now c info) := by
  simp only [setSession, hc, Component.fromU8_toU8, true_and]
  refine ⟨?_, fun c' => ?_⟩
  · apply Store.Holds.setEx _ getSessionKey_injective
    exact h.sessions.setEx_ne now _ (fun k => getSessionKey_ne k c info.uid) _
  · apply Store.Holds.setEx_ne _ now _ (fun k => Ne.symm (getSessionKey_ne info.accessKey c' k))
    simp only [TimedSessions.set]
    split_ifs with hcc
    · subst hcc
      exact (h.index c').setEx (getMemberSessionKey_injective c')
    · exact (h.index c').setEx_ne now _ (fun k => getMemberSessionKey_ne hcc k info.uid) _

theorem represents_removeSession (h : Represents keys infos s a) (k : String) :
    Represents keys infos (removeSession k s).2 (a.remove k) :=
  ⟨h.sessions.del getSessionKey_injective,
    fun c => (h.index c).del_ne fun uid => Ne.symm (getSessionKey_ne k c uid)⟩

theorem fromRedisValue_map {α : Type} (json : SerdeJson Text α) (x : Option α) :
    fromRedisValue json (some (x.map json.toString)) = some x := by
  cases x with
  | none => rfl
  | some v => exact congrArg (Option.map some) (json.fromStr_toString v)

theorem represents_getSession (h : Represents keys infos s a) (ha : a.Typed) (now : Nat)
    (k : String) :
    (getSession infos now k s).1 = some (a.sessions.live now k) ∧
      Represents keys infos (getSession infos now k s).2 (a.renew now k) := by
  obtain ⟨hvalue, hrenewed⟩ := h.sessions.getEx getSessionKey_injective now k EXPIRY_TIME
  have hothers := fun c => (h.index c).getEx_ne now EXPIRY_TIME
    fun uid => Ne.symm (getSessionKey_ne k c uid)
  unfold getSession
  simp only [hvalue, fromRedisValue_map]
  cases hlive : a.sessions.live now k with
  | none =>
    -- nothing to renew: the maps stay as they are
    have hsame : a.sessions.renew now k (now + 1000 * EXPIRY_TIME) = a.sessions := by
      rw [Timed.renew, hlive]
      rfl
    rw [hsame] at hrenewed
    simp only [TimedSessions.renew, hlive, true_and]
    exact ⟨hrenewed, hothers⟩
  | some info =>
    obtain ⟨t, hk, -⟩ := Timed.live_eq_some.mp hlive
    obtain ⟨-, c, hc⟩ := ha k info t hk
    simp only [TimedSessions.renew, hlive, hc, Component.fromU8_toU8, true_and]
    refine ⟨hrenewed.expire_ne fun k' => getSessionKey_ne k' c info.uid, fun c' => ?_⟩
    dsimp only
    -- the index entry of the session's own type is renewed with it
    split_ifs with hcc
    · obtain rfl := Component.toU8_injective hcc
      exact (hothers c).expire (getMemberSessionKey_injective c)
    · have hne : c' ≠ c := fun he => hcc (he ▸ rfl)
      exact (hothers c').expire_ne fun uid => getMemberSessionKey_ne hne uid info.uid

theorem getClient_eq (h : Represents keys infos s a) (uid : String) :
    getClient keys infos now uid s =
      ((a.index .client).live now uid).map fun k => a.sessions.live now k := by
  rw [getClient, (h.index .client).get, fromRedisValue_map]
  cases (a.index .client).live now uid with
  | none => rfl
  | some k =>
    change fromRedisValue infos (s.get now (getSessionKey k)) = _
    rw [h.sessions.get, fromRedisValue_map, Option.map_some]

theorem mem_scan_member (h : Represents keys infos s a) {c : Component} {key : String} :
    key ∈ s.scan now (getMemberSessionKey c "") ↔
      ∃ uid k, (a.index c).live now uid = some k ∧ key = getMemberSessionKey c uid := by
  have hname : ∀ uid, getMemberSessionKey c "" ++ uid = getMemberSessionKey c uid := fun uid => by
    simp only [getMemberSessionKey, String.append_empty]
  rw [Store.mem_scan]
  constructor
  · rintro ⟨⟨uid, rfl⟩, hlive⟩
    rw [hname, (h.index c).isSome_live] at hlive
    obtain ⟨k, hk⟩ := Option.isSome_iff_exists.mp hlive
    exact ⟨uid, k, hk, hname uid⟩
  · rintro ⟨uid, k, hk, rfl⟩
    refine ⟨⟨uid, (hname uid).symm⟩, ?_⟩
    rw [(h.index c).isSome_live, hk]
    rfl

theorem listedSession_eq (h : Represents keys infos s a) {uid k : String}
    (hk : (a.index .proxy).live now uid = some k) :
    listedSession keys infos now (getMemberSessionKey .proxy uid) s = a.sessions.live now k := by
  rw [listedSession, (h.index .proxy).get, fromRedisValue_map, hk]
  change ((fromRedisValue infos (s.get now (getSessionKey k))).join) = _
  rw [h.sessions.get, fromRedisValue_map, Option.join_some]

theorem mapM_option {α β : Type} (f : α → Option β) (l : List α) :
    l.mapM f = if ∀ x ∈ l, (f x).isSome then some (l.filterMap f) else none := by
  induction l with
  | nil => rfl
  | cons x l ih =>
    rw [List.mapM_cons, ih, List.filterMap_cons]
    cases hx : f x with
    | none => simp [hx]
    | some y =>
      by_cases hl : ∀ x ∈ l, (f x).isSome
      · simp only [if_pos hl, List.forall_mem_cons, hx, Option.isSome_some, true_and]
        rfl
      · simp only [if_neg hl, List.forall_mem_cons, hx, Option.isSome_some, true_and]
        rfl

theorem getProxies_eq_none (h : Represents keys infos s a) (now : Nat) (accessKey : String) :
    getProxies keys infos now accessKey s = none ↔
      ∃ uid k, (a.index .proxy).live now uid = some k ∧ a.sessions.live now k = none := by
  have hall : (∀ key ∈ s.scan now (getMemberSessionKey .proxy ""),
      (listedSession keys infos now key s).isSome) ↔
        ∀ uid k, (a.index .proxy).live now uid = some k → (a.sessions.live now k).isSome := by
    constructor
    · intro hall uid k hk
      rw [← listedSession_eq h hk]
      exact hall _ ((mem_scan_member h).mpr ⟨uid, k, hk, rfl⟩)
    · intro hall key hkey
      obtain ⟨uid, k, hk, rfl⟩ := (mem_scan_member h).mp hkey
      rw [listedSession_eq h hk]
      exact hall uid k hk
  rw [getProxies, mapM_option]
  constructor
  · -- were all of them there, the listing would return
    intro hnone
    by_contra hno
    have hsome : ∀ uid k, (a.index .proxy).live now uid = some k →
        (a.sessions.live now k).isSome := fun uid k hk => by
      by_contra hk'
      exact hno ⟨uid, k, hk, Option.not_isSome_iff_eq_none.mp hk'⟩
    simp only [if_pos (hall.mpr hsome), Option.map_some] at hnone
    split_ifs at hnone
  · rintro ⟨uid, k, hk, hgone⟩
    have hmem : getMemberSessionKey .proxy uid ∈ s.scan now (getMemberSessionKey .proxy "") :=
      (mem_scan_member h).mpr ⟨uid, k, hk, rfl⟩
    have hne : ¬ (s.scan now (getMemberSessionKey .proxy "")).isEmpty = true := by
      rw [List.isEmpty_iff]
      exact List.ne_nil_of_mem hmem
    have hnot : ¬ ∀ key ∈ s.scan now (getMemberSessionKey .proxy ""),
        (listedSession keys infos now key s).isSome := fun hsome => by
      have hk' := hall.mp hsome uid k hk
      rw [hgone] at hk'
      nomatch hk'
    simp only [if_neg hne, if_neg hnot, Option.map_none]

theorem getProxies_eq_some (h : Represents keys infos s a) {accessKey : String}
    {found : Option (List SessionInfo)}
    (hf : getProxies keys infos now accessKey s = some found) :
    found ≠ some [] ∧ ∀ info, info ∈ found.getD [] ↔ info.accessKey ≠ accessKey ∧
      ∃ uid k, (a.index .proxy).live now uid = some k ∧ a.sessions.live now k = some info := by
  have hlisted : ∀ info, info ∈ (s.scan now (getMemberSessionKey .proxy "")).filterMap
        (fun key => listedSession keys infos now key s) ↔
      ∃ uid k, (a.index .proxy).live now uid = some k ∧ a.sessions.live now k = some info := by
    intro info
    rw [List.mem_filterMap]
    constructor
    · rintro ⟨key, hkey, hinfo⟩
      obtain ⟨uid, k, hk, rfl⟩ := (mem_scan_member h).mp hkey
      rw [listedSession_eq h hk] at hinfo
      exact ⟨uid, k, hk, hinfo⟩
    · rintro ⟨uid, k, hk, hinfo⟩
      exact ⟨_, (mem_scan_member h).mpr ⟨uid, k, hk, rfl⟩, (listedSession_eq h hk).trans hinfo⟩
  have hkept : ∀ info, info ∈ ((s.scan now (getMemberSessionKey .proxy "")).filterMap
        (fun key => listedSession keys infos now key s)).filter
          (fun session => session.accessKey ≠ accessKey) ↔ info.accessKey ≠ accessKey ∧
      ∃ uid k, (a.index .proxy).live now uid = some k ∧ a.sessions.live now k = some info := by
    intro info
    rw [List.mem_filter, hlisted, decide_eq_true_eq, and_comm]
  rw [getProxies, mapM_option] at hf
  split_ifs at hf with hempty hsome
  · -- no entry at all
    cases hf
    refine ⟨nofun, fun info => ?_⟩
    rw [← hkept, List.isEmpty_iff.mp hempty]
    exact Iff.rfl
  · simp only [Option.map_some] at hf
    split_ifs at hf with hnil
    · -- nothing but the asker's own session
      cases hf
      refine ⟨nofun, fun info => ?_⟩
      rw [← hkept, List.isEmpty_iff.mp hnil]
      exact Iff.rfl
    · cases hf
      exact ⟨fun he => hnil (List.isEmpty_iff.mpr (Option.some.inj he)), hkept⟩
  · nomatch hf

end RedisRepository

end FuzzyChat
