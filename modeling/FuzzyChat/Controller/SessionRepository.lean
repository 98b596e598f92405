import FuzzyChat.Controller.Models

/-! The in-memory session repository: the sessions by access key, and one index by uid for each
type of component. -/

namespace FuzzyChat

def SESSIONS_EXPIRATION_TIME : Nat := 10000

structure SessionStore where
  sessions : Table String (ExpirationWrapper SessionInfo)
  clients : Table String String
  controllers : Table String String
  proxies : Table String String

namespace SessionStore

def empty : SessionStore := ⟨∅, ∅, ∅, ∅⟩

def index (s : SessionStore) : Component → Table String String
  | .client => s.clients
  | .controller => s.controllers
  | .proxy => s.proxies

/-! The sections of code that run under one lock. -/

def insertIndex (c : Component) (uid accessKey : String) (s : SessionStore) : SessionStore :=
  match c with
  | .client => { s with clients := s.clients.insert uid accessKey }
  | .proxy => { s with proxies := s.proxies.insert uid accessKey }
  | .controller => { s with controllers := s.controllers.insert uid accessKey }

def insertSession (now : Nat) (info : SessionInfo) (s : SessionStore) : SessionStore :=
  { s with
    sessions := s.sessions.insert info.accessKey
      (ExpirationWrapper.new now info SESSIONS_EXPIRATION_TIME) }

/-- The lookup renews what it finds. -/
def getSession (now : Nat) (accessKey : String) (s : SessionStore) :
    Option SessionInfo × SessionStore :=
  ((s.sessions.lookup accessKey).map fun w => (w.renew now).value,
    { s with sessions := s.sessions.modify accessKey (ExpirationWrapper.renew now) })

def takeSession (accessKey : String) (s : SessionStore) :
    Option (ExpirationWrapper SessionInfo) × SessionStore :=
  (s.sessions.lookup accessKey, { s with sessions := s.sessions.erase accessKey })

def removeClient (uid : String) (s : SessionStore) : SessionStore :=
  { s with clients := s.clients.erase uid }

/-- `none` for no proxy at all; the order is that of the index. -/
def getProxies (accessKey : String) (s : SessionStore) : Option (List SessionInfo) :=
  let result := s.proxies.entries.filterMap fun e =>
    if e.2 = accessKey then none else (s.sessions.lookup e.2).map ExpirationWrapper.value
  if result.isEmpty then none else some result

def clientKey (uid : String) (s : SessionStore) : Option String := s.clients.lookup uid

def sessionOf (accessKey : String) (s : SessionStore) : Option SessionInfo :=
  (s.sessions.lookup accessKey).map ExpirationWrapper.value

def count (c : Component) (s : SessionStore) : Nat := (s.index c).count

def removeExpired (e : String × String) (s : SessionStore) : SessionStore :=
  { sessions := s.sessions.erase e.1
    clients := s.clients.erase e.2
    controllers := s.controllers.erase e.2
    proxies := s.proxies.erase e.2 }

def expiredSessions (now : Nat) (s : SessionStore) : List (String × String) :=
  (s.sessions.entries.filter fun e => e.2.isExpired now).map fun e =>
    (e.2.value.accessKey, e.2.value.uid)

/-- The body of the sweep, which holds all four locks. -/
def killExpiredSessions (now : Nat) (s : SessionStore) : SessionStore :=
  (s.expiredSessions now).foldl (fun s e => s.removeExpired e) s

/-! The operations as wholes. -/

/-- `none` is the panic of the conversion of the component type. -/
def setSession (now : Nat) (info : SessionInfo) (s : SessionStore) : Option SessionStore :=
  (Component.fromU8 info.componentType).map fun c =>
    (s.insertIndex c info.uid info.accessKey).insertSession now info

def removeSession (accessKey : String) (s : SessionStore) : SessionStore :=
  match s.takeSession accessKey with
  | (some w, s) => s.removeClient w.value.uid
  | (none, s) => s

def getClient (uid : String) (s : SessionStore) : Option SessionInfo :=
  (s.clientKey uid).bind fun client => s.sessionOf client

/-! What each section does to each of the maps. -/

@[simp] theorem index_insertIndex (s : SessionStore) (c c' : Component) (uid k : String) :
    (s.insertIndex c uid k).index c' =
      if c' = c then (s.index c').insert uid k else s.index c' := by
  cases c <;> cases c' <;> rfl

@[simp] theorem sessions_insertIndex (s : SessionStore) (c : Component) (uid k : String) :
    (s.insertIndex c uid k).sessions = s.sessions := by cases c <;> rfl

@[simp] theorem index_insertSession (s : SessionStore) (now : Nat) (info : SessionInfo)
    (c : Component) : (s.insertSession now info).index c = s.index c := by cases c <;> rfl

@[simp] theorem sessions_insertSession (s : SessionStore) (now : Nat) (info : SessionInfo) :
    (s.insertSession now info).sessions = s.sessions.insert info.accessKey
      (ExpirationWrapper.new now info SESSIONS_EXPIRATION_TIME) := rfl

@[simp] theorem index_getSession (s : SessionStore) (now : Nat) (k : String) (c : Component) :
    (s.getSession now k).2.index c = s.index c := by cases c <;> rfl

@[simp] theorem sessions_getSession (s : SessionStore) (now : Nat) (k : String) :
    (s.getSession now k).2.sessions = s.sessions.modify k (ExpirationWrapper.renew now) := rfl

@[simp] theorem index_takeSession (s : SessionStore) (k : String) (c : Component) :
    (s.takeSession k).2.index c = s.index c := by cases c <;> rfl

@[simp] theorem sessions_takeSession (s : SessionStore) (k : String) :
    (s.takeSession k).2.sessions = s.sessions.erase k := rfl

@[simp] theorem index_removeClient (s : SessionStore) (uid : String) (c : Component) :
    (s.removeClient uid).index c =
      if c = .client then (s.index c).erase uid else s.index c := by cases c <;> rfl

@[simp] theorem sessions_removeClient (s : SessionStore) (uid : String) :
    (s.removeClient uid).sessions = s.sessions := rfl

theorem index_removeExpired (s : SessionStore) (e : String × String) (c : Component) :
    (s.removeExpired e).index c = (s.index c).erase e.2 := by cases c <;> rfl

theorem sessions_removeExpired (s : SessionStore) (e : String × String) :
    (s.removeExpired e).sessions = s.sessions.erase e.1 := rfl

theorem sessionOf_insertSession (s : SessionStore) (now : Nat) (info : SessionInfo) (k : String) :
    (s.insertSession now info).sessionOf k =
      if k = info.accessKey then some info else s.sessionOf k := by
  rw [sessionOf, sessions_insertSession, AList.lookup_insert_eq_ite]
  split_ifs
  · rfl
  · rfl

@[simp] theorem sessionOf_getSession (s : SessionStore) (now : Nat) (k k' : String) :
    (s.getSession now k).2.sessionOf k' = s.sessionOf k' := by
  rw [sessionOf, sessions_getSession, AList.lookup_modify]
  split_ifs with h
  · subst h
    rw [Option.map_map]
    rfl
  · rfl

theorem lookup_getSession {s : SessionStore} {now : Nat} {k k' : String}
    {w' : ExpirationWrapper SessionInfo}
    (h : (s.getSession now k).2.sessions.lookup k' = some w') :
    ∃ w, s.sessions.lookup k' = some w ∧ w.value = w'.value := by
  rw [sessions_getSession, AList.lookup_modify_eq_some] at h
  rcases h with ⟨rfl, w, hw, rfl⟩ | ⟨-, h⟩
  · exact ⟨w, hw, rfl⟩
  · exact ⟨w', h, rfl⟩

theorem lookup_foldl_removeExpired (es : List (String × String)) (s : SessionStore) (k : String)
    (w : ExpirationWrapper SessionInfo) :
    (es.foldl (fun s e => s.removeExpired e) s).sessions.lookup k = some w ↔
      s.sessions.lookup k = some w ∧ ∀ e ∈ es, e.1 ≠ k := by
  induction es generalizing s with
  | nil => simp
  | cons e es ih =>
    rw [List.foldl_cons, ih, sessions_removeExpired, AList.lookup_erase_eq_some]
    simp only [List.mem_cons, forall_eq_or_imp]
    constructor
    · rintro ⟨⟨hk, hw⟩, hes⟩
      exact ⟨hw, Ne.symm hk, hes⟩
    · rintro ⟨hw, hk, hes⟩
      exact ⟨⟨Ne.symm hk, hw⟩, hes⟩

theorem index_foldl_removeExpired (es : List (String × String)) (s : SessionStore)
    (c : Component) (uid k : String) :
    ((es.foldl (fun s e => s.removeExpired e) s).index c).lookup uid = some k ↔
      (s.index c).lookup uid = some k ∧ ∀ e ∈ es, e.2 ≠ uid := by
  induction es generalizing s with
  | nil => simp
  | cons e es ih =>
    rw [List.foldl_cons, ih, index_removeExpired, AList.lookup_erase_eq_some]
    simp only [List.mem_cons, forall_eq_or_imp]
    constructor
    · rintro ⟨⟨hk, hw⟩, hes⟩
      exact ⟨hw, Ne.symm hk, hes⟩
    · rintro ⟨hw, hk, hes⟩
      exact ⟨⟨Ne.symm hk, hw⟩, hes⟩

theorem mem_expiredSessions {s : SessionStore} {now : Nat} {e : String × String} :
    e ∈ s.expiredSessions now ↔ ∃ k w, s.sessions.lookup k = some w ∧ w.isExpired now = true ∧
      e = (w.value.accessKey, w.value.uid) := by
  simp only [expiredSessions, List.mem_map, List.mem_filter]
  constructor
  · rintro ⟨⟨k, w⟩, ⟨hw, hx⟩, rfl⟩
    exact ⟨k, w, AList.mem_entries_iff.mp hw, hx, rfl⟩
  · rintro ⟨k, w, hw, hx, rfl⟩
    exact ⟨⟨k, w⟩, ⟨AList.mem_entries_iff.mpr hw, hx⟩, rfl⟩

theorem getProxies_ne_nil {s : SessionStore} {k : String} {result : List SessionInfo}
    (h : s.getProxies k = some result) : result ≠ [] := by
  unfold getProxies at h
  simp only [Option.ite_none_left_eq_some] at h
  obtain ⟨hne, h⟩ := h
  rw [← Option.some.inj h]
  exact fun hnil => hne (List.isEmpty_iff.mpr hnil)

theorem getProxies_none {s : SessionStore} {k : String} (h : s.getProxies k = none)
    (uid k' : String) (hk : s.proxies.lookup uid = some k') (hne : k' ≠ k) :
    s.sessionOf k' = none := by
  unfold getProxies at h
  simp only [ite_eq_left_iff, List.isEmpty_iff, reduceCtorEq, imp_false, not_not] at h
  have hmem := List.filterMap_eq_nil_iff.mp h _ (AList.mem_entries_iff.mpr hk)
  rwa [if_neg hne] at hmem

theorem mem_getProxies {s : SessionStore} {k : String} {result : List SessionInfo}
    (h : s.getProxies k = some result) {info : SessionInfo} :
    info ∈ result ↔ ∃ uid k', s.proxies.lookup uid = some k' ∧ k' ≠ k ∧
      s.sessionOf k' = some info := by
  unfold getProxies at h
  simp only [Option.ite_none_left_eq_some] at h
  obtain ⟨-, h⟩ := h
  rw [← Option.some.inj h, List.mem_filterMap]
  constructor
  · rintro ⟨⟨uid, k'⟩, he, hinfo⟩
    rw [Option.ite_none_left_eq_some] at hinfo
    exact ⟨uid, k', AList.mem_entries_iff.mp he, hinfo.1, hinfo.2⟩
  · rintro ⟨uid, k', he, hk, hinfo⟩
    exact ⟨⟨uid, k'⟩, AList.mem_entries_iff.mpr he, by rw [if_neg hk]; exact hinfo⟩

end SessionStore
end FuzzyChat
