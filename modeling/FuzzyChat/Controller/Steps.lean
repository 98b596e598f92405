import FuzzyChat.Controller.Storage

/-! What one operation can do to each map of the storage, said once for all operations. -/

namespace FuzzyChat.Storage

@[simp] theorem step_getSession (s : Storage) (c : Choice) (k : String) :
    (s.step c (.getSession k)).1 = s.sessions.sessionOf k := by
  simp only [step, exec, SessionStore.getSession, ExpirationWrapper.renew_value]
  rfl

@[simp] theorem step_sessionOf (s : Storage) (c : Choice) (k : String) :
    (s.step c (.sessionOf k)).1 = s.sessions.sessionOf k := rfl

@[simp] theorem step_clientKey (s : Storage) (c : Choice) (uid : String) :
    (s.step c (.clientKey uid)).1 = s.sessions.clientKey uid := rfl

@[simp] theorem step_getProxies (s : Storage) (c : Choice) (k : String) :
    (s.step c (.getProxies k)).1 = (s.sessions.getProxies k).map (reorder c.index) := rfl

@[simp] theorem step_getConversation (s : Storage) (c : Choice) (id : String) :
    (s.step c (.getConversation id)).1 = s.routes.getConversation id := rfl

@[simp] theorem step_getRoute (s : Storage) (c : Choice) (id n : String) :
    (s.step c (.getRoute id n)).1 = s.routes.getRoute id n := rfl

@[simp] theorem step_setRoute (s : Storage) (c : Choice) (id : String) (r : Route) :
    (s.step c (.setRoute id r)).1 = (s.routes.setRoute (s.now + c.elapsed) id r).1 := rfl

theorem lookup_session_step {s : Storage} {c : Choice} {op : RepoOp} {k : String}
    {w : ExpirationWrapper SessionInfo}
    (h : (s.step c op).2.sessions.sessions.lookup k = some w) :
    (∃ w₀, s.sessions.sessions.lookup k = some w₀ ∧ w₀.value = w.value) ∨
      op = .insertSession w.value ∧ k = w.value.accessKey := by
  cases op with
  | insertIndex c uid k' =>
    rw [show (s.step _ (.insertIndex c uid k')).2.sessions.sessions = s.sessions.sessions from
      SessionStore.sessions_insertIndex _ _ _ _] at h
    exact .inl ⟨w, h, rfl⟩
  | insertSession info =>
    rcases AList.lookup_insert_eq_some.mp h with ⟨rfl, rfl⟩ | ⟨-, h⟩
    · exact .inr ⟨rfl, rfl⟩
    · exact .inl ⟨w, h, rfl⟩
  | getSession k' => exact .inl (SessionStore.lookup_getSession h)
  | takeSession k' => exact .inl ⟨w, (AList.lookup_erase_eq_some.mp h).2, rfl⟩
  | killExpiredSessions =>
    exact .inl ⟨w, ((SessionStore.lookup_foldl_removeExpired _ _ k w).mp h).1, rfl⟩
  | _ => exact .inl ⟨w, h, rfl⟩

theorem sessionOf_step {s : Storage} {c : Choice} {op : RepoOp} {k : String} {info : SessionInfo}
    (h : (s.step c op).2.sessions.sessionOf k = some info) :
    s.sessions.sessionOf k = some info ∨ op = .insertSession info ∧ k = info.accessKey := by
  obtain ⟨w, hw, rfl⟩ := Option.map_eq_some_iff.mp h
  rcases lookup_session_step hw with ⟨w₀, hw₀, hv⟩ | hnew
  · exact .inl (Option.map_eq_some_iff.mpr ⟨w₀, hw₀, hv⟩)
  · exact .inr hnew

theorem lookup_index_step {s : Storage} {c : Choice} {op : RepoOp} {t : Component}
    {uid k : String} (h : ((s.step c op).2.sessions.index t).lookup uid = some k) :
    (s.sessions.index t).lookup uid = some k ∨ op = .insertIndex t uid k := by
  cases op with
  | insertIndex t' uid' k' =>
    change ((s.sessions.insertIndex t' uid' k').index t).lookup uid = some k at h
    rw [SessionStore.index_insertIndex] at h
    split_ifs at h with ht
    · rcases AList.lookup_insert_eq_some.mp h with ⟨rfl, rfl⟩ | ⟨-, h⟩
      · exact .inr (ht ▸ rfl)
      · exact .inl h
    · exact .inl h
  | removeClient uid' =>
    change ((s.sessions.removeClient uid').index t).lookup uid = some k at h
    rw [SessionStore.index_removeClient] at h
    split_ifs at h with ht
    · exact .inl (AList.lookup_erase_eq_some.mp h).2
    · exact .inl h
  | killExpiredSessions =>
    exact .inl ((SessionStore.index_foldl_removeExpired _ _ t uid k).mp h).1
  | _ => exact .inl (by cases t <;> exact h)

theorem lookup_conversation_step {s : Storage} {c : Choice} {op : RepoOp} {id : String}
    {w : ExpirationWrapper Conversation}
    (h : (s.step c op).2.routes.conversations.lookup id = some w) :
    (∃ w₀, s.routes.conversations.lookup id = some w₀ ∧ (w.value = w₀.value ∨
        ∃ r, op = .setRoute id r ∧ s.routes.routes.lookup r.nonce = none ∧
          w.value = w₀.value.pushRoute r)) ∨
      op = .setConversation w.value ∧ id = w.value.id := by
  cases op with
  | setConversation conversation =>
    rcases AList.lookup_insert_eq_some.mp h with ⟨rfl, rfl⟩ | ⟨-, h⟩
    · exact .inr ⟨rfl, rfl⟩
    · exact .inl ⟨w, h, .inl rfl⟩
  | removeConversation id' => exact .inl ⟨w, (AList.lookup_erase_eq_some.mp h).2, .inl rfl⟩
  | setRoute id' r =>
    change (s.routes.setRoute (s.now + c.elapsed) id' r).2.conversations.lookup id = some w at h
    cases hr : s.routes.routes.lookup r.nonce with
    | none =>
      rw [RouteStore.conversations_setRoute hr, AList.lookup_modify_eq_some] at h
      rcases h with ⟨rfl, w₀, hw, rfl⟩ | ⟨-, h⟩
      · exact .inl ⟨w₀, hw, .inr ⟨r, rfl, hr, rfl⟩⟩
      · exact .inl ⟨w, h, .inl rfl⟩
    | some _ =>
      simp only [RouteStore.setRoute, hr, Option.isSome_some, if_true] at h
      exact .inl ⟨w, h, .inl rfl⟩
  | killExpiredRoutes => exact .inl ⟨w, (AList.lookup_retain_eq_some.mp h).1, .inl rfl⟩
  | _ => exact .inl ⟨w, h, .inl rfl⟩

theorem lookup_route_step {s : Storage} {c : Choice} {op : RepoOp} {n : String}
    {w : ExpirationWrapper Route} (h : (s.step c op).2.routes.routes.lookup n = some w) :
    s.routes.routes.lookup n = some w ∨ ∃ id, op = .setRoute id w.value ∧ n = w.value.nonce := by
  cases op with
  | setRoute id r =>
    change (s.routes.setRoute (s.now + c.elapsed) id r).2.routes.lookup n = some w at h
    rw [RouteStore.routes_setRoute] at h
    rcases AList.lookup_insert_eq_some.mp h with ⟨rfl, rfl⟩ | ⟨-, h⟩
    · exact .inr ⟨id, rfl, rfl⟩
    · exact .inl h
  | removeRoute n' => exact .inl (AList.lookup_erase_eq_some.mp h).2
  | killExpiredRoutes => exact .inl (AList.lookup_retain_eq_some.mp h).1
  | _ => exact .inl h

end FuzzyChat.Storage
