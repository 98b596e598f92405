import FuzzyChat.Controller.Models

/-! The in-memory route repository: the routes by nonce, and the conversations, each with the routes
issued for it. -/

namespace FuzzyChat

def ROUTES_EXPIRATION_TIME : Nat := 60000
def CONVERSATIONS_EXPIRATION_TIME : Nat := 60000

structure RouteStore where
  routes : Table String (ExpirationWrapper Route)
  conversations : Table String (ExpirationWrapper Conversation)

def Conversation.pushRoute (route : Route) (c : Conversation) : Conversation :=
  { c with routes := c.routes ++ [route] }

namespace RouteStore

def empty : RouteStore := ⟨∅, ∅⟩

/-- A known id is answered with `none`, its conversation replaced all the same. -/
def setConversation (now : Nat) (conversation : Conversation) (s : RouteStore) :
    Option String × RouteStore :=
  let found := (s.conversations.lookup conversation.id).isSome
  (if found then none else some conversation.id,
    { s with
      conversations := s.conversations.insert conversation.id
        (ExpirationWrapper.new now conversation CONVERSATIONS_EXPIRATION_TIME) })

def removeConversation (conversationId : String) (s : RouteStore) : RouteStore :=
  { s with conversations := s.conversations.erase conversationId }

def getConversation (conversationId : String) (s : RouteStore) : Option Conversation :=
  (s.conversations.lookup conversationId).map ExpirationWrapper.value

/-- The route goes in under its nonce first; a known nonce or a missing conversation is found out
only then. -/
def setRoute (now : Nat) (conversationId : String) (route : Route) (s : RouteStore) :
    Option String × RouteStore :=
  let routes := s.routes.insert route.nonce
    (ExpirationWrapper.new now route ROUTES_EXPIRATION_TIME)
  if (s.routes.lookup route.nonce).isSome then (none, { s with routes := routes })
  else
    ((s.conversations.lookup conversationId).map fun _ => route.nonce,
      { routes := routes
        conversations := s.conversations.modify conversationId fun w =>
          { w with value := w.value.pushRoute route } })

/-- The conversation asked for plays no part. -/
def getRoute (_conversationId nonce : String) (s : RouteStore) : Option Route :=
  (s.routes.lookup nonce).map ExpirationWrapper.value

def listed (conversationId : String) (s : RouteStore) : List Route :=
  ((s.getConversation conversationId).map Conversation.routes).getD []

def removeRoute (nonce : String) (s : RouteStore) : RouteStore :=
  { s with routes := s.routes.erase nonce }

/-- The body of the sweep, which holds both locks. -/
def killExpired (now : Nat) (s : RouteStore) : RouteStore :=
  { routes := s.routes.retain fun _ w => !w.isExpired now
    conversations := s.conversations.retain fun _ w => !w.isExpired now }

/-! What each operation does to each of the maps. -/

theorem mem_listed {s : RouteStore} {c : String} {route : Route} (h : route ∈ s.listed c) :
    ∃ conversation, s.getConversation c = some conversation ∧ route ∈ conversation.routes := by
  unfold listed at h
  cases hc : s.getConversation c with
  | none => rw [hc] at h; nomatch h
  | some conversation => exact ⟨conversation, rfl, by rwa [hc] at h⟩

@[simp] theorem conversations_setConversation (s : RouteStore) (now : Nat) (c : Conversation) :
    (s.setConversation now c).2.conversations = s.conversations.insert c.id
      (ExpirationWrapper.new now c CONVERSATIONS_EXPIRATION_TIME) := rfl

@[simp] theorem conversations_removeConversation (s : RouteStore) (c : String) :
    (s.removeConversation c).conversations = s.conversations.erase c := rfl

@[simp] theorem routes_setRoute (s : RouteStore) (now : Nat) (c : String) (r : Route) :
    (s.setRoute now c r).2.routes = s.routes.insert r.nonce
      (ExpirationWrapper.new now r ROUTES_EXPIRATION_TIME) := by
  unfold setRoute
  dsimp only
  split_ifs <;> rfl

@[simp] theorem routes_removeRoute (s : RouteStore) (n : String) :
    (s.removeRoute n).routes = s.routes.erase n := rfl

theorem conversations_setRoute {s : RouteStore} {now : Nat} {c : String} {r : Route}
    (h : s.routes.lookup r.nonce = none) :
    (s.setRoute now c r).2.conversations = s.conversations.modify c fun w =>
      { w with value := w.value.pushRoute r } := by
  simp [setRoute, h]

theorem getConversation_setConversation (s : RouteStore) (now : Nat) (c : Conversation) :
    (s.setConversation now c).2.getConversation c.id = some c := by
  rw [getConversation, conversations_setConversation, AList.lookup_insert]
  rfl

theorem getConversation_setRoute {s : RouteStore} {now : Nat} {c : String} {r : Route}
    (h : s.routes.lookup r.nonce = none) :
    (s.setRoute now c r).2.getConversation c =
      (s.getConversation c).map (Conversation.pushRoute r) := by
  rw [getConversation, conversations_setRoute h, AList.lookup_modify, if_pos rfl, getConversation,
    Option.map_map, Option.map_map]
  rfl

theorem getRoute_setRoute (s : RouteStore) (now : Nat) (c c' n : String) (r : Route) :
    (s.setRoute now c r).2.getRoute c' n = if n = r.nonce then some r else s.getRoute c' n := by
  rw [getRoute, routes_setRoute, AList.lookup_insert_eq_ite]
  split_ifs <;> rfl

theorem getRoute_removeRoute (s : RouteStore) (n n' c : String) :
    (s.removeRoute n).getRoute c n' = if n' = n then none else s.getRoute c n' := by
  rw [getRoute, routes_removeRoute, AList.lookup_erase_eq_ite]
  split_ifs <;> rfl

theorem getConversation_removeConversation (s : RouteStore) (c : String) :
    (s.removeConversation c).getConversation c = none := by
  rw [getConversation, conversations_removeConversation, AList.lookup_erase]
  rfl

theorem setRoute_eq_some {s : RouteStore} {now : Nat} {c : String} {r : Route} {n : String} :
    (s.setRoute now c r).1 = some n ↔
      n = r.nonce ∧ s.routes.lookup r.nonce = none ∧ ∃ w, s.conversations.lookup c = some w := by
  unfold setRoute
  dsimp only
  split_ifs with hr
  · simp [Option.isSome_iff_ne_none.mp hr]
  · simp only [Option.map_eq_some_iff, Option.not_isSome_iff_eq_none.mp hr, true_and]
    constructor
    · rintro ⟨w, hw, rfl⟩
      exact ⟨rfl, w, hw⟩
    · rintro ⟨rfl, w, hw⟩
      exact ⟨w, hw, rfl⟩

end RouteStore
end FuzzyChat
