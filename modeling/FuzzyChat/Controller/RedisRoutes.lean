import FuzzyChat.Controller.Services
import FuzzyChat.Redis.Store

/-! The routes in Redis: the repository, and the route manager over it. `none` is the panic of an
unwrap throughout. -/

namespace FuzzyChat

/-- The text `serde_json` writes for the values of a type, read back. -/
structure SerdeJson (Text α : Type) where
  toString : α → Text
  fromStr : Text → Option α
  fromStr_toString : ∀ a, fromStr (toString a) = some a

theorem SerdeJson.toString_injective {Text α : Type} (json : SerdeJson Text α) :
    Function.Injective json.toString := by
  intro a a' h
  have hread := congrArg json.fromStr h
  rw [json.fromStr_toString, json.fromStr_toString] at hread
  exact Option.some.inj hread

namespace RedisRepository
variable {Text : Type} (conversations : SerdeJson Text Conversation) (routes : SerdeJson Text Route)

def CONVERSATIONS_KEY : String := "cs"
def ROUTES_KEY : String := "rs"

def getConversationKey (conversationId : String) : String :=
  CONVERSATIONS_KEY ++ ":" ++ conversationId

def getRoutesKey (conversationId : String) : String := ROUTES_KEY ++ ":" ++ conversationId

/-- A reply of the database as a value of the code: an error or a nil is `none`, and a text that
does not parse panics. -/
def fromRedisValue {α : Type} (json : SerdeJson Text α) : Option (Option Text) → Option (Option α)
  | some (some text) => (json.fromStr text).map some
  | _ => some none

def setConversation (now : Nat) (conversation : Conversation) (s : Redis.Store Text) :
    Option (Option String) × Redis.Store Text :=
  (some (some conversation.id), s.setEx now (getConversationKey conversation.id)
    (conversations.toString conversation) (CONVERSATIONS_EXPIRATION_TIME / 1000))

def removeConversation (conversationId : String) (s : Redis.Store Text) :
    Option Unit × Redis.Store Text := (some (), s.del (getConversationKey conversationId))

def getConversation (now : Nat) (conversationId : String) (s : Redis.Store Text) :
    Option (Option Conversation) :=
  fromRedisValue conversations (s.get now (getConversationKey conversationId))

/-- The pipeline at the end of `set_route`. Its three commands take effect one by one, also when the
first is an error; to other calls it is one command. -/
def storeRoute (now : Nat) (conversationId : String) (conversation : Conversation) (route : Route)
    (s : Redis.Store Text) : Option Unit × Redis.Store Text :=
  let key := getRoutesKey conversationId
  let hset := s.hset now key route.nonce (routes.toString route)
  let s := (hset.getD s).expire now key (ROUTES_EXPIRATION_TIME / 1000)
  (hset.map fun _ => (), s.setEx now (getConversationKey conversationId)
    (conversations.toString conversation) (CONVERSATIONS_EXPIRATION_TIME / 1000))

def setRoute (now : Nat) (conversationId : String) (route : Route) (s : Redis.Store Text) :
    Option (Option String) × Redis.Store Text :=
  match getConversation conversations now conversationId s with
  | some (some conversation) =>
    let stored := storeRoute conversations routes now conversationId
      (conversation.pushRoute route) route s
    (stored.1.map fun _ => some route.nonce, stored.2)
  | _ => (none, s)

def getRoute (now : Nat) (conversationId nonce : String) (s : Redis.Store Text) :
    Option (Option Route) :=
  fromRedisValue routes (s.hget now (getRoutesKey conversationId) nonce)

/-- The key is made of the nonce, where the other operations make it of the conversation. -/
def removeRoute (now : Nat) (nonce : String) (s : Redis.Store Text) :
    Option Unit × Redis.Store Text :=
  let hdel := s.hdel now (getRoutesKey nonce) nonce
  (hdel.map fun _ => (), hdel.getD s)

theorem getConversationKey_inj {c c' : String} (h : getConversationKey c = getConversationKey c') :
    c = c' := (String.append_right_inj _).mp h

theorem getRoutesKey_inj {c c' : String} (h : getRoutesKey c = getRoutesKey c') : c = c' :=
  (String.append_right_inj _).mp h

theorem getConversationKey_ne (c c' : String) : getConversationKey c ≠ getRoutesKey c' := by
  intro h
  have hl := congrArg String.toList h
  simp [getConversationKey, getRoutesKey, CONVERSATIONS_KEY, ROUTES_KEY] at hl

section storeRoute
variable {conversations} {now : Nat} {c : String} {s : Redis.Store Text}
  {conversation : Conversation}

theorem setRoute_of_read (route : Route)
    (h : getConversation conversations now c s = some (some conversation)) :
    setRoute conversations routes now c route s =
      ((storeRoute conversations routes now c (conversation.pushRoute route) route s).1.map
          fun _ => some route.nonce,
        (storeRoute conversations routes now c (conversation.pushRoute route) route s).2) := by
  simp only [setRoute, h]

theorem setRoute_of_missing (route : Route)
    (h : ∀ conversation, getConversation conversations now c s ≠ some (some conversation)) :
    setRoute conversations routes now c route s = (none, s) := by
  unfold setRoute
  split
  · rename_i conversation hread
    exact absurd hread (h conversation)
  · rfl

theorem lookup_storeRoute (conversations : SerdeJson Text Conversation)
    (h : Redis.Store.IsHash (getRoutesKey c) s) (now : Nat) (conversation : Conversation)
    (route : Route) :
    (storeRoute conversations routes now c conversation route s).1 = some () ∧
      ∀ key, (storeRoute conversations routes now c conversation route s).2.lookup key =
        if key = getConversationKey c then
          some ⟨.string (conversations.toString conversation),
            some (now + CONVERSATIONS_EXPIRATION_TIME)⟩
        else if key = getRoutesKey c then
          some ⟨.hash ((s.fields now (getRoutesKey c)).insert route.nonce (routes.toString route)),
            some (now + ROUTES_EXPIRATION_TIME)⟩
        else s.lookup key := by
  obtain ⟨hashed, hset, hlookup⟩ := Redis.Store.lookup_hset_expire h now route.nonce
    (routes.toString route) (ROUTES_EXPIRATION_TIME / 1000)
  simp only [storeRoute, hset, Option.map_some, Option.getD_some, true_and]
  intro key
  rw [Redis.Store.lookup_setEx, hlookup]
  rfl

end storeRoute

end RedisRepository

/-- What `Uuid::new_v4` draws, in its hyphenated form. -/
structure Uuid where
  text : String
  hyphenated : '-' ∈ text.toList

def Uuid.simple (uuid : Uuid) : String := String.ofList (uuid.text.toList.filter fun c => c ≠ '-')

/-- An operation of the route manager on the store, or the passing of time. -/
inductive RouteCall where
  | initializeConversation (uuid : Uuid) (fromUid toUid : String)
  | finalize (conversationId : String)
  | getConversation (conversationId : String)
  | storeRoute (uuid : Uuid) (conversationId : String) (settings : ConnectionSettings)
      (endRoute : Bool)
  | redeemRoute (conversationId nonce : String)
  | elapse (time : Nat)

def RouteCall.stores : RouteCall → Option String
  | storeRoute uuid .. => some uuid.text
  | _ => none

structure RedisRun (Text : Type) where
  store : Redis.Store Text
  now : Nat

namespace RedisRun
open RedisRepository
variable {Text : Type} (conversations : SerdeJson Text Conversation) (routes : SerdeJson Text Route)

def start : RedisRun Text := ⟨∅, 0⟩

def redeemRoute (conversationId nonce : String) (r : RedisRun Text) :
    Option (Option Route) × RedisRun Text :=
  match getRoute routes r.now conversationId nonce r.store with
  | some (some route) =>
    let (done, store) := removeRoute r.now nonce r.store
    (done.map fun _ => some route, { r with store := store })
  | other => (other, r)

/-- A call that panics leaves the store as its commands have left it. -/
def step (r : RedisRun Text) : RouteCall → RedisRun Text
  | .initializeConversation uuid fromUid toUid =>
    { r with store := (setConversation conversations r.now
        (Conversation.new uuid.simple fromUid toUid 1) r.store).2 }
  | .finalize c => { r with store := (removeConversation c r.store).2 }
  | .getConversation _ => r
  | .storeRoute uuid c settings endRoute =>
    { r with store := (setRoute conversations routes r.now c
        (RouteManager.storedRoute uuid.text settings endRoute) r.store).2 }
  | .redeemRoute c n => (r.redeemRoute routes c n).2
  | .elapse time => { r with now := r.now + time }

def run (r : RedisRun Text) (calls : List RouteCall) : RedisRun Text :=
  calls.foldl (step conversations routes) r

/-- If the nonce is redeemed for the conversation, it is never again, unless a route is stored with
it once more. -/
def SingleUse (c n : String) (r : RedisRun Text) : Prop :=
  ∀ route, (r.redeemRoute routes c n).1 = some (some route) →
    ∀ calls : List RouteCall, (∀ call ∈ calls, call.stores ≠ some n) →
      (((r.redeemRoute routes c n).2.run conversations routes calls).redeemRoute routes c n).1 =
        some none

/-- Keys and fields are made of the ids they are for: conversations have no hyphen in theirs, and
nonces have. -/
def Tidy (s : Redis.Store Text) : Prop :=
  ∀ key e, s.lookup key = some e → ∃ c : String, '-' ∉ c.toList ∧
    (key = getConversationKey c ∧
        (∃ conversation, e.value = .string (conversations.toString conversation)) ∨
      key = getRoutesKey c ∧ ∃ fields, e.value = .hash fields ∧ ∀ n text,
        fields.lookup n = some text → '-' ∈ n.toList ∧ ∃ route, text = routes.toString route)

theorem not_mem_simple (uuid : Uuid) : '-' ∉ uuid.simple.toList := by
  simp [Uuid.simple]

variable {conversations routes}

section tidy
variable {s : Redis.Store Text}

theorem Tidy.setEx (hs : Tidy conversations routes s) {c : String} (hc : '-' ∉ c.toList) (now : Nat)
    (conversation : Conversation) (seconds : Nat) : Tidy conversations routes
      (s.setEx now (getConversationKey c) (conversations.toString conversation) seconds) := by
  intro key e he
  rcases AList.lookup_insert_eq_some.mp he with ⟨rfl, rfl⟩ | ⟨-, he⟩
  · exact ⟨c, hc, .inl ⟨rfl, conversation, rfl⟩⟩
  · exact hs key e he

theorem Tidy.del (hs : Tidy conversations routes s) (key : String) :
    Tidy conversations routes (s.del key) := fun key' e he =>
  hs key' e (AList.lookup_erase_eq_some.mp he).2

theorem Tidy.expire (hs : Tidy conversations routes s) (now : Nat) (key : String) (seconds : Nat) :
    Tidy conversations routes (s.expire now key seconds) := by
  intro key' e he
  obtain ⟨e₀, he₀, hv⟩ := Redis.Store.lookup_expire he
  exact hv ▸ hs key' e₀ he₀

theorem Tidy.fields (hs : Tidy conversations routes s) {c : String} {fields : Table String Text}
    {t : Option Nat} (h : s.lookup (getRoutesKey c) = some ⟨.hash fields, t⟩) : '-' ∉ c.toList ∧
      ∀ n text, fields.lookup n = some text →
        '-' ∈ n.toList ∧ ∃ route, text = routes.toString route := by
  rcases hs _ _ h with ⟨c', hc', ⟨-, conversation, hv⟩ | ⟨hk, fields', hv, hf⟩⟩
  · nomatch hv
  · cases hv
    exact ⟨getRoutesKey_inj hk ▸ hc', hf⟩

theorem Tidy.hset (hs : Tidy conversations routes s) {c : String} (hc : '-' ∉ c.toList) {now : Nat}
    {route : Route} (hn : '-' ∈ route.nonce.toList) {s' : Redis.Store Text}
    (h : s.hset now (getRoutesKey c) route.nonce (routes.toString route) = some s') :
    Tidy conversations routes s' := by
  intro key e he
  rcases Redis.Store.lookup_hset h he with he | ⟨rfl, fields, hold, hv⟩
  · exact hs key e he
  · refine ⟨c, hc, .inr ⟨rfl, _, hv, fun n text hl => ?_⟩⟩
    rcases AList.lookup_insert_eq_some.mp hl with ⟨rfl, rfl⟩ | ⟨-, hl⟩
    · exact ⟨hn, route, rfl⟩
    · rcases hold with rfl | ⟨t, hold⟩
      · simp at hl
      · exact (hs.fields hold).2 n text hl

theorem Tidy.hdel (hs : Tidy conversations routes s) {now : Nat} {c field : String}
    {s' : Redis.Store Text} (h : s.hdel now (getRoutesKey c) field = some s') :
    Tidy conversations routes s' := by
  intro key e he
  rcases Redis.Store.lookup_hdel h he with he | ⟨rfl, fields, t, hold, hv⟩
  · exact hs key e he
  · obtain ⟨hc, hf⟩ := hs.fields hold
    exact ⟨c, hc, .inr ⟨rfl, _, hv, fun n text hl => hf n text (AList.lookup_erase_eq_some.mp hl).2⟩⟩

theorem Tidy.of_getConversation (hs : Tidy conversations routes s) {now : Nat} {c : String}
    {conversation : Conversation}
    (h : getConversation conversations now c s = some (some conversation)) : '-' ∉ c.toList := by
  cases hl : s.live now (getConversationKey c) with
  | none => simp [getConversation, Redis.Store.get, hl, fromRedisValue] at h
  | some e =>
    rcases hs _ e (Redis.Store.live_eq_some hl) with ⟨c', hc', ⟨hk, -⟩ | ⟨hk, -⟩⟩
    · exact getConversationKey_inj hk ▸ hc'
    · exact absurd hk (getConversationKey_ne _ _)

theorem Tidy.setRoute (hs : Tidy conversations routes s) {now : Nat} {c : String} {route : Route}
    (hn : '-' ∈ route.nonce.toList) :
    Tidy conversations routes (setRoute conversations routes now c route s).2 := by
  unfold RedisRepository.setRoute
  split
  · rename_i conversation hget
    have hc := hs.of_getConversation hget
    have hset : Tidy conversations routes
        ((s.hset now (getRoutesKey c) route.nonce (routes.toString route)).getD s) := by
      cases h : s.hset now (getRoutesKey c) route.nonce (routes.toString route) with
      | none => exact hs
      | some s' => exact hs.hset hc hn h
    exact (hset.expire _ _ _).setEx hc _ _ _
  · exact hs

theorem Tidy.removeRoute (hs : Tidy conversations routes s) (now : Nat) (n : String) :
    Tidy conversations routes (removeRoute now n s).2 := by
  cases h : s.hdel now (getRoutesKey n) n with
  | none =>
    simp only [RedisRepository.removeRoute, h, Option.getD_none]
    exact hs
  | some s' =>
    simp only [RedisRepository.removeRoute, h, Option.getD_some]
    exact hs.hdel h

end tidy

theorem tidy_redeemRoute {r : RedisRun Text} (hr : Tidy conversations routes r.store) (c n : String) :
    Tidy conversations routes (r.redeemRoute routes c n).2.store := by
  unfold redeemRoute
  split
  · exact hr.removeRoute _ _
  · exact hr

theorem tidy_step {r : RedisRun Text} (hr : Tidy conversations routes r.store) (call : RouteCall) :
    Tidy conversations routes (r.step conversations routes call).store := by
  cases call with
  | initializeConversation uuid fromUid toUid => exact hr.setEx (not_mem_simple uuid) _ _ _
  | finalize c => exact hr.del _
  | getConversation c => exact hr
  | storeRoute uuid c settings endRoute => exact hr.setRoute uuid.hyphenated
  | redeemRoute c n => exact tidy_redeemRoute hr c n
  | elapse time => exact hr

theorem tidy_run {r : RedisRun Text} (hr : Tidy conversations routes r.store)
    (calls : List RouteCall) :
    Tidy conversations routes (r.run conversations routes calls).store := by
  induction calls generalizing r with
  | nil => exact hr
  | cons call calls ih => exact ih (tidy_step hr call)

theorem redeemRoute_of_stored {r : RedisRun Text} (hr : Tidy conversations routes r.store)
    {c n : String} {text : Text}
    (h : r.store.hget r.now (getRoutesKey c) n = some (some text)) :
    ∃ route, r.redeemRoute routes c n = (some (some route), r) := by
  obtain ⟨fields, t, hl, hf⟩ := Redis.Store.hget_eq_some h
  obtain ⟨hn, route, rfl⟩ := (hr.fields hl).2 n text hf
  have hget : getRoute routes r.now c n r.store = some (some route) := by
    rw [getRoute, h, fromRedisValue, routes.fromStr_toString, Option.map_some]
  have hnone : r.store.lookup (getRoutesKey n) = none := by
    by_contra hsome
    obtain ⟨e, he⟩ := Option.ne_none_iff_exists'.mp hsome
    rcases hr _ e he with ⟨c', hc', ⟨hk, -⟩ | ⟨hk, -⟩⟩
    · exact getConversationKey_ne _ _ hk.symm
    · exact hc' (getRoutesKey_inj hk ▸ hn)
  refine ⟨route, ?_⟩
  rw [redeemRoute, hget]
  simp only [removeRoute, Redis.Store.hdel_of_lookup_none hnone, Option.map_some, Option.getD_some]

theorem redeemRoute_of_missing {r : RedisRun Text} {c n : String}
    (h : ∀ text, r.store.hget r.now (getRoutesKey c) n ≠ some (some text)) :
    (r.redeemRoute routes c n).1 = some none := by
  have hget : getRoute routes r.now c n r.store = some none := by
    rw [getRoute]
    match hh : r.store.hget r.now (getRoutesKey c) n with
    | none => rfl
    | some none => rfl
    | some (some text) => exact absurd hh (h text)
  rw [redeemRoute, hget]

/-- After any run, a nonce is redeemed at most once for a conversation exactly when it is not there
to be redeemed at all. -/
theorem singleUse_iff {Text : Type} (conversations : SerdeJson Text Conversation)
    (routes : SerdeJson Text Route) (calls : List RouteCall) (c n : String) :
    SingleUse conversations routes c n (start.run conversations routes calls) ↔
      ∀ text, (start.run conversations routes calls).store.hget
        (start.run conversations routes calls).now (getRoutesKey c) n ≠ some (some text) := by
  have hr : Tidy conversations routes (start.run conversations routes calls).store :=
    tidy_run (fun _ _ h => by simp [start] at h) calls
  generalize start.run conversations routes calls = r at hr
  constructor
  · intro hsingle text h
    obtain ⟨route, hredeem⟩ := redeemRoute_of_stored hr h
    have hagain := hsingle route (by rw [hredeem]) [] (fun _ hm => nomatch hm)
    rw [hredeem, show r.run conversations routes [] = r from rfl, hredeem] at hagain
    nomatch hagain
  · intro hmissing route hredeem
    rw [redeemRoute_of_missing hmissing] at hredeem
    nomatch hredeem

def plainConversation : SerdeJson (Conversation ⊕ Route) Conversation :=
  ⟨.inl, Sum.getLeft?, fun _ => rfl⟩

def plainRoute : SerdeJson (Conversation ⊕ Route) Route := ⟨.inr, Sum.getRight?, fun _ => rfl⟩

/-- The one nonce issued for a conversation is redeemed, and is there still. -/
theorem redeemed_again : ¬ ∀ (calls : List RouteCall) (c n : String),
    SingleUse plainConversation plainRoute c n (start.run plainConversation plainRoute calls) := by
  intro hall
  have h := hall [.initializeConversation ⟨"c-1", by decide⟩ "alice" "bob",
    .storeRoute ⟨"n-1", by decide⟩ "c1" ⟨"10.0.0.1", 50051, "north", [1]⟩ false] "c1" "n-1"
  have hagain := h _ rfl [] (fun _ hm => nomatch hm)
  exact absurd hagain (by decide)

end RedisRun
end FuzzyChat
