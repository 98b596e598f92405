import FuzzyChat.Controller.RouteRepository
import FuzzyChat.Controller.RedisRoutes
import FuzzyChat.Interleave.Sequence

/-! The two route repositories side by side: the same operations on both, and when their answers are
the same. -/

namespace FuzzyChat
open Interleave Redis

inductive RouteOp where
  | setConversation (conversation : Conversation)
  | removeConversation (conversationId : String)
  | getConversation (conversationId : String)
  | setRoute (conversationId : String) (route : Route)
  | getRoute (conversationId nonce : String)
  | removeRoute (nonce : String)

inductive RouteAnswer where
  | panic
  | done
  | stored (id : Option String)
  | conversation (found : Option Conversation)
  | route (found : Option Route)
  deriving DecidableEq

namespace RouteOp

def inMemory (now : Nat) (s : RouteStore) : RouteOp → RouteAnswer × RouteStore
  | setConversation v => (.stored (s.setConversation now v).1, (s.setConversation now v).2)
  | removeConversation c => (.done, s.removeConversation c)
  | getConversation c => (.conversation (s.getConversation c), s)
  | setRoute c route => (.stored (s.setRoute now c route).1, (s.setRoute now c route).2)
  | getRoute c n => (.route (s.getRoute c n), s)
  | removeRoute n => (.done, s.removeRoute n)

variable {Text : Type} (conversations : SerdeJson Text Conversation) (routes : SerdeJson Text Route)

def inRedis (now : Nat) (s : Redis.Store Text) : RouteOp → RouteAnswer × Redis.Store Text
  | setConversation v =>
    ((RedisRepository.setConversation conversations now v s).1.elim .panic .stored,
      (RedisRepository.setConversation conversations now v s).2)
  | removeConversation c =>
    ((RedisRepository.removeConversation c s).1.elim .panic fun _ => .done,
      (RedisRepository.removeConversation c s).2)
  | getConversation c =>
    ((RedisRepository.getConversation conversations now c s).elim .panic .conversation, s)
  | setRoute c route =>
    ((RedisRepository.setRoute conversations routes now c route s).1.elim .panic .stored,
      (RedisRepository.setRoute conversations routes now c route s).2)
  | getRoute c n => ((RedisRepository.getRoute routes now c n s).elim .panic .route, s)
  | removeRoute n =>
    ((RedisRepository.removeRoute now n s).1.elim .panic fun _ => .done,
      (RedisRepository.removeRoute now n s).2)

end RouteOp

abbrev RouteHistory := List (Nat × RouteOp)

namespace RouteHistory

def refreshed (c : String) : RouteHistory → Option Nat
  | [] => none
  | (t, .setConversation v) :: past => if c = v.id then some t else refreshed c past
  | (t, .setRoute c' _) :: past => if c = c' then some t else refreshed c past
  | (_, .removeConversation c') :: past => if c = c' then none else refreshed c past
  | _ :: past => refreshed c past

/-- The conversation for which a route was last stored under the nonce. -/
def origin (n : String) : RouteHistory → Option String
  | [] => none
  | (_, .setRoute c route) :: past => if n = route.nonce then some c else origin n past
  | _ :: past => origin n past

/-- The route last stored for the conversation under the nonce, as long as routes for the
conversation have come in time one after the other since. -/
def kept (c n : String) : RouteHistory → Nat → Option Route
  | [], _ => none
  | (t, .setRoute c' route) :: past, now =>
    if c = c' then
      if now ≤ t + ROUTES_EXPIRATION_TIME then
        if n = route.nonce then some route else kept c n past t
      else none
    else kept c n past now
  -- a route is removed from the hash that has the nonce for its conversation
  | (_, .removeRoute n') :: past, now => if c = n' ∧ n = n' then none else kept c n past now
  | _ :: past, now => kept c n past now

section
variable (past : RouteHistory) (t now : Nat) (c n : String)

@[simp] theorem origin_setRoute (c' : String) (route : Route) :
    origin n ((t, .setRoute c' route) :: past) =
      if n = route.nonce then some c' else origin n past := rfl

@[simp] theorem kept_setRoute (c' : String) (route : Route) :
    kept c n ((t, .setRoute c' route) :: past) now =
      if c = c' then
        if now ≤ t + ROUTES_EXPIRATION_TIME then
          if n = route.nonce then some route else kept c n past t
        else none
      else kept c n past now := rfl

end

end RouteHistory

structure RoutePair (Text : Type) where
  memory : RouteStore
  redis : Redis.Store Text
  now : Nat
  past : RouteHistory

namespace RoutePair
variable {Text : Type} (conversations : SerdeJson Text Conversation) (routes : SerdeJson Text Route)

def start : RoutePair Text := ⟨RouteStore.empty, ∅, 0, []⟩

/-- The memory is swept at every instant, so that it holds nothing stale when an operation comes. -/
def tick (elapsed : Nat) (p : RoutePair Text) : RoutePair Text :=
  { p with memory := p.memory.killExpired (p.now + elapsed), now := p.now + elapsed }

def apply (p : RoutePair Text) (op : RouteOp) : RoutePair Text where
  memory := (op.inMemory p.now p.memory).2
  redis := (op.inRedis conversations routes p.now p.redis).2
  now := p.now
  past := (p.now, op) :: p.past

def step (p : RoutePair Text) (call : Nat × RouteOp) : Option (RoutePair Text) :=
  some ((p.tick call.1).apply conversations routes call.2)

def AgreeNow (p : RoutePair Text) (op : RouteOp) : Prop :=
  (op.inMemory p.now p.memory).1 = (op.inRedis conversations routes p.now p.redis).1

def Agree (p : RoutePair Text) (call : Nat × RouteOp) : Prop :=
  (p.tick call.1).AgreeNow conversations routes call.2

/-- A conversation set again, a route stored without its conversation or under a nonce in use, a
conversation gone from memory that a later route has kept alive in Redis, a route asked for by
another conversation than its own, or one gone from memory that its conversation's hash has kept. -/
def DivergesNow (p : RoutePair Text) : RouteOp → Prop
  | .setConversation v => ∃ w, p.memory.conversations.lookup v.id = some w
  | .setRoute c route =>
    p.memory.conversations.lookup c = none ∨ ∃ w, p.memory.routes.lookup route.nonce = some w
  | .getConversation c => p.memory.conversations.lookup c = none ∧
      ∃ t, p.past.refreshed c = some t ∧ p.now ≤ t + CONVERSATIONS_EXPIRATION_TIME
  | .getRoute c n =>
    (∃ w, p.memory.routes.lookup n = some w ∧ p.past.origin n ≠ some c ∧
        p.past.kept c n p.now ≠ some w.value) ∨
      p.memory.routes.lookup n = none ∧ ∃ route, p.past.kept c n p.now = some route
  | _ => False

def Diverges (p : RoutePair Text) (call : Nat × RouteOp) : Prop :=
  (p.tick call.1).DivergesNow call.2

variable {conversations routes}

structure Shaped (conversations : SerdeJson Text Conversation) (s : Redis.Store Text) : Prop where
  strings : ∀ c e, s.lookup (RedisRepository.getConversationKey c) = some e →
    ∃ v, e.value = .string (conversations.toString v)
  hashes : ∀ c, Store.IsHash (RedisRepository.getRoutesKey c) s

structure Synced (conversations : SerdeJson Text Conversation) (routes : SerdeJson Text Route)
    (p : RoutePair Text) : Prop where
  shaped : Shaped conversations p.redis
  refreshed : ∀ c now, p.now ≤ now →
    ((p.redis.live now (RedisRepository.getConversationKey c)).isSome = true ↔
      ∃ t, p.past.refreshed c = some t ∧ now ≤ t + CONVERSATIONS_EXPIRATION_TIME)
  kept : ∀ c n now, p.now ≤ now →
    (p.redis.fields now (RedisRepository.getRoutesKey c)).lookup n =
      (p.past.kept c n now).map routes.toString
  conversations : ∀ c w, p.memory.conversations.lookup c = some w →
    w.expiresAt ≤ p.now + CONVERSATIONS_EXPIRATION_TIME ∧ ∀ now, p.now ≤ now → now ≤ w.expiresAt →
      p.redis.get now (RedisRepository.getConversationKey c) =
        some (some (conversations.toString w.value))
  routes : ∀ n w, p.memory.routes.lookup n = some w →
    w.expiresAt ≤ p.now + ROUTES_EXPIRATION_TIME ∧ ∃ c, p.past.origin n = some c ∧
      ∀ now, p.now ≤ now → now ≤ w.expiresAt → p.past.kept c n now = some w.value

structure Swept (p : RoutePair Text) : Prop where
  conversations : ∀ c w, p.memory.conversations.lookup c = some w → p.now ≤ w.expiresAt
  routes : ∀ n w, p.memory.routes.lookup n = some w → p.now ≤ w.expiresAt

theorem not_isExpired {α : Type} {now : Nat} {w : ExpirationWrapper α} :
    (!w.isExpired now) = true ↔ now ≤ w.expiresAt := by
  simp [ExpirationWrapper.isExpired]

theorem swept_tick (p : RoutePair Text) (elapsed : Nat) : (p.tick elapsed).Swept := by
  constructor
  · intro c w hw
    have hkept := (AList.lookup_retain_eq_some.mp hw).2
    exact not_isExpired.mp hkept
  · intro n w hw
    have hkept := (AList.lookup_retain_eq_some.mp hw).2
    exact not_isExpired.mp hkept

theorem Synced.tick {p : RoutePair Text} (h : Synced conversations routes p) (elapsed : Nat) :
    Synced conversations routes (p.tick elapsed) := by
  have hlater : ∀ {now : Nat}, p.now + elapsed ≤ now → p.now ≤ now := fun hnow => by omega
  constructor
  case shaped => exact h.shaped
  case refreshed => exact fun c now hnow => h.refreshed c now (hlater hnow)
  case kept => exact fun c n now hnow => h.kept c n now (hlater hnow)
  case conversations =>
    intro c w hw
    obtain ⟨hbound, hsame⟩ := h.conversations c w (AList.lookup_retain_eq_some.mp hw).1
    have hbound' : w.expiresAt ≤ p.now + elapsed + CONVERSATIONS_EXPIRATION_TIME := by omega
    exact ⟨hbound', fun now hnow => hsame now (hlater hnow)⟩
  case routes =>
    intro n w hw
    obtain ⟨hbound, c, horigin, hsame⟩ := h.routes n w (AList.lookup_retain_eq_some.mp hw).1
    have hbound' : w.expiresAt ≤ p.now + elapsed + ROUTES_EXPIRATION_TIME := by omega
    exact ⟨hbound', c, horigin, fun now hnow => hsame now (hlater hnow)⟩

section answers
variable {p : RoutePair Text}

theorem Shaped.getConversation {s : Redis.Store Text} (h : Shaped conversations s) (now : Nat)
    (c : String) :
    (s.live now (RedisRepository.getConversationKey c)).isSome = false ∧
        RedisRepository.getConversation conversations now c s = some none ∨
      (s.live now (RedisRepository.getConversationKey c)).isSome = true ∧
        ∃ v, RedisRepository.getConversation conversations now c s = some (some v) := by
  cases hl : s.live now (RedisRepository.getConversationKey c) with
  | none =>
    refine .inl ⟨rfl, ?_⟩
    rw [RedisRepository.getConversation, Store.get, hl]
    rfl
  | some e =>
    obtain ⟨v, hv⟩ := h.strings c e (Store.live_eq_some hl)
    obtain ⟨w, t⟩ := e
    cases hv
    refine .inr ⟨rfl, v, ?_⟩
    rw [RedisRepository.getConversation, Store.get, hl]
    exact congrArg (Option.map some) (conversations.fromStr_toString v)

theorem Synced.getConversation (h : Synced conversations routes p) (hs : p.Swept) {c : String}
    {w : ExpirationWrapper Conversation} (hw : p.memory.conversations.lookup c = some w) :
    RedisRepository.getConversation conversations p.now c p.redis = some (some w.value) := by
  have hget := (h.conversations c w hw).2 p.now le_rfl (hs.conversations c w hw)
  rw [RedisRepository.getConversation, hget]
  exact congrArg (Option.map some) (conversations.fromStr_toString w.value)

theorem Synced.getRoute (h : Synced conversations routes p) (c n : String) :
    RedisRepository.getRoute routes p.now c n p.redis = some (p.past.kept c n p.now) := by
  rw [RedisRepository.getRoute, Store.hget_eq_fields (h.shaped.hashes c), h.kept c n p.now le_rfl]
  cases p.past.kept c n p.now with
  | none => rfl
  | some route => exact congrArg (Option.map some) (routes.fromStr_toString route)

theorem Synced.agree_setRoute (h : Synced conversations routes p) (hs : p.Swept) (c : String)
    (route : Route) : p.AgreeNow conversations routes (.setRoute c route) ↔
      ¬ p.DivergesNow (.setRoute c route) := by
  have hanswer : p.AgreeNow conversations routes (.setRoute c route) ↔
      RouteAnswer.stored (p.memory.setRoute p.now c route).1 =
        (RedisRepository.setRoute conversations routes p.now c route p.redis).1.elim
          .panic .stored := Iff.rfl
  have hstores : ∀ v, RedisRepository.getConversation conversations p.now c p.redis =
      some (some v) → (RedisRepository.setRoute conversations routes p.now c route p.redis).1 =
        some (some route.nonce) := by
    intro v hv
    have hdone := (RedisRepository.lookup_storeRoute routes conversations (h.shaped.hashes c) p.now
      (v.pushRoute route) route).1
    rw [RedisRepository.setRoute_of_read routes route hv, hdone, Option.map_some]
  rw [hanswer, DivergesNow, not_or]
  constructor
  · intro ha
    have hstored : (p.memory.setRoute p.now c route).1 = some route.nonce := by
      rcases h.shaped.getConversation p.now c with ⟨-, hget⟩ | ⟨-, v, hget⟩
      · rw [RedisRepository.setRoute, hget] at ha
        contradiction
      · rw [hstores v hget] at ha
        exact RouteAnswer.stored.inj ha
    obtain ⟨-, hfresh, w, hw⟩ := RouteStore.setRoute_eq_some.mp hstored
    constructor
    · rw [hw]
      exact Option.some_ne_none w
    · rintro ⟨w', hw'⟩
      rw [hfresh] at hw'
      contradiction
  · rintro ⟨hthere, hfresh⟩
    obtain ⟨w, hw⟩ := Option.ne_none_iff_exists'.mp hthere
    have hfresh : p.memory.routes.lookup route.nonce = none := by
      rw [Option.eq_none_iff_forall_ne_some]
      exact fun w' hw' => hfresh ⟨w', hw'⟩
    have hm : (p.memory.setRoute p.now c route).1 = some route.nonce :=
      RouteStore.setRoute_eq_some.mpr ⟨rfl, hfresh, w, hw⟩
    rw [hm, hstores w.value (h.getConversation hs hw), Option.elim_some]

theorem Synced.agree_getConversation (h : Synced conversations routes p) (hs : p.Swept)
    (c : String) : p.AgreeNow conversations routes (.getConversation c) ↔
      ¬ p.DivergesNow (.getConversation c) := by
  have hanswer : p.AgreeNow conversations routes (.getConversation c) ↔
      RouteAnswer.conversation (p.memory.getConversation c) =
        (RedisRepository.getConversation conversations p.now c p.redis).elim
          .panic .conversation := Iff.rfl
  rw [hanswer, DivergesNow, ← h.refreshed c p.now le_rfl, RouteStore.getConversation]
  cases hm : p.memory.conversations.lookup c with
  | some w =>
    rw [h.getConversation hs hm]
    exact ⟨fun _ hd => Option.some_ne_none w hd.1, fun _ => rfl⟩
  | none =>
    rcases h.shaped.getConversation p.now c with ⟨hgone, hget⟩ | ⟨hthere, v, hget⟩
    · rw [hget, hgone]
      exact ⟨fun _ hd => Bool.false_ne_true hd.2, fun _ => rfl⟩
    · rw [hget]
      constructor
      · intro ha
        exact absurd (RouteAnswer.conversation.inj ha).symm (Option.some_ne_none _)
      · exact fun hd => absurd ⟨rfl, hthere⟩ hd

theorem Synced.agree_getRoute (h : Synced conversations routes p) (hs : p.Swept) (c n : String) :
    p.AgreeNow conversations routes (.getRoute c n) ↔ ¬ p.DivergesNow (.getRoute c n) := by
  have hanswer : p.AgreeNow conversations routes (.getRoute c n) ↔
      RouteAnswer.route (p.memory.getRoute c n) =
        (RedisRepository.getRoute routes p.now c n p.redis).elim .panic .route := Iff.rfl
  rw [hanswer, h.getRoute, Option.elim_some, RouteAnswer.route.injEq, DivergesNow,
    RouteStore.getRoute]
  cases hm : p.memory.routes.lookup n with
  | some w =>
    -- Redis has the route for the conversation it was stored for, whichever is asked for
    obtain ⟨-, c', horigin, hkept⟩ := h.routes n w hm
    have hsame := hkept p.now le_rfl (hs.routes n w hm)
    constructor
    · rintro ha (⟨w', hw', -, hne⟩ | ⟨hnone, -⟩)
      · cases hw'
        exact hne ha.symm
      · contradiction
    · intro hd
      rw [not_or] at hd
      by_cases hc : c' = c
      · rw [← hc, hsame]
        rfl
      · have hother : p.past.origin n ≠ some c := by
          rw [horigin]
          exact fun he => hc (Option.some.inj he)
        by_contra hne
        exact hd.1 ⟨w, rfl, hother, fun he => hne he.symm⟩
  | none =>
    cases hk : p.past.kept c n p.now with
    | none =>
      refine ⟨fun _ hd => ?_, fun _ => rfl⟩
      rcases hd with ⟨w, hw, -⟩ | ⟨-, route, hroute⟩
      · contradiction
      · contradiction
    | some route =>
      constructor
      · intro ha
        contradiction
      · exact fun hd => absurd (.inr ⟨rfl, route, rfl⟩) hd

theorem Synced.agree_iff (h : Synced conversations routes p) (hs : p.Swept) (op : RouteOp) :
    p.AgreeNow conversations routes op ↔ ¬ p.DivergesNow op := by
  cases op with
  | setConversation v =>
    change RouteAnswer.stored (p.memory.setConversation p.now v).1 = .stored (some v.id) ↔
      ¬ ∃ w, p.memory.conversations.lookup v.id = some w
    rw [RouteStore.setConversation]
    cases p.memory.conversations.lookup v.id <;> simp
  | removeConversation c => exact ⟨fun _ hd => hd, fun _ => rfl⟩
  | getConversation c => exact h.agree_getConversation hs c
  | setRoute c route => exact h.agree_setRoute hs c route
  | getRoute c n => exact h.agree_getRoute hs c n
  | removeRoute n =>
    refine ⟨fun _ hd => hd, fun _ => ?_⟩
    obtain ⟨s', hdel⟩ := Option.isSome_iff_exists.mp
      (Store.hdel_isSome (h.shaped.hashes n) p.now n)
    have hremoved : (RedisRepository.removeRoute p.now n p.redis).1 = some () := by
      simp only [RedisRepository.removeRoute, hdel, Option.map_some]
    change RouteAnswer.done = (RedisRepository.removeRoute p.now n p.redis).1.elim .panic _
    rw [hremoved]
    rfl

end answers

/-! What each operation makes of the two repositories. -/

section kept
variable {p : RoutePair Text}

theorem Shaped.of_lookup {s s' : Redis.Store Text} (h : Shaped conversations s)
    (hall : ∀ key e, s'.lookup key = some e → s.lookup key = some e ∨
      (∃ c v, key = RedisRepository.getConversationKey c ∧
          e.value = .string (conversations.toString v)) ∨
        ∃ c fields, key = RedisRepository.getRoutesKey c ∧ e.value = .hash fields) :
    Shaped conversations s' := by
  constructor
  · intro c e he
    rcases hall _ e he with he | ⟨c', v, -, hv⟩ | ⟨c', fields, hk, -⟩
    · exact h.strings c e he
    · exact ⟨v, hv⟩
    · exact absurd hk (RedisRepository.getConversationKey_ne _ _)
  · intro c e he
    rcases hall _ e he with he | ⟨c', v, hk, -⟩ | ⟨c', fields, -, hv⟩
    · exact h.hashes c e he
    · exact absurd hk.symm (RedisRepository.getConversationKey_ne _ _)
    · exact ⟨fields, hv⟩

theorem shaped_setEx {s : Redis.Store Text} (h : Shaped conversations s) (now : Nat) (c : String)
    (v : Conversation) (seconds : Nat) : Shaped conversations
      (s.setEx now (RedisRepository.getConversationKey c) (conversations.toString v) seconds) := by
  refine h.of_lookup fun key e he => ?_
  rw [Store.lookup_setEx] at he
  split_ifs at he with hk
  · cases he
    exact .inr (.inl ⟨c, v, hk, rfl⟩)
  · exact .inl he

theorem shaped_del {s : Redis.Store Text} (h : Shaped conversations s) (key : String) :
    Shaped conversations (s.del key) :=
  h.of_lookup fun _ _ he => .inl (AList.lookup_erase_eq_some.mp he).2

def Rewritten (p : RoutePair Text) (c : String) (text : Text) (redis : Redis.Store Text) : Prop :=
  ∀ now c', redis.live now (RedisRepository.getConversationKey c') =
    if c' = c then
      if now ≤ p.now + CONVERSATIONS_EXPIRATION_TIME then
        some ⟨.string text, some (p.now + CONVERSATIONS_EXPIRATION_TIME)⟩
      else none
    else p.redis.live now (RedisRepository.getConversationKey c')

theorem rewritten_setEx {redis : Redis.Store Text} (c : String) (text : Text)
    (h : ∀ now c', redis.live now (RedisRepository.getConversationKey c') =
      p.redis.live now (RedisRepository.getConversationKey c')) :
    p.Rewritten c text (redis.setEx p.now (RedisRepository.getConversationKey c) text
      (CONVERSATIONS_EXPIRATION_TIME / 1000)) := by
  intro now c'
  rw [Store.live_setEx, h]
  by_cases hc : c' = c
  · rw [if_pos (congrArg _ hc), if_pos hc]
    rfl
  · rw [if_neg fun hk => hc (RedisRepository.getConversationKey_inj hk), if_neg hc]

theorem Synced.refreshed_rewritten (h : Synced conversations routes p) {c : String} {text : Text}
    {redis : Redis.Store Text} (hw : p.Rewritten c text redis) (c' : String) (now : Nat)
    (hnow : p.now ≤ now) :
    (redis.live now (RedisRepository.getConversationKey c')).isSome = true ↔
      ∃ t, (if c' = c then some p.now else p.past.refreshed c') = some t ∧
        now ≤ t + CONVERSATIONS_EXPIRATION_TIME := by
  rw [hw]
  by_cases hc : c' = c
  · rw [if_pos hc, if_pos hc]
    split_ifs with hin
    · exact ⟨fun _ => ⟨p.now, rfl, hin⟩, fun _ => rfl⟩
    · refine ⟨fun hsome => (nomatch hsome), ?_⟩
      rintro ⟨t, ht, hle⟩
      cases ht
      exact absurd hle hin
  · rw [if_neg hc, if_neg hc]
    exact h.refreshed c' now hnow

theorem Rewritten.get {c : String} {text : Text} {redis : Redis.Store Text}
    (h : p.Rewritten c text redis) {now : Nat} (hnow : now ≤ p.now + CONVERSATIONS_EXPIRATION_TIME) :
    redis.get now (RedisRepository.getConversationKey c) = some (some text) := by
  rw [Store.get, h, if_pos rfl, if_pos hnow]

theorem Rewritten.get_ne {c c' : String} {text : Text} {redis : Redis.Store Text}
    (h : p.Rewritten c text redis) (hc : c' ≠ c) (now : Nat) :
    redis.get now (RedisRepository.getConversationKey c') =
      p.redis.get now (RedisRepository.getConversationKey c') := by
  rw [Store.get, h, if_neg hc, Store.get]

theorem Synced.setConversation (h : Synced conversations routes p) (v : Conversation) :
    Synced conversations routes (p.apply conversations routes (.setConversation v)) := by
  have hrewritten : p.Rewritten v.id (conversations.toString v)
      (p.apply conversations routes (.setConversation v)).redis :=
    rewritten_setEx _ _ fun _ _ => rfl
  constructor
  case shaped => exact shaped_setEx h.shaped _ _ _ _
  case refreshed => exact h.refreshed_rewritten hrewritten
  case kept =>
    intro c n now hnow
    have hroutes : (p.apply conversations routes (.setConversation v)).redis.lookup
        (RedisRepository.getRoutesKey c) = p.redis.lookup (RedisRepository.getRoutesKey c) :=
      AList.lookup_insert_ne fun hk => RedisRepository.getConversationKey_ne _ _ hk.symm
    rw [Store.fields_congr hroutes]
    exact h.kept c n now hnow
  case conversations =>
    intro c w hw
    rcases AList.lookup_insert_eq_some.mp hw with ⟨rfl, rfl⟩ | ⟨hc, hw⟩
    · exact ⟨le_rfl, fun now _ hle => hrewritten.get hle⟩
    · obtain ⟨hbound, hsame⟩ := h.conversations c w hw
      refine ⟨hbound, fun now hnow hle => ?_⟩
      rw [hrewritten.get_ne hc]
      exact hsame now hnow hle
  case routes => exact h.routes

theorem Synced.removeConversation (h : Synced conversations routes p) (c : String) :
    Synced conversations routes (p.apply conversations routes (.removeConversation c)) := by
  let redis := (p.apply conversations routes (.removeConversation c)).redis
  have hother : ∀ key, key ≠ RedisRepository.getConversationKey c →
      redis.lookup key = p.redis.lookup key := fun key hk => AList.lookup_erase_ne hk
  constructor
  case shaped => exact shaped_del h.shaped _
  case refreshed =>
    intro c' now hnow
    change (redis.live now _).isSome = true ↔
      ∃ t, (if c' = c then none else p.past.refreshed c') = some t ∧ _
    by_cases hc : c' = c
    · have hgone : redis.live now (RedisRepository.getConversationKey c) = none :=
        Store.live_of_lookup_none (AList.lookup_erase _ p.redis)
      rw [hc, hgone, if_pos rfl]
      exact ⟨fun hsome => (nomatch hsome), fun ⟨_, ht, _⟩ => (nomatch ht)⟩
    · rw [if_neg hc,
        Store.live_congr (hother _ fun hk => hc (RedisRepository.getConversationKey_inj hk))]
      exact h.refreshed c' now hnow
  case kept =>
    intro c' n now hnow
    change (redis.fields now _).lookup n = _
    rw [Store.fields_congr (hother _ fun hk => RedisRepository.getConversationKey_ne _ _ hk.symm)]
    exact h.kept c' n now hnow
  case conversations =>
    intro c' w hw
    obtain ⟨hc, hw⟩ := AList.lookup_erase_eq_some.mp hw
    obtain ⟨hbound, hsame⟩ := h.conversations c' w hw
    refine ⟨hbound, fun now hnow hle => ?_⟩
    change redis.get now _ = _
    rw [Store.get,
      Store.live_congr (hother _ fun hk => hc (RedisRepository.getConversationKey_inj hk))]
    exact hsame now hnow hle
  case routes => exact h.routes

theorem Synced.kept_stored (h : Synced conversations routes p) {c : String} {route : Route}
    {redis : Redis.Store Text}
    (hstored : redis.lookup (RedisRepository.getRoutesKey c) =
      some ⟨.hash ((p.redis.fields p.now (RedisRepository.getRoutesKey c)).insert route.nonce
        (routes.toString route)), some (p.now + ROUTES_EXPIRATION_TIME)⟩)
    (hothers : ∀ c', c' ≠ c → redis.lookup (RedisRepository.getRoutesKey c') =
      p.redis.lookup (RedisRepository.getRoutesKey c')) (c' n : String) (now : Nat)
    (hnow : p.now ≤ now) :
    (redis.fields now (RedisRepository.getRoutesKey c')).lookup n =
      (RouteHistory.kept c' n ((p.now, .setRoute c route) :: p.past) now).map routes.toString := by
  rw [RouteHistory.kept_setRoute]
  by_cases hc : c' = c
  · rw [if_pos hc, hc, Store.fields, Store.live_timed hstored]
    by_cases hin : now ≤ p.now + ROUTES_EXPIRATION_TIME
    · -- the hash has been renewed: it holds the route, and what it held when the route came
      rw [if_pos hin, if_pos hin]
      dsimp only
      rw [AList.lookup_insert_eq_ite, h.kept c n p.now le_rfl]
      split_ifs <;> rfl
    · rw [if_neg hin, if_neg hin]
      rfl
  · rw [if_neg hc, Store.fields_congr (hothers c' hc)]
    exact h.kept c' n now hnow

theorem Synced.setRoute (h : Synced conversations routes p) (hs : p.Swept) {c : String}
    {route : Route} (hd : ¬ p.DivergesNow (.setRoute c route)) :
    Synced conversations routes (p.apply conversations routes (.setRoute c route)) := by
  obtain ⟨hthere, hfresh⟩ := not_or.mp hd
  obtain ⟨w₀, hw₀⟩ := Option.ne_none_iff_exists'.mp hthere
  have hfresh : p.memory.routes.lookup route.nonce = none := by
    rw [Option.eq_none_iff_forall_ne_some]
    exact fun w' hw' => hfresh ⟨w', hw'⟩
  let text := conversations.toString (w₀.value.pushRoute route)
  let redis := (p.apply conversations routes (.setRoute c route)).redis
  have hredis : redis = (RedisRepository.storeRoute conversations routes p.now c
      (w₀.value.pushRoute route) route p.redis).2 :=
    congrArg Prod.snd (RedisRepository.setRoute_of_read routes route (h.getConversation hs hw₀))
  obtain ⟨-, hlookup⟩ := RedisRepository.lookup_storeRoute routes conversations (h.shaped.hashes c)
    p.now (w₀.value.pushRoute route) route
  rw [← hredis] at hlookup
  have hconversation : redis.lookup (RedisRepository.getConversationKey c) =
      some ⟨.string text, some (p.now + CONVERSATIONS_EXPIRATION_TIME)⟩ :=
    (hlookup _).trans (if_pos rfl)
  have hroutes : ∀ c', redis.lookup (RedisRepository.getRoutesKey c') = _ := fun c' =>
    (hlookup _).trans (if_neg fun hk => RedisRepository.getConversationKey_ne _ _ hk.symm)
  have hrewritten : p.Rewritten c text redis := by
    intro now c'
    by_cases hc : c' = c
    · rw [if_pos hc, hc, Store.live_timed hconversation]
    · rw [if_neg hc]
      apply Store.live_congr
      rw [hlookup, if_neg fun hk => hc (RedisRepository.getConversationKey_inj hk),
        if_neg (RedisRepository.getConversationKey_ne _ _)]
  have hmemory : (p.apply conversations routes (.setRoute c route)).memory.conversations =
      p.memory.conversations.modify c fun w => { w with value := w.value.pushRoute route } :=
    RouteStore.conversations_setRoute hfresh
  have hmemory' : (p.apply conversations routes (.setRoute c route)).memory.routes =
      p.memory.routes.insert route.nonce (ExpirationWrapper.new p.now route ROUTES_EXPIRATION_TIME) :=
    RouteStore.routes_setRoute ..
  constructor
  case shaped =>
    refine h.shaped.of_lookup fun key e he => ?_
    rw [hlookup] at he
    split_ifs at he with hk hk'
    · cases he
      exact .inr (.inl ⟨c, _, hk, rfl⟩)
    · cases he
      exact .inr (.inr ⟨c, _, hk', rfl⟩)
    · exact .inl he
  case refreshed => exact h.refreshed_rewritten hrewritten
  case kept =>
    apply h.kept_stored
    · exact (hroutes c).trans (if_pos rfl)
    · intro c' hc
      exact (hroutes c').trans (if_neg fun hk => hc (RedisRepository.getRoutesKey_inj hk))
  case conversations =>
    intro c' w hw
    rw [hmemory, AList.lookup_modify_eq_some] at hw
    rcases hw with ⟨rfl, w₁, hw₁, rfl⟩ | ⟨hc, hw⟩
    · -- the route does not extend the life of the conversation in memory
      cases hw₀.symm.trans hw₁
      obtain ⟨hbound, -⟩ := h.conversations c' w₀ hw₀
      exact ⟨hbound, fun now _ hle => hrewritten.get (hle.trans hbound)⟩
    · obtain ⟨hbound, hsame⟩ := h.conversations c' w hw
      refine ⟨hbound, fun now hnow hle => ?_⟩
      exact (hrewritten.get_ne hc now).trans (hsame now hnow hle)
  case routes =>
    intro n w hw
    change _ ∧ ∃ c', RouteHistory.origin n ((p.now, .setRoute c route) :: p.past) = some c' ∧
      ∀ now, p.now ≤ now → now ≤ w.expiresAt →
        RouteHistory.kept c' n ((p.now, .setRoute c route) :: p.past) now = some w.value
    simp only [RouteHistory.origin_setRoute, RouteHistory.kept_setRoute]
    rw [hmemory'] at hw
    rcases AList.lookup_insert_eq_some.mp hw with ⟨rfl, rfl⟩ | ⟨hn, hw⟩
    · refine ⟨le_rfl, c, if_pos rfl, fun now _ hle => ?_⟩
      have hin : now ≤ p.now + ROUTES_EXPIRATION_TIME := hle
      rw [if_pos rfl, if_pos hin, if_pos rfl]
      rfl
    · obtain ⟨hbound, c', horigin, hsame⟩ := h.routes n w hw
      refine ⟨hbound, c', by rw [if_neg hn, horigin], fun now hnow hle => ?_⟩
      rw [if_neg hn, if_pos (hle.trans hbound)]
      -- a hash that is renewed keeps what it has now
      split_ifs
      · exact hsame p.now le_rfl (hs.routes n w hw)
      · exact hsame now hnow hle

theorem Synced.removeRoute (h : Synced conversations routes p) (n : String) :
    Synced conversations routes (p.apply conversations routes (.removeRoute n)) := by
  obtain ⟨redis, hdel⟩ := Option.isSome_iff_exists.mp
    (Store.hdel_isSome (h.shaped.hashes n) p.now n)
  have hredis : (p.apply conversations routes (.removeRoute n)).redis = redis := by
    change (RedisRepository.removeRoute p.now n p.redis).2 = redis
    simp only [RedisRepository.removeRoute, hdel, Option.getD_some]
  have hconversations : ∀ c, redis.lookup (RedisRepository.getConversationKey c) =
      p.redis.lookup (RedisRepository.getConversationKey c) :=
    fun c => Store.lookup_hdel_ne hdel (RedisRepository.getConversationKey_ne _ _)
  constructor
  case shaped =>
    rw [hredis]
    refine h.shaped.of_lookup fun key e he => ?_
    rcases Store.lookup_hdel hdel he with he | ⟨rfl, fields, -, -, hv⟩
    · exact .inl he
    · exact .inr (.inr ⟨n, _, rfl, hv⟩)
  case refreshed =>
    intro c now hnow
    rw [hredis, Store.live_congr (hconversations c)]
    exact h.refreshed c now hnow
  case kept =>
    intro c n' now hnow
    rw [hredis]
    change _ = Option.map _ (if c = n ∧ n' = n then none else p.past.kept c n' now)
    by_cases hc : c = n
    · rw [hc, Store.fields_hdel (h.shaped.hashes n) hdel hnow, h.kept n n' now hnow]
      by_cases hn : n' = n
      · rw [if_pos hn, if_pos ⟨rfl, hn⟩]
        rfl
      · rw [if_neg hn, if_neg fun hx => hn hx.2]
    · rw [if_neg fun hx => hc hx.1, Store.fields_congr (Store.lookup_hdel_ne hdel
        fun hk => hc (RedisRepository.getRoutesKey_inj hk))]
      exact h.kept c n' now hnow
  case conversations =>
    intro c w hw
    obtain ⟨hbound, hsame⟩ := h.conversations c w hw
    refine ⟨hbound, fun now hnow hle => ?_⟩
    rw [hredis, Store.get, Store.live_congr (hconversations c)]
    exact hsame now hnow hle
  case routes =>
    -- a route the memory still holds has another nonce, and its field stays
    intro n' w hw
    obtain ⟨hn, hw⟩ := AList.lookup_erase_eq_some.mp hw
    obtain ⟨hbound, c, horigin, hsame⟩ := h.routes n' w hw
    refine ⟨hbound, c, horigin, fun now hnow hle => ?_⟩
    exact (if_neg fun hx => hn hx.2).trans (hsame now hnow hle)

end kept

theorem synced_step {p p' : RoutePair Text} (h : Synced conversations routes p)
    {call : Nat × RouteOp} (ha : p.Agree conversations routes call)
    (hp : p.step conversations routes call = some p') : Synced conversations routes p' := by
  obtain ⟨elapsed, op⟩ := call
  cases hp
  have ht := h.tick elapsed
  have hs := p.swept_tick elapsed
  have hd := (ht.agree_iff hs op).mp ha
  cases op with
  | setConversation v => exact ht.setConversation v
  | removeConversation c => exact ht.removeConversation c
  | setRoute c route => exact ht.setRoute hs hd
  | removeRoute n => exact ht.removeRoute n
  -- reading changes nothing but the history, and that only where it is not looked at
  | getConversation c | getRoute c n =>
    exact ⟨ht.shaped, ht.refreshed, ht.kept, ht.conversations, ht.routes⟩

theorem synced_start : Synced conversations routes start where
  shaped := ⟨fun _ _ he => (nomatch he), fun _ _ he => (nomatch he)⟩
  refreshed _ _ _ := ⟨fun h => (nomatch h), fun ⟨_, h, _⟩ => (nomatch h)⟩
  kept _ _ _ _ := rfl
  conversations _ _ h := nomatch h
  routes _ _ h := nomatch h

/-- The two repositories answer a timed sequence of operations alike exactly when none of them
diverges. -/
theorem alike_iff {Text : Type} (conversations : SerdeJson Text Conversation)
    (routes : SerdeJson Text Route) (calls : List (Nat × RouteOp)) :
    Each (step conversations routes) (Agree conversations routes) start calls ↔
      Each (step conversations routes) (fun p call => ¬ p.Diverges call) start calls := by
  have hsame : ∀ (p : RoutePair Text) (call : Nat × RouteOp), Synced conversations routes p →
      (p.Agree conversations routes call ↔ ¬ p.Diverges call) := fun p call hs =>
    (hs.tick call.1).agree_iff (p.swept_tick call.1) call.2
  exact each_congr (fun _ _ _ hs ha hp => synced_step hs ha hp) hsame synced_start

/-- A route that has been removed is in Redis still, in a hash of another name. -/
theorem not_alike : ¬ ∀ calls : List (Nat × RouteOp),
    Each (step RedisRun.plainConversation RedisRun.plainRoute)
      (Agree RedisRun.plainConversation RedisRun.plainRoute) start calls := by
  intro hall
  have h := hall [(0, .setConversation (Conversation.new "c1" "alice" "bob" 1)),
    (0, .setRoute "c1" (RouteManager.storedRoute "n1" ⟨"10.0.0.1", 50051, "north", [1]⟩ false)),
    (0, .removeRoute "n1"), (0, .getRoute "c1" "n1")]
  have hlast := (((h.2 _ rfl).2 _ rfl).2 _ rfl).1
  unfold Agree AgreeNow at hlast
  exact absurd hlast (by decide)

end RoutePair
end FuzzyChat
