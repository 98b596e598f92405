import FuzzyChat.Controller.PathLength
import FuzzyChat.Controller.Expiry
import FuzzyChat.Retention

/-! The route repository over whole runs of its operations and sweeps: which conversations and routes
it has at the end, and for how long it keeps them. -/

namespace FuzzyChat
open Interleave

structure LedgerEntry where
  time : Nat
  op : RepoOp
  res : op.Res

/-- The storage, and what has been done to it, newest first. -/
structure Ledger where
  state : Storage
  done : List LedgerEntry

namespace Ledger

def carryOut (l : Ledger) (c : Choice) (op : RepoOp) : Ledger :=
  ⟨(l.state.step c op).2, ⟨l.state.now + c.elapsed, op, (l.state.step c op).1⟩ :: l.done⟩

/-- A conversation or a route comes under an identifier that no other has come under. -/
def Fresh (l : Ledger) (op : RepoOp) : Prop :=
  ∀ kind id, kind ≠ .accessKey → op.lodges = some (kind, id) →
    ∀ e ∈ l.done, e.op.lodges ≠ some (kind, id)

inductive Run (members : Table String Member) : Ledger → Prop
  | start : Run members ⟨Storage.start members, []⟩
  | step {l : Ledger} {op : RepoOp} (hl : Run members l) (c : Choice) (hop : l.Fresh op) :
      Run members (l.carryOut c op)

end Ledger

def LedgerEntry.issue? (c : String) (e : LedgerEntry) : Option Route :=
  (routeIssued? e.op e.res).bind fun x => if x.1 = c then some x.2 else none

def issuedFor (c : String) (done : List LedgerEntry) : List Route :=
  done.reverse.filterMap (LedgerEntry.issue? c)

/-- Nothing that has been done since has taken out a record put in at the given time: neither the
operation that does so nor a sweep that came too late for it. -/
def Spared (drops : RepoOp) (born expirationTime : Nat) (newer : List LedgerEntry) : Prop :=
  ∀ e ∈ newer, e.op ≠ drops ∧ (e.op = .killExpiredRoutes → e.time ≤ born + expirationTime)

theorem LedgerEntry.setRoute_of_issue {c : String} {e : LedgerEntry} {route : Route}
    (h : e.issue? c = some route) :
    e.op = .setRoute c route ∧ routeIssued? e.op e.res = some (c, route) := by
  obtain ⟨⟨c', route'⟩, hissued, hx⟩ := Option.bind_eq_some_iff.mp h
  dsimp only at hx
  split_ifs at hx with hc
  cases hx
  subst hc
  exact ⟨eq_setRoute_of_issued hissued, hissued⟩

/-! What each operation means for one conversation and for one route. -/

section acts
open Retention

def conversationAct (c : String) (e : LedgerEntry) : Act Conversation :=
  match e.op with
  | .setConversation v => if v.id = c then .put v else .spare
  | .removeConversation c' => if c' = c then .drop else .spare
  | .killExpiredRoutes => .sweep
  | .setRoute _ _ => (e.issue? c).elim .spare fun route => .change (Conversation.pushRoute route)
  | _ => .spare

def routeAct (n : String) (e : LedgerEntry) : Act Route :=
  match e.op with
  | .setRoute _ route => if route.nonce = n then .put route else .spare
  | .removeRoute n' => if n' = n then .drop else .spare
  | .killExpiredRoutes => .sweep
  | _ => .spare

def wrapped {α : Type} (expirationTime : Nat) (x : Nat × α) : ExpirationWrapper α :=
  ExpirationWrapper.new x.1 x.2 expirationTime

theorem map_kept_append {α : Type} {act : LedgerEntry → Act α} {ttl : Nat}
    {newer older : List LedgerEntry} {e : LedgerEntry} {b : α} {w : ExpirationWrapper α}
    (he : act e = .put b)
    (hnewer : ∀ e' ∈ newer, ∀ b', act e' ≠ .put b') :
    (kept ttl LedgerEntry.time act (newer ++ e :: older)).map (wrapped ttl) = some w ↔
      w = wrapped ttl (e.time, grown act newer b) ∧
        ∀ e' ∈ newer, (act e').Spares ttl e.time e'.time := by
  constructor
  · intro h
    obtain ⟨⟨born, a⟩, hkept, rfl⟩ := Option.map_eq_some_iff.mp h
    obtain ⟨rfl, rfl, hall⟩ := (kept_append he hnewer).mp hkept
    exact ⟨rfl, hall⟩
  · rintro ⟨rfl, hall⟩
    exact Option.map_eq_some_iff.mpr ⟨_, (kept_append he hnewer).mpr ⟨rfl, rfl, hall⟩, rfl⟩

theorem filter_wrapped {α : Type} (ttl now : Nat) (r : Option (Nat × α)) :
    (r.map (wrapped ttl)).filter (fun w => !w.isExpired now) =
      ((Act.sweep : Act α).apply ttl now r).map (wrapped ttl) := by
  cases r with
  | none => rfl
  | some x =>
    have hsame : (!(wrapped ttl x).isExpired now) = decide (now ≤ x.1 + ttl) := by
      rw [ExpirationWrapper.isExpired, ← decide_not]
      exact decide_eq_decide.mpr not_lt
    simp only [Option.map_some, Option.filter_some, Act.apply, hsame]
    split_ifs <;> rfl

@[simp] theorem issue?_stored (c n : String) (time : Nat) (route : Route) :
    LedgerEntry.issue? c ⟨time, .setRoute c route, some n⟩ = some route := if_pos rfl

@[simp] theorem issue?_refused (c c' : String) (time : Nat) (route : Route) :
    LedgerEntry.issue? c ⟨time, .setRoute c' route, none⟩ = none := rfl

theorem issue?_ne {c c' : String} (hc : c' ≠ c) (time : Nat) (route : Route)
    (res : Option String) : LedgerEntry.issue? c ⟨time, .setRoute c' route, res⟩ = none := by
  cases res with
  | none => rfl
  | some n => exact if_neg hc

theorem conversationAct_eq (c : String) (e : LedgerEntry) :
    (∀ v, conversationAct c e = .put v ↔ e.op = .setConversation v ∧ v.id = c) ∧
    (conversationAct c e = .drop ↔ e.op = .removeConversation c) ∧
    (conversationAct c e = .sweep ↔ e.op = .killExpiredRoutes) := by
  obtain ⟨time, op, res⟩ := e
  cases op with
  | setConversation v =>
    simp only [conversationAct]
    split_ifs with hc <;> simp [hc]
  | removeConversation c' =>
    simp only [conversationAct]
    split_ifs with hc <;> simp [hc]
  | setRoute c' route =>
    simp only [conversationAct]
    cases LedgerEntry.issue? c ⟨time, .setRoute c' route, res⟩ <;> simp
  | _ => simp [conversationAct]

theorem conversationAct_grow (c : String) (e : LedgerEntry) (v : Conversation) :
    (conversationAct c e).grow v = (e.issue? c).elim v fun route => v.pushRoute route := by
  obtain ⟨time, op, res⟩ := e
  cases op with
  | setConversation v' =>
    simp only [conversationAct]
    split_ifs <;> rfl
  | removeConversation c' =>
    simp only [conversationAct]
    split_ifs <;> rfl
  | setRoute c' route =>
    simp only [conversationAct]
    cases LedgerEntry.issue? c ⟨time, .setRoute c' route, res⟩ <;> rfl
  | _ => rfl

theorem issuedFor_cons (c : String) (e : LedgerEntry) (past : List LedgerEntry) :
    issuedFor c (e :: past) = issuedFor c past ++ (e.issue? c).toList := by
  rw [issuedFor, List.reverse_cons, List.filterMap_append]
  cases h : e.issue? c <;> simp [issuedFor, h]

theorem grown_conversation (c : String) (newer : List LedgerEntry) (v : Conversation) :
    grown (conversationAct c) newer v = { v with routes := v.routes ++ issuedFor c newer } := by
  induction newer with
  | nil => simp [grown, issuedFor]
  | cons e newer ih =>
    have hgrown : grown (conversationAct c) (e :: newer) v =
        (conversationAct c e).grow (grown (conversationAct c) newer v) := rfl
    rw [hgrown, ih, conversationAct_grow, issuedFor_cons]
    cases e.issue? c with
    | none => simp
    | some route => simp [Conversation.pushRoute]

theorem routeAct_grow (n : String) (e : LedgerEntry) (route : Route) :
    (routeAct n e).grow route = route := by
  obtain ⟨time, op, res⟩ := e
  cases op with
  | setRoute c route' =>
    simp only [routeAct]
    split_ifs <;> rfl
  | removeRoute n' =>
    simp only [routeAct]
    split_ifs <;> rfl
  | _ => rfl

theorem grown_route (n : String) (newer : List LedgerEntry) (route : Route) :
    grown (routeAct n) newer route = route := by
  induction newer with
  | nil => rfl
  | cons e newer ih =>
    have hgrown : grown (routeAct n) (e :: newer) route =
        (routeAct n e).grow (grown (routeAct n) newer route) := rfl
    rw [hgrown, ih, routeAct_grow]

theorem routeAct_eq (n : String) (e : LedgerEntry) :
    (∀ route, routeAct n e = .put route ↔ (∃ c, e.op = .setRoute c route) ∧ route.nonce = n) ∧
    (routeAct n e = .drop ↔ e.op = .removeRoute n) ∧
    (routeAct n e = .sweep ↔ e.op = .killExpiredRoutes) := by
  obtain ⟨time, op, res⟩ := e
  cases op with
  | setRoute c route =>
    simp only [routeAct]
    split_ifs with hn <;> simp [hn]
  | removeRoute n' =>
    simp only [routeAct]
    split_ifs with hn <;> simp [hn]
  | _ => simp [routeAct]

theorem lookup_conversation_act (s : Storage) (ch : Choice) (op : RepoOp) (c : String)
    {r : Option (Nat × Conversation)}
    (hr : s.routes.conversations.lookup c = r.map (wrapped CONVERSATIONS_EXPIRATION_TIME)) :
    (s.step ch op).2.routes.conversations.lookup c =
      ((conversationAct c ⟨s.now + ch.elapsed, op, (s.step ch op).1⟩).apply
        CONVERSATIONS_EXPIRATION_TIME (s.now + ch.elapsed) r).map
          (wrapped CONVERSATIONS_EXPIRATION_TIME) := by
  cases op with
  | setConversation v =>
    change (s.routes.conversations.insert v.id _).lookup c = _
    rw [AList.lookup_insert_eq_ite]
    by_cases hc : v.id = c
    · simp only [conversationAct, if_pos hc, if_pos hc.symm]
      rfl
    · simp only [conversationAct, if_neg hc, if_neg (Ne.symm hc)]
      exact hr
  | removeConversation c' =>
    change (s.routes.conversations.erase c').lookup c = _
    rw [AList.lookup_erase_eq_ite]
    by_cases hc : c' = c
    · simp only [conversationAct, if_pos hc, if_pos hc.symm]
      rfl
    · simp only [conversationAct, if_neg hc, if_neg (Ne.symm hc)]
      exact hr
  | setRoute c' route =>
    change (s.routes.setRoute (s.now + ch.elapsed) c' route).2.conversations.lookup c = _
    rw [Storage.step_setRoute]
    cases hroute : s.routes.routes.lookup route.nonce with
    | some w =>
      simp only [RouteStore.setRoute, hroute, Option.isSome_some, if_true]
      exact hr
    | none =>
      rw [RouteStore.conversations_setRoute hroute, AList.lookup_modify]
      by_cases hc : c' = c
      · subst hc
        rw [if_pos rfl, hr]
        cases r with
        | none =>
          simp only [RouteStore.setRoute, hroute, hr, conversationAct, Option.isSome_none,
            Bool.false_eq_true, if_false, Option.map_none, issue?_refused]
          rfl
        | some x =>
          simp only [RouteStore.setRoute, hroute, hr, conversationAct, Option.isSome_none,
            Bool.false_eq_true, if_false, Option.map_some, issue?_stored]
          rfl
      · simp only [conversationAct, issue?_ne hc, if_neg (Ne.symm hc)]
        exact hr
  | killExpiredRoutes =>
    change (s.routes.conversations.retain _).lookup c = _
    rw [AList.lookup_retain, hr]
    exact filter_wrapped _ _ _
  | _ => exact hr

theorem lookup_route_act (s : Storage) (ch : Choice) (op : RepoOp) (n : String)
    {r : Option (Nat × Route)}
    (hr : s.routes.routes.lookup n = r.map (wrapped ROUTES_EXPIRATION_TIME)) :
    (s.step ch op).2.routes.routes.lookup n =
      ((routeAct n ⟨s.now + ch.elapsed, op, (s.step ch op).1⟩).apply ROUTES_EXPIRATION_TIME
        (s.now + ch.elapsed) r).map (wrapped ROUTES_EXPIRATION_TIME) := by
  cases op with
  | setRoute c' route =>
    change (s.routes.setRoute (s.now + ch.elapsed) c' route).2.routes.lookup n = _
    rw [RouteStore.routes_setRoute, AList.lookup_insert_eq_ite]
    by_cases hn : route.nonce = n
    · simp only [routeAct, if_pos hn, if_pos hn.symm]
      rfl
    · simp only [routeAct, if_neg hn, if_neg (Ne.symm hn)]
      exact hr
  | removeRoute n' =>
    change (s.routes.routes.erase n').lookup n = _
    rw [AList.lookup_erase_eq_ite]
    by_cases hn : n' = n
    · simp only [routeAct, if_pos hn, if_pos hn.symm]
      rfl
    · simp only [routeAct, if_neg hn, if_neg (Ne.symm hn)]
      exact hr
  | killExpiredRoutes =>
    change (s.routes.routes.retain _).lookup n = _
    rw [AList.lookup_retain, hr]
    exact filter_wrapped _ _ _
  | _ => exact hr

end acts

namespace Ledger
open Retention

/-- The storage holds what the record of what has been done leaves of each conversation and each
route, and nothing else. -/
structure Faithful (l : Ledger) : Prop where
  conversations : ∀ c, l.state.routes.conversations.lookup c =
    (kept CONVERSATIONS_EXPIRATION_TIME LedgerEntry.time (conversationAct c) l.done).map
      (wrapped CONVERSATIONS_EXPIRATION_TIME)
  routes : ∀ n, l.state.routes.routes.lookup n =
    (kept ROUTES_EXPIRATION_TIME LedgerEntry.time (routeAct n) l.done).map
      (wrapped ROUTES_EXPIRATION_TIME)
  fresh : l.done.Pairwise fun e e' => ∀ kind id, kind ≠ .accessKey →
    e.op.lodges = some (kind, id) → e'.op.lodges ≠ some (kind, id)
  opened : ∀ newer e older c route, l.done = newer ++ e :: older → e.issue? c = some route →
    ∃ e₀ ∈ older, e₀.op.lodges = some (.conversationId, c)
  times : ∀ e ∈ l.done, e.time ≤ l.state.now

namespace Faithful
variable {l : Ledger} {newer older : List LedgerEntry} {e : LedgerEntry} {c n : String}

theorem exists_set (hl : l.Faithful) {w : ExpirationWrapper Conversation}
    (hw : l.state.routes.conversations.lookup c = some w) :
    ∃ newer e older v, l.done = newer ++ e :: older ∧ e.op = .setConversation v ∧ v.id = c := by
  rw [hl.conversations] at hw
  obtain ⟨⟨born, a⟩, hkept, -⟩ := Option.map_eq_some_iff.mp hw
  obtain ⟨newer, e, older, v, hdone, he, -⟩ := exists_put hkept
  obtain ⟨hop, hid⟩ := ((conversationAct_eq c e).1 v).mp he
  exact ⟨newer, e, older, v, hdone, hop, hid⟩

theorem exists_setRoute (hl : l.Faithful) {w : ExpirationWrapper Route}
    (hw : l.state.routes.routes.lookup n = some w) :
    ∃ newer e older c route, l.done = newer ++ e :: older ∧ e.op = .setRoute c route ∧
      route.nonce = n := by
  rw [hl.routes] at hw
  obtain ⟨⟨born, a⟩, hkept, -⟩ := Option.map_eq_some_iff.mp hw
  obtain ⟨newer, e, older, route, hdone, he, -⟩ := exists_put hkept
  obtain ⟨⟨c, hop⟩, hn⟩ := ((routeAct_eq n e).1 route).mp he
  exact ⟨newer, e, older, c, route, hdone, hop, hn⟩

theorem lodges_newer (hl : l.Faithful) (hdone : l.done = newer ++ e :: older) {kind : IdKind}
    {id : String} (hk : kind ≠ .accessKey) (he : e.op.lodges = some (kind, id)) :
    ∀ e' ∈ newer, e'.op.lodges ≠ some (kind, id) := by
  intro e' he' hl'
  have hfresh := hl.fresh
  rw [hdone] at hfresh
  have hpair := (List.pairwise_append.mp hfresh).2.2 e' he' e List.mem_cons_self
  exact hpair kind id hk hl' he

theorem lodges_older (hl : l.Faithful) (hdone : l.done = newer ++ e :: older) {kind : IdKind}
    {id : String} (hk : kind ≠ .accessKey) (he : e.op.lodges = some (kind, id)) :
    ∀ e' ∈ older, e'.op.lodges ≠ some (kind, id) := by
  intro e' he'
  have hfresh := hl.fresh
  rw [hdone] at hfresh
  have hpair := (List.pairwise_cons.mp (List.pairwise_append.mp hfresh).2.1).1 e' he'
  exact hpair kind id hk he

theorem issuedFor_done (hl : l.Faithful) (hdone : l.done = newer ++ e :: older) {v : Conversation}
    (he : e.op = .setConversation v) : issuedFor v.id l.done = issuedFor v.id newer := by
  have hlodges : e.op.lodges = some (.conversationId, v.id) := by rw [he]; rfl
  have hnone : ∀ e' ∈ older, e'.issue? v.id = none := by
    intro e' he'
    cases hi : e'.issue? v.id with
    | none => rfl
    | some route =>
      obtain ⟨a, b, rfl⟩ := List.append_of_mem he'
      have hsplit : l.done = (newer ++ e :: a) ++ e' :: b := by rw [hdone, List.append_assoc]; rfl
      obtain ⟨e₀, hmem, hl₀⟩ := hl.opened _ e' b v.id route hsplit hi
      have hmem' : e₀ ∈ a ++ e' :: b := List.mem_append_right _ (List.mem_cons_of_mem _ hmem)
      have hold := hl.lodges_older hdone (by decide) hlodges
      exact absurd hl₀ (hold e₀ hmem')
  have hself : e.issue? v.id = none := by
    obtain ⟨time, op, res⟩ := e
    cases he
    rfl
  have hempty : older.reverse.filterMap (LedgerEntry.issue? v.id) = [] := by
    apply List.filterMap_eq_nil_iff.mpr
    exact fun e' he' => hnone e' (List.mem_reverse.mp he')
  rw [issuedFor, hdone, List.reverse_append, List.filterMap_append, List.reverse_cons,
    List.filterMap_append, hempty, List.filterMap_cons_none hself]
  rfl

theorem lookup_conversation (hl : l.Faithful) (hdone : l.done = newer ++ e :: older)
    {v : Conversation} (he : e.op = .setConversation v) {w : ExpirationWrapper Conversation} :
    l.state.routes.conversations.lookup v.id = some w ↔
      w = wrapped CONVERSATIONS_EXPIRATION_TIME
        (e.time, { v with routes := v.routes ++ issuedFor v.id l.done }) ∧
      Spared (.removeConversation v.id) e.time CONVERSATIONS_EXPIRATION_TIME newer := by
  have hact := ((conversationAct_eq v.id e).1 v).mpr ⟨he, rfl⟩
  have hlodges : e.op.lodges = some (.conversationId, v.id) := by rw [he]; rfl
  have hput : ∀ e' ∈ newer, ∀ v', conversationAct v.id e' ≠ .put v' := by
    intro e' he' v' hv'
    obtain ⟨hop, hid⟩ := ((conversationAct_eq v.id e').1 v').mp hv'
    apply hl.lodges_newer hdone (by decide) hlodges e' he'
    rw [hop, ← hid]
    rfl
  have hspared : (∀ e' ∈ newer, (conversationAct v.id e').Spares CONVERSATIONS_EXPIRATION_TIME
      e.time e'.time) ↔
        Spared (.removeConversation v.id) e.time CONVERSATIONS_EXPIRATION_TIME newer := by
    refine forall₂_congr fun e' _ => ?_
    rw [Act.Spares, Ne, (conversationAct_eq v.id e').2.1, (conversationAct_eq v.id e').2.2]
  rw [hl.issuedFor_done hdone he, ← grown_conversation, ← hspared, hl.conversations, hdone]
  exact map_kept_append hact hput

theorem lookup_route (hl : l.Faithful) (hdone : l.done = newer ++ e :: older)
    {route : Route} (he : e.op = .setRoute c route) {w : ExpirationWrapper Route} :
    l.state.routes.routes.lookup route.nonce = some w ↔
      w = wrapped ROUTES_EXPIRATION_TIME (e.time, route) ∧
      Spared (.removeRoute route.nonce) e.time ROUTES_EXPIRATION_TIME newer := by
  have hact := ((routeAct_eq route.nonce e).1 route).mpr ⟨⟨c, he⟩, rfl⟩
  have hlodges : e.op.lodges = some (.nonce, route.nonce) := by rw [he]; rfl
  have hput : ∀ e' ∈ newer, ∀ route', routeAct route.nonce e' ≠ .put route' := by
    intro e' he' route' hr'
    obtain ⟨⟨c', hop⟩, hn⟩ := ((routeAct_eq route.nonce e').1 route').mp hr'
    apply hl.lodges_newer hdone (by decide) hlodges e' he'
    rw [hop, ← hn]
    rfl
  have hspared : (∀ e' ∈ newer, (routeAct route.nonce e').Spares ROUTES_EXPIRATION_TIME
      e.time e'.time) ↔
        Spared (.removeRoute route.nonce) e.time ROUTES_EXPIRATION_TIME newer := by
    refine forall₂_congr fun e' _ => ?_
    rw [Act.Spares, Ne, (routeAct_eq route.nonce e').2.1, (routeAct_eq route.nonce e').2.2]
  rw [← hspared, hl.routes, hdone]
  refine (map_kept_append hact hput).trans ?_
  rw [grown_route]

end Faithful

theorem Run.faithful {members : Table String Member} {l : Ledger} (hl : Run members l) :
    l.Faithful := by
  induction hl with
  | start =>
    constructor
    case conversations => exact fun c => rfl
    case routes => exact fun n => rfl
    case fresh => exact List.Pairwise.nil
    case opened =>
      intro newer e older c route hdone
      exact absurd hdone (by simp)
    case times => exact nofun
  | @step l op hl ch hop ih =>
    constructor
    case conversations =>
      exact fun c => lookup_conversation_act l.state ch op c (ih.conversations c)
    case routes => exact fun n => lookup_route_act l.state ch op n (ih.routes n)
    case fresh =>
      exact List.pairwise_cons.mpr ⟨fun e he kind id hk hl => hop kind id hk hl e he, ih.fresh⟩
    case opened =>
      intro newer e older c route hdone hi
      cases newer with
      | nil =>
        obtain ⟨rfl, rfl⟩ := List.cons.inj hdone
        obtain ⟨hset, hissued⟩ := LedgerEntry.setRoute_of_issue hi
        obtain rfl : op = .setRoute c route := hset
        -- the answer is that the route is stored, so that its conversation was there
        cases hres : (l.state.step ch (.setRoute c route)).1 with
        | none =>
          rw [hres] at hissued
          nomatch hissued
        | some n =>
          obtain ⟨-, -, w, hw⟩ := RouteStore.setRoute_eq_some.mp hres
          obtain ⟨newer, e₀, older, v, hold, he₀, hid⟩ := ih.exists_set hw
          refine ⟨e₀, ?_, by rw [he₀, ← hid]; rfl⟩
          rw [hold]
          exact List.mem_append_right _ List.mem_cons_self
      | cons x newer => exact ih.opened newer e older c route (List.cons.inj hdone).2 hi
    case times =>
      have hnow : (l.carryOut ch op).state.now = l.state.now + ch.elapsed := Storage.now_step _ _ _
      rw [hnow]
      intro e he
      rcases List.mem_cons.mp he with rfl | hold
      · exact Nat.le_refl _
      · exact (ih.times e hold).trans (Nat.le_add_right _ _)

end Ledger
end FuzzyChat
