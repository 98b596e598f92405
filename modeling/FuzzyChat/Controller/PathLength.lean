import FuzzyChat.Controller.Delivery
import FuzzyChat.Controller.Records

/-! The path of a conversation: the hops that come before its end route, and how many there can
be. -/

namespace FuzzyChat
open Interleave

/-! What a route request does once it has decided. -/

def RepoOp.hopping : RepoOp → Bool
  | getProxies _ | choose _ => true
  | setRoute _ route => !route.endRoute
  | _ => false

def RepoOp.finishing : RepoOp → Bool
  | clientKey _ | sessionOf _ => true
  | setRoute _ route => route.endRoute
  | _ => false

def routeIssued? : (op : RepoOp) → op.Res → Option (String × Route)
  | .setRoute c route, some _ => some (c, route)
  | _, _ => none

def conversationRead? : (op : RepoOp) → op.Res → Option Conversation
  | .getConversation _, conversation => conversation
  | _, _ => none

structure Plain (pr : Program) : Prop where
  hop : pr.head?.any RepoOp.hopping = false
  finish : pr.head?.any RepoOp.finishing = false
  reply : ∀ resp, pr.result? ≠ some (.ok (.route resp))

structure Decision (j : Job) (op : RepoOp) (k : op.Res → Program) (r : op.Res)
    (P : Conversation → Prop) : Prop where
  read : ∃ q, j.request.route? = some q ∧ op = .getConversation q.conversationId
  relied : op ∈ relies (.call op k)
  found : ∃ v, conversationRead? op r = some v ∧ P v

/-- A request hops or finishes from its decision on, to the one route it stores and answers. -/
structure Routing (j : Job) (op : RepoOp) (k : op.Res → Program) : Prop where
  hop : ∀ r, (k r).head?.any RepoOp.hopping = true →
    op.hopping = true ∨ Decision j op k r fun v => v.routes.length ≠ 3
  finish : ∀ r, (k r).head?.any RepoOp.finishing = true →
    op.finishing = true ∨ Decision j op k r fun v => v.routes.length = 3
  stores : ∀ c route, op = .setRoute c route →
    (∃ q, j.request.route? = some q ∧ q.conversationId = c) ∧ ∀ r, (k r).head? = none
  replies : ∀ r resp, (k r).result? = some (.ok (.route resp)) →
    ∃ c route, routeIssued? op r = some (c, route) ∧ route.endRoute = resp.endRoute

theorem Decision.stored {s : Storage} {ch : Choice} {j : Job} {op : RepoOp} {k : op.Res → Program}
    {P : Conversation → Prop} (h : Decision j op k (s.step ch op).1 P) {q : RouteRequest}
    (hq : j.request.route? = some q) :
    op = .getConversation q.conversationId ∧
      ∃ v, s.routes.getConversation q.conversationId = some v ∧ P v := by
  obtain ⟨⟨q', hq', rfl⟩, -, v, hv, hP⟩ := h
  obtain rfl : q' = q := Option.some.inj (hq'.symm.trans hq)
  exact ⟨rfl, v, hv, hP⟩

theorem plain_reply {r : Reply} (hr : ∀ resp, r ≠ .route resp) : Plain (reply r) := by
  refine ⟨rfl, rfl, fun resp h => hr resp ?_⟩
  cases h
  rfl

@[simp] theorem plain_refuse (s : Status) : Plain (refuse s) := ⟨rfl, rfl, fun _ h => nomatch h⟩

@[simp] theorem plain_crash : Plain crash := ⟨rfl, rfl, fun _ h => nomatch h⟩

theorem plain_call {op : RepoOp} {k : op.Res → Program} (hh : op.hopping = false)
    (hf : op.finishing = false) : Plain (.call op k) := ⟨hh, hf, fun _ h => nomatch h⟩

section shapes
variable {j : Job}

theorem routing_onward {op : RepoOp} {k : op.Res → Program}
    (stores : ∀ c route, op ≠ .setRoute c route)
    (hop : ∀ r, (k r).head?.any RepoOp.hopping = true → op.hopping = true)
    (finish : ∀ r, (k r).head?.any RepoOp.finishing = true → op.finishing = true)
    (replies : ∀ r resp, (k r).result? ≠ some (.ok (.route resp)))
    (next : ∀ r, (k r).All (Routing j)) : Prog.All (Routing j) (.call op k) :=
  ⟨⟨fun r h => .inl (hop r h), fun r h => .inl (finish r h),
    fun c route ho => absurd ho (stores c route), fun r resp h => absurd h (replies r resp)⟩, next⟩

theorem routing_call {op : RepoOp} {k : op.Res → Program} (hop : ∀ c route, op ≠ .setRoute c route)
    (hq : ∀ r, Plain (k r)) (hk : ∀ r, (k r).All (Routing j)) :
    Prog.All (Routing j) (.call op k) := by
  apply routing_onward hop
  case hop =>
    intro r h
    rw [(hq r).hop] at h
    nomatch h
  case finish =>
    intro r h
    rw [(hq r).finish] at h
    nomatch h
  case replies => exact fun r => (hq r).reply
  case next => exact hk

theorem routing_checkedSession {k : String} {f : SessionInfo → Program} (hq : ∀ info, Plain (f info))
    (hf : ∀ info, (f info).All (Routing j)) : (checkedSession k f).All (Routing j) :=
  routing_call (fun _ _ h => nomatch h) (fun | none => plain_refuse _ | some info => hq info)
    fun | none => trivial | some info => hf info

theorem routing_checkedConversation {c : String} {f : Conversation → Program}
    (hq : ∀ v, Plain (f v)) (hf : ∀ v, (f v).All (Routing j)) :
    (checkedConversation c f).All (Routing j) :=
  routing_call (fun _ _ h => nomatch h) (fun | none => plain_refuse _ | some v => hq v)
    fun | none => trivial | some v => hf v

theorem routing_fetchedSession {k : String} {f : SessionInfo → Program} (hq : ∀ info, Plain (f info))
    (hf : ∀ info, (f info).All (Routing j)) : (fetchedSession k f).All (Routing j) :=
  routing_call (fun _ _ h => nomatch h) (fun | none => plain_crash | some info => hq info)
    fun | none => trivial | some info => hf info

theorem routing_fetchedConversation {c : String} {f : Conversation → Program}
    (hq : ∀ v, Plain (f v)) (hf : ∀ v, (f v).All (Routing j)) :
    (fetchedConversation c f).All (Routing j) :=
  routing_call (fun _ _ h => nomatch h) (fun | none => plain_crash | some v => hq v)
    fun | none => trivial | some v => hf v

theorem routing_storeSession {info : SessionInfo} {t : Component} {next : Program}
    (hq : Plain next) (hn : next.All (Routing j)) : (storeSession info t next).All (Routing j) :=
  routing_call (fun _ _ h => nomatch h) (fun _ => plain_call rfl rfl) fun _ =>
    routing_call (fun _ _ h => nomatch h) (fun _ => hq) fun _ => hn

section route
variable {nonce : String} {q : RouteRequest}

theorem routing_storeProgram (info : SessionInfo) (endRoute : Bool) :
    (storeProgram nonce q.conversationId info endRoute).All (Routing ⟨.route q, nonce⟩) := by
  constructor
  case left =>
    constructor
    case hop =>
      intro stored h
      cases stored <;> nomatch h
    case finish =>
      intro stored h
      cases stored <;> nomatch h
    case stores =>
      intro c route ho
      cases ho
      exact ⟨⟨q, rfl, rfl⟩, fun | none => rfl | some _ => rfl⟩
    case replies =>
      intro stored resp h
      cases stored with
      | none => nomatch h
      | some n =>
        cases h
        exact ⟨_, _, rfl, rfl⟩
  case right =>
    intro stored
    cases stored <;> trivial

theorem routing_finalProgram (v : Conversation) :
    (finalProgram nonce q v).All (Routing ⟨.route q, nonce⟩) := by
  unfold finalProgram
  apply routing_onward
  case stores => exact fun _ _ ho => nomatch ho
  case hop =>
    intro key h
    cases key <;> nomatch h
  case finish => exact fun _ _ => rfl
  case replies =>
    intro key resp h
    cases key <;> nomatch h
  case next =>
    intro key
    cases key with
    | none => trivial
    | some key =>
      apply routing_onward
      case stores => exact fun _ _ ho => nomatch ho
      case hop =>
        intro info h
        cases info <;> nomatch h
      case finish => exact fun _ _ => rfl
      case replies =>
        intro info resp h
        cases info <;> nomatch h
      case next =>
        intro info
        cases info with
        | none => trivial
        | some info => exact routing_storeProgram info true

theorem routing_hopProgram : (hopProgram nonce q).All (Routing ⟨.route q, nonce⟩) := by
  unfold hopProgram
  apply routing_onward
  case stores => exact fun _ _ ho => nomatch ho
  case hop => exact fun _ _ => rfl
  case finish =>
    intro proxies h
    cases proxies with
    | none => nomatch h
    | some proxies =>
      dsimp only at h
      split_ifs at h <;> nomatch h
  case replies =>
    intro proxies resp h
    cases proxies with
    | none => nomatch h
    | some proxies =>
      dsimp only at h
      split_ifs at h <;> nomatch h
  case next =>
    intro proxies
    cases proxies with
    | none => trivial
    | some proxies =>
      dsimp only
      split_ifs
      · trivial
      · apply routing_onward
        case stores => exact fun _ _ ho => nomatch ho
        case hop => exact fun _ _ => rfl
        case finish =>
          intro i h
          split at h <;> nomatch h
        case replies =>
          intro i resp h
          split at h <;> nomatch h
        case next =>
          intro i
          split
          · trivial
          · exact routing_storeProgram _ false

theorem routing_route :
    (Job.handler ⟨.route q, nonce⟩).All (Routing ⟨.route q, nonce⟩) := by
  rw [handler_route]
  refine routing_checkedSession (fun _ => plain_call rfl rfl) fun _ => ?_
  refine routing_checkedConversation (fun _ => plain_call rfl rfl) fun _ => ?_
  -- the reading that decides: what follows it depends on the number of routes it finds
  constructor
  case left =>
    constructor
    case hop =>
      intro found h
      refine .inr ⟨⟨q, rfl, rfl⟩, List.mem_singleton_self _, ?_⟩
      cases found with
      | none => nomatch h
      | some v =>
        dsimp only at h
        split_ifs at h with hid hlen
        · nomatch h
        · exact ⟨v, rfl, hlen⟩
        · nomatch h
    case finish =>
      intro found h
      refine .inr ⟨⟨q, rfl, rfl⟩, List.mem_singleton_self _, ?_⟩
      cases found with
      | none => nomatch h
      | some v =>
        dsimp only at h
        split_ifs at h with hid hlen
        · exact ⟨v, rfl, hlen⟩
        · nomatch h
        · nomatch h
    case stores => exact fun c route ho => nomatch ho
    case replies =>
      intro found resp h
      cases found with
      | none => nomatch h
      | some v =>
        dsimp only at h
        split_ifs at h <;> nomatch h
  case right =>
    intro found
    cases found with
    | none => trivial
    | some v =>
      dsimp only
      split_ifs
      · exact routing_finalProgram _
      · exact routing_hopProgram
      · trivial

end route

theorem plain_storeSession {info : SessionInfo} {t : Component} {next : Program} :
    Plain (storeSession info t next) := plain_call rfl rfl

theorem plain_handler (j : Job) : Plain j.handler := by
  obtain ⟨request, id⟩ := j
  cases request with
  | login remoteAddr r =>
    rw [handler_login]
    cases remoteAddr with
    | none => exact plain_refuse _
    | some clientIp =>
      dsimp only
      split_ifs
      · exact plain_refuse _
      · cases Component.fromI32 r.componentType with
        | none => exact plain_crash
        | some componentType =>
          dsimp only
          split_ifs
          · exact plain_refuse _
          · exact plain_call rfl rfl
  | ping remoteAddr r =>
    rw [handler_ping]
    cases remoteAddr with
    | none => exact plain_refuse _
    | some clientIp => exact plain_call rfl rfl
  | _ => exact plain_call rfl rfl

theorem routing_handler (j : Job) : j.handler.All (Routing j) := by
  obtain ⟨request, id⟩ := j
  cases request with
  | login remoteAddr r =>
    rw [handler_login]
    cases remoteAddr with
    | none => trivial
    | some clientIp =>
      dsimp only
      split_ifs
      · trivial
      · cases Component.fromI32 r.componentType with
        | none => trivial
        | some componentType =>
          dsimp only
          split_ifs
          · trivial
          · refine routing_call (fun _ _ h => nomatch h) (fun member => ?_) fun member => ?_
            · split_ifs
              · exact plain_storeSession
              · exact plain_refuse _
            · split_ifs
              · exact routing_storeSession (plain_reply fun _ h => nomatch h) trivial
              · trivial
  | logout r =>
    rw [handler_logout]
    refine routing_checkedSession (fun _ => plain_call rfl rfl) fun _ => ?_
    refine routing_call (fun _ _ h => nomatch h) (fun w => ?_) fun w => ?_
    · cases w with
      | none => exact plain_reply fun _ h => nomatch h
      | some w => exact plain_call rfl rfl
    · cases w with
      | none => trivial
      | some w =>
        exact routing_call (fun _ _ h => nomatch h) (fun _ => plain_reply fun _ h => nomatch h)
          fun _ => trivial
  | ping remoteAddr r =>
    rw [handler_ping]
    cases remoteAddr with
    | none => trivial
    | some clientIp =>
      refine routing_checkedSession (fun _ => plain_call rfl rfl) fun _ => ?_
      refine routing_fetchedSession (fun session => ?_) fun session => ?_
      · split_ifs
        · exact plain_call rfl rfl
        · exact plain_refuse _
      · split_ifs
        · exact routing_call (fun _ _ h => nomatch h) (fun _ => plain_reply fun _ h => nomatch h)
            fun _ => trivial
        · trivial
  | init r =>
    rw [handler_init]
    refine routing_checkedSession (fun _ => plain_call rfl rfl) fun _ => ?_
    refine routing_fetchedSession (fun _ => plain_call rfl rfl) fun info => ?_
    refine routing_call (fun _ _ h => nomatch h) (fun c => ?_) fun c => ?_
    · cases c with
      | none => exact plain_refuse _
      | some c => exact plain_reply fun _ h => nomatch h
    · cases c <;> trivial
  | route r => exact routing_route
  | redeem r =>
    rw [handler_redeem]
    refine routing_checkedSession (fun _ => plain_call rfl rfl) fun _ => ?_
    refine routing_checkedConversation (fun _ => plain_call rfl rfl) fun _ => ?_
    refine routing_call (fun _ _ h => nomatch h) (fun route => ?_) fun route => ?_
    · cases route with
      | none => exact plain_refuse _
      | some route => exact plain_call rfl rfl
    · cases route with
      | none => trivial
      | some route =>
        refine routing_call (fun _ _ h => nomatch h) (fun _ => ?_) fun _ => ?_
        · split_ifs
          · exact plain_call rfl rfl
          · exact plain_reply fun _ h => nomatch h
        · split_ifs
          · refine routing_fetchedConversation (fun _ => plain_call rfl rfl) fun v => ?_
            exact routing_call (fun _ _ h => nomatch h)
              (fun _ => plain_reply fun _ h => nomatch h) fun _ => trivial
          · trivial
  | status version r =>
    rw [handler_status]
    refine routing_checkedSession (fun _ => plain_call rfl rfl) fun _ => ?_
    refine routing_call (fun _ _ h => nomatch h) (fun _ => plain_call rfl rfl) fun _ => ?_
    refine routing_call (fun _ _ h => nomatch h) (fun _ => plain_call rfl rfl) fun _ => ?_
    exact routing_call (fun _ _ h => nomatch h) (fun _ => plain_reply fun _ h => nomatch h)
      fun _ => trivial
  | register uid clientIp settings =>
    exact routing_storeSession (plain_reply fun _ h => nomatch h) trivial
  | sweepSessions =>
    exact routing_call (fun _ _ h => nomatch h) (fun _ => plain_reply fun _ h => nomatch h)
      fun _ => trivial
  | sweepRoutes =>
    exact routing_call (fun _ _ h => nomatch h) (fun _ => plain_reply fun _ h => nomatch h)
      fun _ => trivial

end shapes

/-! The routes issued for a conversation. -/

def issue? (c : String) (e : Event controller) : Option (Nat × Route) :=
  (routeIssued? e.op e.res).bind fun x => if x.1 = c then some (e.task, x.2) else none

/-- Oldest first, each with the task that was answered with it. -/
def issued (h : ControllerHist) (c : String) : List (Nat × Route) :=
  h.log.reverse.filterMap (issue? c)

def isHop (x : Nat × Route) : Bool := !x.2.endRoute

/-- The task is a route request for the conversation that has decided. -/
def Heading (c : String) (kind : RepoOp → Bool) (t : Job × Program) : Bool :=
  t.1.request.route?.any (fun q => q.conversationId = c) && t.2.head?.any kind

theorem eq_setRoute_of_issued {op : RepoOp} {r : op.Res} {c : String} {route : Route}
    (h : routeIssued? op r = some (c, route)) : op = .setRoute c route := by
  cases op with
  | setRoute c₀ route₀ =>
    cases r with
    | none => nomatch h
    | some n =>
      cases h
      rfl
  | _ => nomatch h

theorem issue_eq_some {c : String} {i : Nat} {pre : Storage} {op : RepoOp} {r : op.Res}
    {x : Nat × Route} (h : issue? c ⟨i, pre, op, r⟩ = some x) :
    x.1 = i ∧ op = .setRoute c x.2 ∧ routeIssued? op r = some (c, x.2) := by
  obtain ⟨⟨c', route⟩, hissued, hx⟩ := Option.bind_eq_some_iff.mp h
  dsimp only at hissued hx
  split_ifs at hx with hc
  cases hx
  subst hc
  exact ⟨rfl, eq_setRoute_of_issued hissued, hissued⟩

theorem heading_iff {c : String} {kind : RepoOp → Bool} {j : Job} {pr : Program} :
    Heading c kind (j, pr) = true ↔
      (∃ q, j.request.route? = some q ∧ q.conversationId = c) ∧ pr.head?.any kind = true := by
  simp [Heading, Option.any_eq_true]

theorem heading_handler {c : String} {j : Job} :
    Heading c RepoOp.hopping (j, j.handler) = false ∧
      Heading c RepoOp.finishing (j, j.handler) = false := by
  have hplain := plain_handler j
  simp [Heading, hplain.hop, hplain.finish]

theorem stored_of_issue {s : Storage} {ch : Choice} {op : RepoOp} {c : String} {i : Nat}
    {x : Nat × Route} (h : issue? c ⟨i, s, op, (s.step ch op).1⟩ = some x) :
    op = .setRoute c x.2 ∧ s.routes.routes.lookup x.2.nonce = none ∧
      ∃ w, s.routes.conversations.lookup c = some w := by
  obtain ⟨-, rfl, hissued⟩ := issue_eq_some h
  cases hres : (s.step ch (.setRoute c x.2)).1 with
  | none =>
    rw [hres] at hissued
    nomatch hissued
  | some n =>
    obtain ⟨-, hfresh, w, hw⟩ := RouteStore.setRoute_eq_some.mp hres
    exact ⟨rfl, hfresh, w, hw⟩

theorem routes_step {s : Storage} {ch : Choice} {op : RepoOp} {c : String} {v : Conversation}
    (i : Nat) (h : (s.step ch op).2.routes.getConversation c = some v) :
    (∃ v₀, s.routes.getConversation c = some v₀ ∧ v.routes = v₀.routes ++
        ((issue? c ⟨i, s, op, (s.step ch op).1⟩).map Prod.snd).toList) ∨
      op = .setConversation v ∧ c = v.id := by
  cases hissue : issue? c ⟨i, s, op, (s.step ch op).1⟩ with
  | some x =>
    obtain ⟨rfl, hfresh, w, hw⟩ := stored_of_issue hissue
    have hstored : s.routes.getConversation c = some w.value := by
      rw [RouteStore.getConversation, hw, Option.map_some]
    have hgrown : some v = some (w.value.pushRoute x.2) := by
      rw [← h, ← Option.map_some, ← hstored]
      exact RouteStore.getConversation_setRoute hfresh
    refine .inl ⟨w.value, hstored, ?_⟩
    rw [Option.some.inj hgrown]
    rfl
  | none =>
    obtain ⟨w, hw, rfl⟩ := Option.map_eq_some_iff.mp h
    rcases Storage.lookup_conversation_step hw with ⟨w₀, hw₀, hv⟩ | ⟨rfl, rfl⟩
    · have hstored : s.routes.getConversation c = some w₀.value := by
        rw [RouteStore.getConversation, hw₀, Option.map_some]
      refine .inl ⟨w₀.value, hstored, ?_⟩
      rcases hv with hv | ⟨route, rfl, hfresh, -⟩
      · rw [hv, Option.map_none, Option.toList_none, List.append_nil]
      · -- the route has been stored, so that something was issued
        have hres : (s.step ch (.setRoute c route)).1 = some route.nonce :=
          RouteStore.setRoute_eq_some.mpr ⟨rfl, hfresh, w₀, hw₀⟩
        simp [issue?, hres, routeIssued?] at hissue
    · exact .inr ⟨rfl, rfl⟩

structure Paved (p : ControllerPool) (c : String) : Prop where
  unopened : (∀ e ∈ p.log, e.op.lodges ≠ some (.conversationId, c)) → issued p.hist c = []
  stored : ∀ v, p.state.routes.getConversation c = some v →
    v.routes = (issued p.hist c).map Prod.snd
  finishing : ∀ t ∈ p.tasks, Heading c RepoOp.finishing t = true → 3 ≤ (issued p.hist c).length
  hops : ∀ x ∈ (issued p.hist c).take 3, isHop x = true

theorem paved_start (s : Storage) (hs : s.routes = RouteStore.empty) (c : String) :
    Paved (Pool.start s) c where
  unopened _ := rfl
  stored v hv := by simp [Pool.start, hs, RouteStore.empty, RouteStore.getConversation] at hv
  finishing t ht := nomatch ht
  hops x hx := nomatch hx

theorem paved_accept {p : ControllerPool} {c : String} (hp : Paved p c) (j : Job) :
    Paved (p.accept j) c := by
  constructor
  case unopened => exact hp.unopened
  case stored => exact hp.stored
  case finishing =>
    intro t ht hh
    rcases List.mem_append.mp ht with ht | ht
    · exact hp.finishing t ht hh
    · rw [List.mem_singleton.mp ht] at hh
      exact absurd hh (by simp [heading_handler.2])
  case hops => exact hp.hops

section advance
variable {p : ControllerPool} {c : String} {i : Nat} {ch : Choice} {j : Job} {op : RepoOp}
  {k : op.Res → Program}

theorem issued_advance (ht : p.tasks[i]? = some (j, .call op k)) (r : op.Res) (s : Storage) :
    issued (p.advance (S := controller) i j op k r s).hist c =
      issued p.hist c ++ (issue? c ⟨i, p.state, op, r⟩).toList := by
  rw [Pool.hist_advance ht]
  simp only [issued, Hist.record, List.reverse_cons, List.filterMap_append]
  have hlast : [(⟨i, p.state, op, r⟩ : Event controller)].filterMap (issue? c) =
      (issue? c ⟨i, p.state, op, r⟩).toList := by
    cases hissue : issue? c ⟨i, p.state, op, r⟩ <;> simp [hissue]
  exact congrArg _ hlast

theorem first_grown {α : Type} {P : α → Prop} {l : List α} {n : Nat} {x : α}
    (hl : ∀ y ∈ l.take n, P y) (hx : l.length < n → P x) : ∀ y ∈ (l ++ [x]).take n, P y := by
  rcases Nat.lt_or_ge l.length n with hlt | hge
  · intro y hy
    rcases List.mem_append.mp (List.mem_of_mem_take hy) with hy | hy
    · exact hl y (by rwa [List.take_of_length_le hlt.le])
    · rw [List.mem_singleton.mp hy]
      exact hx hlt
  · rw [List.take_append_of_le_length hge]
    exact hl

theorem paved_advance (hp : Paved p c) (ht : p.tasks[i]? = some (j, .call op k))
    (hrouting : Routing j op k)
    (hopened : p.state.routes.getConversation c ≠ none →
      ∃ e ∈ p.log, e.op.lodges = some (.conversationId, c))
    (hfresh : ∀ v, op = .setConversation v → v.id = c →
      v.routes = [] ∧ ∀ e ∈ p.log, e.op.lodges ≠ some (.conversationId, c)) :
    Paved (p.advance (S := controller) i j op k (p.state.step ch op).1 (p.state.step ch op).2)
      c := by
  have hissued := issued_advance (c := c) ht (p.state.step ch op).1 (p.state.step ch op).2
  have hmem : (j, Prog.call op k) ∈ p.tasks := List.mem_of_getElem? ht
  constructor
  case unopened =>
    intro hno
    have hold : issued p.hist c = [] := hp.unopened fun e he => hno e (List.mem_cons_of_mem _ he)
    rw [hissued, hold]
    cases hissue : issue? c ⟨i, p.state, op, (p.state.step ch op).1⟩ with
    | none => rfl
    | some x =>
      obtain ⟨-, -, w, hw⟩ := stored_of_issue hissue
      obtain ⟨e, he, hl⟩ := hopened (by simp [RouteStore.getConversation, hw])
      exact absurd hl (hno e (List.mem_cons_of_mem _ he))
  case stored =>
    intro v hv
    rw [hissued, List.map_append]
    rcases routes_step i hv with ⟨v₀, hv₀, hgrown⟩ | ⟨rfl, rfl⟩
    · rw [hgrown, hp.stored v₀ hv₀]
      cases issue? c ⟨i, p.state, op, (p.state.step ch op).1⟩ <;> rfl
    · obtain ⟨hnil, hno⟩ := hfresh v rfl rfl
      rw [hnil, hp.unopened hno]
      rfl
  case finishing =>
    intro t ht' hh
    have hgrows : (issued p.hist c).length ≤ (issued p.hist c ++
        (issue? c ⟨i, p.state, op, (p.state.step ch op).1⟩).toList).length := by simp
    rw [hissued]
    apply le_trans _ hgrows
    obtain ⟨i', hi'⟩ := List.mem_iff_getElem?.mp ht'
    rcases (Pool.tasks_advance ht).mp hi' with ⟨-, rfl⟩ | ⟨-, hold⟩
    · obtain ⟨⟨q, hq, hqc⟩, hhead⟩ := heading_iff.mp hh
      rcases hrouting.finish _ hhead with hop | hdec
      · exact hp.finishing _ hmem (heading_iff.mpr ⟨⟨q, hq, hqc⟩, hop⟩)
      · -- it has just decided, on three routes that were stored then
        obtain ⟨-, v, hv, hlen⟩ := hdec.stored hq
        have hroutes := hp.stored v (hqc ▸ hv)
        have hlength := congrArg List.length hroutes
        rw [List.length_map, hlen] at hlength
        exact hlength.le
    · exact hp.finishing t (List.mem_of_getElem? hold) hh
  case hops =>
    rw [hissued]
    cases hissue : issue? c ⟨i, p.state, op, (p.state.step ch op).1⟩ with
    | none => simpa using hp.hops
    | some x =>
      obtain ⟨-, rfl, -⟩ := issue_eq_some hissue
      apply first_grown hp.hops
      intro hlt
      cases hend : x.2.endRoute with
      | false => simp [isHop, hend]
      | true =>
        -- an end route is stored only by a task that is finishing
        have hthree := hp.finishing _ hmem (heading_iff.mpr ⟨(hrouting.stores _ _ rfl).1, hend⟩)
        omega

end advance

theorem paved {C : ControllerPool → ControllerMove → Prop} {members : Table String Member}
    {p : ControllerPool} (hp : Reach C (Storage.start members) p) (c : String) : Paved p c := by
  induction hp with
  | start => exact paved_start _ rfl c
  | @step p q m hp hc hq ih =>
    have hreach := hp.step hc hq
    rcases controller_step hq with ⟨j, rfl, rfl⟩ | ⟨i, ch, j, op, k, rfl, ht, rfl⟩
    · exact paved_accept ih j
    · have hrouting := (hp.all routing_handler i j _ ht).1
      apply paved_advance ih ht hrouting
      · intro hconv
        refine lodged_of_keeps hp fun h => hconv ?_
        rw [RouteStore.getConversation, h, Option.map_none]
      · rintro v rfl rfl
        have hco := coherent_of_reach hreach
        rw [Pool.hist_advance ht] at hco
        obtain ⟨-, hnil, -⟩ := hco.steps i _ _ _ (p.hist.did_record i _ _ _)
        exact ⟨hnil, lodged_once hp ht rfl⟩

theorem answered_issued {C : ControllerPool → ControllerMove → Prop} {members : Table String Member}
    {p : ControllerPool} (hp : Reach C (Storage.start members) p) {i : Nat} {q : RouteRequest}
    {nonce : String} {resp : RouteResponse}
    (hret : p.returned i = some (⟨.route q, nonce⟩, .ok (.route resp))) :
    ∃ route, (i, route) ∈ issued p.hist q.conversationId ∧ route.endRoute = resp.endRoute := by
  have htask := Pool.returned_eq_some.mp hret
  clear hret
  induction hp with
  | start => nomatch htask
  | @step p q m hp hc hq ih =>
    rcases controller_step hq with ⟨j, rfl, rfl⟩ | ⟨i', ch, j, op, k, rfl, ht, rfl⟩
    · -- no request is answered before its first step
      rcases Pool.tasks_accept.mp htask with hold | ⟨-, hnew⟩
      · rw [Pool.hist_accept]
        exact ih hold
      · obtain ⟨rfl, hend⟩ := Prod.mk.inj hnew
        replace hend : .ret (.ok (.route resp)) = Job.handler ⟨.route q, nonce⟩ := hend
        exact absurd (hend ▸ rfl) ((plain_handler ⟨.route q, nonce⟩).reply resp)
    · rw [issued_advance ht]
      rcases (Pool.tasks_advance ht).mp htask with ⟨rfl, hnew⟩ | ⟨-, hold⟩
      · obtain ⟨rfl, hend⟩ := Prod.mk.inj hnew
        have hrouting := (hp.all routing_handler i _ _ ht).1
        obtain ⟨c, route, hissued, hroute⟩ := hrouting.replies _ resp (by rw [← hend]; rfl)
        obtain ⟨⟨q', hq', hc⟩, -⟩ := hrouting.stores c route (eq_setRoute_of_issued hissued)
        obtain rfl : q = q' := Option.some.inj hq'
        refine ⟨route, List.mem_append_right _ ?_, hroute⟩
        rw [issue?, hissued, Option.bind_some, if_pos hc.symm]
        exact List.mem_singleton_self _
      · obtain ⟨route, hm, hroute⟩ := ih hold
        exact ⟨route, List.mem_append_left _ hm, hroute⟩

theorem hops_before {l before rest : List (Nat × Route)} {x : Nat × Route}
    (hl : l = before ++ x :: rest) (hhops : ∀ y ∈ l.take 3, isHop y = true)
    (hx : isHop x = false) : 3 ≤ before.countP isHop := by
  have hlong : 3 ≤ before.length := by
    by_contra hshort
    have hmem : x ∈ l.take 3 := by
      rw [hl, List.take_append, List.take_cons (by omega)]
      exact List.mem_append_right _ List.mem_cons_self
    rw [hhops x hmem] at hx
    nomatch hx
  have htake : (before.take 3).countP isHop = 3 := by
    have hall : ∀ y ∈ before.take 3, isHop y = true := fun y hy =>
      hhops y (by rwa [hl, List.take_append_of_le_length hlong])
    rw [List.countP_eq_length.mpr hall, List.length_take, Nat.min_eq_left hlong]
  rw [← htake]
  exact (List.take_sublist 3 before).countP_le

theorem hops_of_few {l : List (Nat × Route)} (hhops : ∀ y ∈ l.take 3, isHop y = true)
    (hfew : l.countP isHop < 3) : ∀ y ∈ l, isHop y = true := by
  have hshort : l.length < 3 := by
    by_contra hlong
    have hall := List.countP_eq_length.mpr hhops
    rw [List.length_take, Nat.min_eq_left (by omega)] at hall
    have hsub := (List.take_sublist 3 l).countP_le (p := isHop)
    omega
  rwa [List.take_of_length_le hshort.le] at hhops

/-- An end route is issued only after three routes that are not, so that the first three a
conversation lists are none. -/
theorem three_hops_first {members : Table String Member} {p : ControllerPool}
    (hp : Reachable (Storage.start members) p) (c : String) :
    (∀ before x rest, issued p.hist c = before ++ x :: rest → x.2.endRoute = true →
      3 ≤ before.countP isHop) ∧
    (∀ conversation, p.state.routes.getConversation c = some conversation →
      ∀ route ∈ conversation.routes.take 3, route.endRoute = false) ∧
    ∀ i q nonce resp, p.returned i = some (⟨.route q, nonce⟩, .ok (.route resp)) →
      q.conversationId = c →
        ∃ route, (i, route) ∈ issued p.hist c ∧ route.endRoute = resp.endRoute := by
  have hpaved := paved hp c
  refine ⟨fun before x rest hl hend => ?_, fun conversation hconv route hm => ?_, ?_⟩
  · exact hops_before hl hpaved.hops (by simp [isHop, hend])
  · rw [hpaved.stored conversation hconv, ← List.map_take] at hm
    obtain ⟨x, hx, rfl⟩ := List.mem_map.mp hm
    simpa [isHop] using hpaved.hops x hx
  · rintro i q nonce resp hret rfl
    exact answered_issued hp hret

theorem three_hops_first_sample : ∃ (p : ControllerPool) (before : List (Nat × Route))
    (x : Nat × Route), Reachable (Storage.start sampleMembers) p ∧
      issued p.hist "c" = before ++ [x] ∧ x.2.endRoute = true ∧ 3 ≤ before.countP isHop := by
  obtain ⟨p, hrun, hlast⟩ : ∃ p, (Pool.start (Storage.start sampleMembers) :
      ControllerPool).run (inTurn sampleEndRedeemed) = some p ∧
        (issued p.hist "c").getLast?.map (fun x => x.2.endRoute) = some true :=
    exists_run (by decide)
  have hp := Reachable.of_run hrun
  obtain ⟨x, hx, hend⟩ := Option.map_eq_some_iff.mp hlast
  obtain ⟨before, hl⟩ := List.getLast?_eq_some_iff.mp hx
  exact ⟨p, before, x, hp, hl, hend, (three_hops_first hp "c").1 before x [] hl hend⟩

/-! How many hops there can be: the end is recognised by comparing the number of routes for
equality, as it was when the request read the conversation. -/

def hopsUnderway (p : ControllerPool) (c : String) : Nat :=
  p.tasks.countP (Heading c RepoOp.hopping)

/-- The step is not the deciding reading of the conversation with more than three routes, nor with
fewer when those and the hops already under way are three. -/
def KeepsPath (c : String) (p : ControllerPool) : ControllerMove → Prop
  | .spawn _ => True
  | .act i _ => ∀ t ∈ p.tasks[i]?, ∀ q ∈ t.1.request.route?, q.conversationId = c →
    t.2.head? = some (.getConversation c) → .getConversation c ∈ relies t.2 →
      ∀ conversation ∈ p.state.routes.getConversation c,
        conversation.routes.length = 3 ∨ conversation.routes.length + hopsUnderway p c < 3

instance (c : String) (p : ControllerPool) (m : ControllerMove) : Decidable (KeepsPath c p m) :=
  match m with
  | .spawn _ => inferInstanceAs (Decidable True)
  | .act .. => by
    dsimp only [KeepsPath]
    infer_instance

/-- At most three hops, and none after an end route. -/
structure BoundedPath (p : ControllerPool) (c : String) : Prop where
  few : (issued p.hist c).countP isHop ≤ 3
  ordered : (issued p.hist c).Pairwise fun x y => x.2.endRoute = true → y.2.endRoute = true
  answered : ∀ i q nonce resp, p.returned i = some (⟨.route q, nonce⟩, .ok (.route resp)) →
    q.conversationId = c → ∃ route, (i, route) ∈ issued p.hist c ∧ route.endRoute = resp.endRoute

/-- The hops issued and those under way are three at most; see `Paved` for the three that come
first. -/
structure Bounded (p : ControllerPool) (c : String) : Prop where
  room : (issued p.hist c).countP isHop + hopsUnderway p c ≤ 3
  ordered : (issued p.hist c).Pairwise fun x y => x.2.endRoute = true → y.2.endRoute = true

theorem bounded_accept {p : ControllerPool} {c : String} (hb : Bounded p c) (j : Job) :
    Bounded (p.accept j) c := by
  have hunderway : hopsUnderway (p.accept j) c = hopsUnderway p c := by
    have hidle : Heading c RepoOp.hopping (j, Job.handler j) = false := heading_handler.1
    rw [hopsUnderway, Pool.accept, List.countP_append, List.countP_singleton]
    simp [hopsUnderway, hidle]
  constructor
  case room =>
    rw [hunderway]
    exact hb.room
  case ordered => exact hb.ordered

section advance
variable {p : ControllerPool} {c : String} {i : Nat} {ch : Choice} {j : Job} {op : RepoOp}
  {k : op.Res → Program}

theorem underway_advance (ht : p.tasks[i]? = some (j, .call op k)) (r : op.Res) (s : Storage) :
    hopsUnderway (p.advance (S := controller) i j op k r s) c +
        (Heading c RepoOp.hopping (j, .call op k)).toNat =
      hopsUnderway p c + (Heading c RepoOp.hopping (j, k r)).toNat := by
  obtain ⟨hi, hget⟩ := List.getElem?_eq_some_iff.mp ht
  have hcounted : (Heading c RepoOp.hopping (j, .call op k)).toNat ≤ hopsUnderway p c := by
    cases hh : Heading c RepoOp.hopping (j, .call op k) with
    | false => exact Nat.zero_le _
    | true => exact List.countP_pos_iff.mpr ⟨_, List.mem_of_getElem? ht, hh⟩
  have hset : hopsUnderway (p.advance (S := controller) i j op k r s) c =
      hopsUnderway p c - (Heading c RepoOp.hopping (j, .call op k)).toNat +
        (Heading c RepoOp.hopping (j, k r)).toNat := by
    rw [hopsUnderway, Pool.advance, List.countP_set hi, hget, hopsUnderway]
    cases Heading c RepoOp.hopping (j, .call op k) <;>
      cases Heading c RepoOp.hopping (j, k r) <;> rfl
  omega

theorem bounded_advance (hb : Bounded p c) (hpaved : Paved p c)
    (ht : p.tasks[i]? = some (j, .call op k)) (hrouting : Routing j op k)
    (hkeeps : KeepsPath c p (.act i ch)) :
    Bounded (p.advance (S := controller) i j op k (p.state.step ch op).1 (p.state.step ch op).2)
      c := by
  have hissued := issued_advance (c := c) ht (p.state.step ch op).1 (p.state.step ch op).2
  have hunderway := underway_advance (c := c) ht (p.state.step ch op).1 (p.state.step ch op).2
  have hroom := hb.room
  cases hissue : issue? c ⟨i, p.state, op, (p.state.step ch op).1⟩ with
  | none =>
    rw [hissue, Option.toList_none, List.append_nil] at hissued
    constructor
    case room =>
      rw [hissued]
      cases hnew : Heading c RepoOp.hopping (j, k (p.state.step ch op).1) with
      | false =>
        rw [hnew, Bool.toNat_false] at hunderway
        omega
      | true =>
        obtain ⟨⟨q, hq, hqc⟩, hhead⟩ := heading_iff.mp hnew
        rcases hrouting.hop _ hhead with hop | hdec
        · have hold : Heading c RepoOp.hopping (j, .call op k) = true :=
            heading_iff.mpr ⟨⟨q, hq, hqc⟩, hop⟩
          rw [hnew, hold] at hunderway
          omega
        · -- the deciding reading: it counts what has been issued
          obtain ⟨rfl, v, hv, hlen⟩ := hdec.stored hq
          have hfew := hkeeps _ ht q hq hqc (by rw [← hqc]; rfl) (by rw [← hqc]; exact hdec.relied) v
            (by rwa [← hqc])
          have hlength := congrArg List.length (hpaved.stored v (hqc ▸ hv))
          rw [List.length_map] at hlength
          have hcount := List.countP_le_length (p := isHop) (l := issued p.hist c)
          rw [hnew, Bool.toNat_true] at hunderway
          omega
    case ordered =>
      rw [hissued]
      exact hb.ordered
  | some x =>
    obtain ⟨-, rfl, -⟩ := issue_eq_some hissue
    rw [hissue, Option.toList_some] at hissued
    obtain ⟨⟨q, hq, hqc⟩, hdone⟩ := hrouting.stores _ _ rfl
    have hnew : Heading c RepoOp.hopping (j, k (p.state.step ch (.setRoute c x.2)).1) = false := by
      simp [Heading, hdone]
    have hold : Heading c RepoOp.hopping (j, .call (.setRoute c x.2) k) = isHop x := by
      simp [Heading, hq, hqc, Prog.head?, RepoOp.hopping, isHop]
    rw [hnew, hold] at hunderway
    rw [Bool.toNat_false] at hunderway
    constructor
    case room =>
      rw [hissued, List.countP_append, List.countP_singleton]
      cases hx : isHop x with
      | false =>
        rw [hx, Bool.toNat_false] at hunderway
        simp only [Bool.false_eq_true, if_false]
        omega
      | true =>
        rw [hx, Bool.toNat_true] at hunderway
        simp only [if_true]
        omega
    case ordered =>
      rw [hissued]
      refine List.pairwise_append.mpr ⟨hb.ordered, List.pairwise_singleton _ _, ?_⟩
      intro y hy z hz hend
      rw [List.mem_singleton.mp hz]
      by_contra hhop
      have hx : isHop x = true := by simpa [isHop] using hhop
      rw [hx, Bool.toNat_true] at hunderway
      -- with this hop under way fewer than three have been issued, and nothing else has
      have hyhop := hops_of_few hpaved.hops (by omega) y hy
      rw [isHop, hend] at hyhop
      nomatch hyhop

end advance

theorem bounded {members : Table String Member} {p : ControllerPool} {c : String}
    (hp : Reach (KeepsPath c) (Storage.start members) p) : Bounded p c := by
  induction hp with
  | start => exact ⟨Nat.zero_le 3, List.Pairwise.nil⟩
  | @step p q m hp hc hq ih =>
    rcases controller_step hq with ⟨j, rfl, rfl⟩ | ⟨i, ch, j, op, k, rfl, ht, rfl⟩
    · exact bounded_accept ih j
    · have hrouting := (hp.all routing_handler i j _ ht).1
      exact bounded_advance ih (paved hp c) ht hrouting hc

/-- Where requests decide on no more than three routes, those under way included, the path of the
conversation is bounded. -/
theorem bounded_path {members : Table String Member} {p : ControllerPool} {c : String}
    (hp : Reach (KeepsPath c) (Storage.start members) p) : BoundedPath p c := by
  have hbounded := bounded hp
  have hfew : (issued p.hist c).countP isHop ≤ 3 :=
    (Nat.le_add_right _ _).trans hbounded.room
  refine ⟨hfew, hbounded.ordered, ?_⟩
  rintro i q nonce resp hret rfl
  exact answered_issued hp hret

theorem bounded_path_sample : ∃ p : ControllerPool,
    Reach (KeepsPath "c") (Storage.start sampleMembers) p ∧
      (issued p.hist "c").map (fun x => x.2.endRoute) = [false, false, false, true] ∧
      BoundedPath p "c" := by
  obtain ⟨p, hrun, hends⟩ : ∃ p, (Pool.start (Storage.start sampleMembers) :
      ControllerPool).run (inTurn sampleEndRedeemed) = some p ∧
        (issued p.hist "c").map (fun x => x.2.endRoute) = [false, false, false, true] :=
    exists_run (by decide)
  have hp := Reach.start.run (C := KeepsPath "c") (by decide) hrun
  exact ⟨p, hp, hends, bounded_path hp⟩

/-- A fifth request finds four routes and is sent on to another hop. -/
theorem path_unbounded : ¬ ∀ (members : Table String Member) (p : ControllerPool),
    Reachable (Storage.start members) p → ∀ c, BoundedPath p c := by
  intro hall
  obtain ⟨p, hrun, hends⟩ : ∃ p, (Pool.start (Storage.start sampleMembers) :
      ControllerPool).run (inTurn (sampleHops ++
        [(askRoute "k-north" "n4", 6), (askRoute "k-south" "n5", 6)])) = some p ∧
        (issued p.hist "c").countP isHop = 4 := exists_run (by decide)
  have hfew := (hall _ p (Reachable.of_run hrun) "c").few
  omega

end FuzzyChat
