import FuzzyChat.Controller.RouteLedger

/-! The two copies of a route, in its conversation and under its nonce, and how long both of them
last. -/

namespace FuzzyChat
open Interleave

/-- The storage of the controller goes through such runs only, whatever requests are in flight. -/
theorem ledger_of_reach {C : ControllerPool → ControllerMove → Prop} {members : Table String Member}
    {p : ControllerPool} (hp : Reach C (Storage.start members) p) :
    ∃ l, Ledger.Run members l ∧ l.state = p.state ∧
      l.done.map (fun e => (⟨e.op, e.res⟩ : Sigma RepoOp.Res)) =
        p.log.map fun e => ⟨e.op, e.res⟩ := by
  induction hp with
  | start => exact ⟨_, .start, rfl, rfl⟩
  | @step p q m hp hc hq ih =>
    obtain ⟨l, hl, hstate, hdone⟩ := ih
    rcases controller_step hq with ⟨j, rfl, rfl⟩ | ⟨i, c, j, op, k, rfl, ht, rfl⟩
    · exact ⟨l, hl, hstate, hdone⟩
    · have hfresh : l.Fresh op := by
        intro kind id _ hlodges e he hold
        have hmem := List.mem_map_of_mem (f := fun e => (⟨e.op, e.res⟩ : Sigma RepoOp.Res)) he
        rw [hdone] at hmem
        obtain ⟨e', he', hsame⟩ := List.mem_map.mp hmem
        have hop : e'.op = e.op := (Sigma.mk.inj hsame).1
        exact lodged_once hp ht hlodges e' he' (hop ▸ hold)
      refine ⟨l.carryOut c op, hl.step c hfresh, ?_, ?_⟩
      · exact congrArg (fun s : Storage => (s.step c op).2) hstate
      · change _ :: l.done.map _ = _ :: p.log.map _
        rw [hdone, ← hstate]

namespace Ledger.Faithful
variable {l : Ledger} {newer older : List LedgerEntry} {e : LedgerEntry} {c : String}

theorem stored_conversation (hl : l.Faithful) {w : ExpirationWrapper Conversation}
    (hw : l.state.routes.conversations.lookup c = some w) :
    ∃ e ∈ l.done, ∃ v, e.op = .setConversation v ∧ v.id = c ∧
      w.value = { v with routes := v.routes ++ issuedFor c l.done } := by
  obtain ⟨newer, e, older, v, hdone, he, rfl⟩ := hl.exists_set hw
  obtain ⟨rfl, -⟩ := (hl.lookup_conversation hdone he).mp hw
  refine ⟨e, ?_, v, he, rfl, rfl⟩
  rw [hdone]
  exact List.mem_append_right _ List.mem_cons_self

theorem routes_of_new (hl : l.Faithful) {fromUid toUid : String} {routingId : UInt8}
    (he : ∃ e ∈ l.done, e.op = .setConversation (Conversation.new c fromUid toUid routingId))
    {w : ExpirationWrapper Conversation}
    (hw : l.state.routes.conversations.lookup c = some w) :
    w.value.routes = issuedFor c l.done := by
  obtain ⟨e, hmem, he⟩ := he
  obtain ⟨newer, older, hdone⟩ := List.append_of_mem hmem
  obtain ⟨rfl, -⟩ := (hl.lookup_conversation hdone he).mp hw
  exact List.nil_append _

theorem issued_nodup (hl : l.Faithful) (c : String) :
    ((issuedFor c l.done).map Route.nonce).Nodup := by
  rw [List.Nodup, List.pairwise_map, issuedFor, List.pairwise_filterMap, List.pairwise_reverse]
  refine hl.fresh.imp fun {e e'} hfresh route' hi' route hi hsame => ?_
  have hl : e.op.lodges = some (.nonce, route.nonce) := by
    rw [(LedgerEntry.setRoute_of_issue hi).1]
    rfl
  have hl' : e'.op.lodges = some (.nonce, route'.nonce) := by
    rw [(LedgerEntry.setRoute_of_issue hi').1]
    rfl
  exact hfresh .nonce route.nonce (by decide) hl (hsame ▸ hl')

theorem getRoute_iff (hl : l.Faithful) (hdone : l.done = newer ++ e :: older) {route : Route}
    (he : e.op = .setRoute c route) (ch : Choice) (c' : String) (found : Route) :
    (l.state.step ch (.getRoute c' route.nonce)).1 = some found ↔
      found = route ∧ Spared (.removeRoute route.nonce) e.time ROUTES_EXPIRATION_TIME newer := by
  rw [Storage.step_getRoute, RouteStore.getRoute, Option.map_eq_some_iff]
  constructor
  · rintro ⟨w, hw, rfl⟩
    obtain ⟨rfl, hspared⟩ := (hl.lookup_route hdone he).mp hw
    exact ⟨rfl, hspared⟩
  · rintro ⟨rfl, hspared⟩
    exact ⟨_, (hl.lookup_route hdone he).mpr ⟨rfl, hspared⟩, rfl⟩

end Ledger.Faithful

/-- A stored conversation lists the routes issued for it, each of them once, and under the nonce of
an issued route there is this route until it is taken out. -/
theorem route_copies_agree {members : Table String Member} {l : Ledger}
    (hl : Ledger.Run members l) :
    (∀ c w, l.state.routes.conversations.lookup c = some w →
      ∃ e ∈ l.done, ∃ v, e.op = .setConversation v ∧ v.id = c ∧
        w.value = { v with routes := v.routes ++ issuedFor c l.done }) ∧
    (∀ c fromUid toUid routingId w,
      (∃ e ∈ l.done, e.op = .setConversation (Conversation.new c fromUid toUid routingId)) →
        l.state.routes.conversations.lookup c = some w → w.value.routes = issuedFor c l.done) ∧
    (∀ c, ((issuedFor c l.done).map Route.nonce).Nodup) ∧
    ∀ newer e older c route, l.done = newer ++ e :: older → e.issue? c = some route →
      ∀ ch c' found, (l.state.step ch (.getRoute c' route.nonce)).1 = some found ↔
        found = route ∧ Spared (.removeRoute route.nonce) e.time ROUTES_EXPIRATION_TIME newer := by
  have hf := hl.faithful
  refine ⟨fun c w hw => hf.stored_conversation hw, fun c f t r w he hw => hf.routes_of_new he hw,
    hf.issued_nodup, ?_⟩
  intro newer e older c route hdone hi
  exact hf.getRoute_iff hdone (LedgerEntry.setRoute_of_issue hi).1

def sampleLedger : Ledger :=
  (Ledger.carryOut ⟨Storage.start sampleMembers, []⟩ ⟨0, 0⟩
    (.setConversation (Conversation.new "c" "alice" "bob" 1))).carryOut ⟨1000, 0⟩
      (.setRoute "c" (northRoute "n"))

theorem sampleLedger_run : Ledger.Run sampleMembers sampleLedger := by
  apply Ledger.Run.step
  case hl =>
    apply Ledger.Run.step
    case hl => exact .start
    case hop => exact fun _ _ _ _ e he => nomatch he
  case hop =>
    intro kind id _ hl e he
    cases hl
    rw [List.mem_singleton.mp he]
    decide

theorem route_copies_agree_sample :
    (∃ w, sampleLedger.state.routes.conversations.lookup "c" = some w ∧
      w.value.routes = [northRoute "n"]) ∧
    ∀ ch c', (sampleLedger.state.step ch (.getRoute c' "n")).1 = some (northRoute "n") := by
  obtain ⟨-, hroutes, -, hnonce⟩ := route_copies_agree sampleLedger_run
  constructor
  · obtain ⟨w, hw⟩ : ∃ w, sampleLedger.state.routes.conversations.lookup "c" = some w :=
      Option.isSome_iff_exists.mp (by decide)
    have hset : ∃ e ∈ sampleLedger.done,
        e.op = .setConversation (Conversation.new "c" "alice" "bob" 1) :=
      ⟨_, List.mem_cons_of_mem _ List.mem_cons_self, rfl⟩
    exact ⟨w, hw, hroutes "c" "alice" "bob" 1 w hset hw⟩
  · intro ch c'
    exact (hnonce [] _ _ "c" (northRoute "n") rfl rfl ch c' (northRoute "n")).mpr ⟨rfl, nofun⟩

/-! How long a conversation or a route lasts. -/

namespace Ledger

/-- A sweep at time `t` has left what was put in no more than a minute before, unless it had been
taken out, and nothing else. -/
structure SweptAt (t : Nat) (l : Ledger) : Prop where
  conversation_kept : ∀ c w, l.state.routes.conversations.lookup c = some w →
    ∃ e ∈ l.done, ∃ v, e.op = .setConversation v ∧ v.id = c ∧ t ≤ e.time + 60000
  route_kept : ∀ n w, l.state.routes.routes.lookup n = some w →
    ∃ e ∈ l.done, ∃ c, e.op = .setRoute c w.value ∧ w.value.nonce = n ∧ t ≤ e.time + 60000
  conversation_gone : ∀ newer e older v, l.done = newer ++ e :: older → e.op = .setConversation v →
    t ≤ e.time + 60000 → l.state.routes.conversations.lookup v.id = none →
      ∃ e' ∈ newer, e'.op = .removeConversation v.id
  route_gone : ∀ newer e older c route, l.done = newer ++ e :: older → e.op = .setRoute c route →
    t ≤ e.time + 60000 → l.state.routes.routes.lookup route.nonce = none →
      ∃ e' ∈ newer, e'.op = .removeRoute route.nonce

namespace Faithful
variable {l l' : Ledger} {newer older : List LedgerEntry} {e : LedgerEntry} {c n : String}

theorem expiresAt_conversation (hl : l.Faithful) (hl' : l'.Faithful) {x : LedgerEntry}
    (hdone : l'.done = x :: l.done) {w w' : ExpirationWrapper Conversation}
    (hw : l.state.routes.conversations.lookup c = some w)
    (hw' : l'.state.routes.conversations.lookup c = some w') : w'.expiresAt = w.expiresAt := by
  obtain ⟨newer, e, older, v, hsplit, he, rfl⟩ := hl.exists_set hw
  have hsplit' : l'.done = (x :: newer) ++ e :: older := by rw [hdone, hsplit]; rfl
  obtain ⟨rfl, -⟩ := (hl.lookup_conversation hsplit he).mp hw
  obtain ⟨rfl, -⟩ := (hl'.lookup_conversation hsplit' he).mp hw'
  rfl

theorem expiresAt_route (hl : l.Faithful) (hl' : l'.Faithful) {x : LedgerEntry}
    (hdone : l'.done = x :: l.done) {w w' : ExpirationWrapper Route}
    (hw : l.state.routes.routes.lookup n = some w)
    (hw' : l'.state.routes.routes.lookup n = some w') : w'.expiresAt = w.expiresAt := by
  obtain ⟨newer, e, older, c, route, hsplit, he, rfl⟩ := hl.exists_setRoute hw
  have hsplit' : l'.done = (x :: newer) ++ e :: older := by rw [hdone, hsplit]; rfl
  obtain ⟨rfl, -⟩ := (hl.lookup_route hsplit he).mp hw
  obtain ⟨rfl, -⟩ := (hl'.lookup_route hsplit' he).mp hw'
  rfl

theorem spared_of_young (hl : l.Faithful) (hdone : l.done = newer ++ e :: older) {drops : RepoOp}
    (hyoung : l.state.now ≤ e.time + 60000) (hno : ∀ e' ∈ newer, e'.op ≠ drops) :
    Spared drops e.time 60000 newer := by
  intro e' he'
  refine ⟨hno e' he', fun _ => ?_⟩
  have hmem : e' ∈ l.done := hdone ▸ List.mem_append_left _ he'
  exact (hl.times e' hmem).trans hyoung

theorem sweptAt (hl : l.Faithful) {x : LedgerEntry} {past : List LedgerEntry}
    (hdone : l.done = x :: past) (hx : x.op = .killExpiredRoutes) (ht : x.time = l.state.now) :
    l.SweptAt x.time := by
  -- the sweep itself came after whatever has been put in
  have hnewest : ∀ {newer older : List LedgerEntry} {e : LedgerEntry},
      l.done = newer ++ e :: older → e.op ≠ .killExpiredRoutes → x ∈ newer := by
    intro newer older e hsplit he
    cases newer with
    | nil =>
      have hhead := (List.cons.inj (hdone.symm.trans hsplit)).1
      exact absurd (hhead ▸ hx) he
    | cons y newer => exact (List.cons.inj (hdone.symm.trans hsplit)).1 ▸ List.mem_cons_self
  constructor
  case conversation_kept =>
    intro c w hw
    obtain ⟨newer, e, older, v, hsplit, he, rfl⟩ := hl.exists_set hw
    obtain ⟨-, hspared⟩ := (hl.lookup_conversation hsplit he).mp hw
    refine ⟨e, hsplit ▸ List.mem_append_right _ List.mem_cons_self, v, he, rfl, ?_⟩
    exact (hspared x (hnewest hsplit (by rw [he]; nofun))).2 hx
  case route_kept =>
    intro n w hw
    obtain ⟨newer, e, older, c, route, hsplit, he, rfl⟩ := hl.exists_setRoute hw
    obtain ⟨rfl, hspared⟩ := (hl.lookup_route hsplit he).mp hw
    refine ⟨e, hsplit ▸ List.mem_append_right _ List.mem_cons_self, c, he, rfl, ?_⟩
    exact (hspared x (hnewest hsplit (by rw [he]; nofun))).2 hx
  case conversation_gone =>
    intro newer e older v hsplit he hyoung hnone
    by_contra hno
    push Not at hno
    have hspared := hl.spared_of_young hsplit (ht ▸ hyoung) hno
    rw [(hl.lookup_conversation hsplit he).mpr ⟨rfl, hspared⟩] at hnone
    nomatch hnone
  case route_gone =>
    intro newer e older c route hsplit he hyoung hnone
    by_contra hno
    push Not at hno
    have hspared := hl.spared_of_young hsplit (ht ▸ hyoung) hno
    rw [(hl.lookup_route hsplit he).mpr ⟨rfl, hspared⟩] at hnone
    nomatch hnone

end Faithful
end Ledger

/-- No operation puts off the time at which a conversation or a route expires, and a sweep leaves
exactly those of the last minute that have not been taken out. -/
theorem routing_data_expires {members : Table String Member} {l : Ledger}
    (hl : Ledger.Run members l) :
    (∀ ch op, l.Fresh op →
      (∀ c w w', l.state.routes.conversations.lookup c = some w →
        (l.carryOut ch op).state.routes.conversations.lookup c = some w' →
          w'.expiresAt = w.expiresAt) ∧
      ∀ n w w', l.state.routes.routes.lookup n = some w →
        (l.carryOut ch op).state.routes.routes.lookup n = some w' → w'.expiresAt = w.expiresAt) ∧
    ∀ ch, (l.carryOut ch .killExpiredRoutes).SweptAt (l.state.now + ch.elapsed) := by
  have hf := hl.faithful
  constructor
  · intro ch op hop
    have hf' := (hl.step ch hop).faithful
    exact ⟨fun c w w' hw hw' => hf.expiresAt_conversation hf' rfl hw hw',
      fun n w w' hw hw' => hf.expiresAt_route hf' rfl hw hw'⟩
  · intro ch
    have hfresh : l.Fresh .killExpiredRoutes := fun _ _ _ h => nomatch h
    have hf' := (hl.step ch hfresh).faithful
    exact hf'.sweptAt rfl rfl (Storage.now_step _ _ _).symm

theorem routing_data_expires_sample :
    let swept := sampleLedger.carryOut ⟨59500, 0⟩ .killExpiredRoutes
    swept.SweptAt 60500 ∧ swept.state.routes.conversations.lookup "c" = none ∧
      (swept.state.routes.routes.lookup "n").isSome = true := by
  refine ⟨(routing_data_expires sampleLedger_run).2 ⟨59500, 0⟩, ?_, ?_⟩
  · decide
  · decide

end FuzzyChat
