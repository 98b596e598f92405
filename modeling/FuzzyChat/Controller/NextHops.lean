import FuzzyChat.Controller.Programs
import FuzzyChat.Interleave.Twins

/-! The proxies a route can be drawn to go through. -/

namespace FuzzyChat
open Interleave

section drawing
variable {α β : Type}

def drawn (index : Nat) (l : List α) : Option α :=
  l[(chooseFrom index (List.range (l.length - 1))).getD 0]?

theorem drawn_map (f : α → β) (index : Nat) (l : List α) :
    drawn index (l.map f) = (drawn index l).map f := by
  rw [drawn, drawn, List.length_map, List.getElem?_map]

theorem drawn_singleton (index : Nat) (a : α) : drawn index [a] = some a := rfl

theorem drawn_of_two {l : List α} (hl : 2 ≤ l.length) (index : Nat) :
    drawn index l = l[index % (l.length - 1)]? := by
  have hlt : index % (l.length - 1) < l.length - 1 := Nat.mod_lt _ (by omega)
  rw [drawn, chooseFrom, List.length_range, List.getElem?_range hlt, Option.getD_some]

/-- The last element can be drawn only if it is the first, or stands in another place as well. -/
def EachPlace (l : List α) : Prop := l.length = 1 ∨ ∃ a ∈ l.dropLast, l.getLast? = some a

theorem exists_drawn {l : List α} (hl : l ≠ []) {a : α} :
    (∃ index, drawn index l = some a) ↔ l = [a] ∨ a ∈ l.dropLast := by
  match l with
  | [] => exact absurd rfl hl
  | [b] => simp [drawn_singleton]
  | b :: c :: l =>
    have htwo : 2 ≤ (b :: c :: l).length := Nat.le_add_left 2 l.length
    simp only [drawn_of_two htwo, List.mem_iff_getElem?, List.getElem?_dropLast, List.cons.injEq,
      reduceCtorEq, and_false, false_or]
    constructor
    · rintro ⟨index, h⟩
      exact ⟨_, by rw [if_pos (Nat.mod_lt _ (by simp))]; exact h⟩
    · rintro ⟨i, h⟩
      split_ifs at h with hi
      exact ⟨i, by rw [Nat.mod_eq_of_lt hi]; exact h⟩

theorem drawn_mem {l : List α} (hl : l ≠ []) (index : Nat) : ∃ a ∈ l, drawn index l = some a := by
  match l with
  | [] => exact absurd rfl hl
  | [b] => exact ⟨b, List.mem_singleton_self b, drawn_singleton index b⟩
  | b :: c :: l =>
    have htwo : 2 ≤ (b :: c :: l).length := Nat.le_add_left 2 l.length
    have hlt : index % ((b :: c :: l).length - 1) < (b :: c :: l).length :=
      (Nat.mod_lt _ (by simp)).trans_le (Nat.sub_le _ _)
    rw [drawn_of_two htwo, List.getElem?_eq_getElem hlt]
    exact ⟨_, List.getElem_mem hlt, rfl⟩

theorem all_drawn_iff {l : List α} (hl : l ≠ []) :
    (∀ a ∈ l, ∃ index, drawn index l = some a) ↔ EachPlace l := by
  simp only [exists_drawn hl]
  constructor
  · intro h
    rcases h _ (List.getLast_mem hl) with hone | hmem
    · exact .inl (by rw [hone]; rfl)
    · exact .inr ⟨_, hmem, List.getLast?_eq_some_getLast hl⟩
  · rintro (hone | ⟨b, hb, hlast⟩) a ha
    · obtain ⟨c, rfl⟩ := List.length_eq_one_iff.mp hone
      exact .inl (by rw [List.mem_singleton.mp ha])
    · rw [← List.dropLast_append_getLast hl] at ha
      rcases List.mem_append.mp ha with ha | ha
      · exact .inr ha
      · rw [List.getLast?_eq_some_getLast hl] at hlast
        rw [List.mem_singleton.mp ha, Option.some.inj hlast]
        exact .inr hb

end drawing

def drawing (index : Nat) (a : (op : RepoOp) → op.Res) : Nat → (op : RepoOp) → op.Res
  | _, .choose numbers => chooseFrom index numbers
  | _, op => a op

def nextRoute (index : Nat) (a : (op : RepoOp) → op.Res) (v : Conversation)
    (proxies : List SessionInfo) : Except Abort (Option SessionInfo) :=
  ((randomRouteStrategy.getNextRoute v proxies).run.asked (drawing index a) 0).2

theorem nextRoute_eq {proxies : List SessionInfo} (hne : proxies ≠ []) (index : Nat)
    (a : (op : RepoOp) → op.Res) (v : Conversation) :
    nextRoute index a v proxies = .ok (drawn index proxies) := by
  cases proxies with
  | nil => exact absurd rfl hne
  | cons info infos => rfl

structure Choosing (r : RouteRequest) (proxies : List SessionInfo) (a : (op : RepoOp) → op.Res) :
    Prop where
  session : ∃ info, a (.getSession r.accessKey) = some info
  conversation : ∃ v, a (.getConversation r.conversationId) = some v ∧ v.routingId = 1 ∧
    v.routes.length ≠ 3
  found : a (.getProxies r.accessKey) = some proxies

/-- The endpoints for which the request stores a route, by one draw or another. -/
def offered (r : RouteRequest) (nonce : String) (a : (op : RepoOp) → op.Res) :
    Set ConnectionSettings :=
  {settings | ∃ index, .setRoute r.conversationId (RouteManager.storedRoute nonce settings false) ∈
    ((Job.handler ⟨.route r, nonce⟩).asked (drawing index a) 0).1}

theorem storedRoute_injective {nonce : String} {settings settings' : ConnectionSettings}
    {endRoute : Bool} (h : RouteManager.storedRoute nonce settings endRoute =
      RouteManager.storedRoute nonce settings' endRoute) : settings = settings' := by
  obtain ⟨ip, port, domainName, certificate⟩ := settings
  obtain ⟨ip', port', domainName', certificate'⟩ := settings'
  simp only [RouteManager.storedRoute, Route.mk.injEq] at h
  obtain ⟨rfl, rfl, rfl, rfl, -, -⟩ := h
  rfl

theorem asked_route {r : RouteRequest} {proxies : List SessionInfo} {a : (op : RepoOp) → op.Res}
    (h : Choosing r proxies a) (hne : proxies ≠ []) (nonce : String) (index : Nat) :
    ∃ info, drawn index proxies = some info ∧
      ((Job.handler ⟨.route r, nonce⟩).asked (drawing index a) 0).1 =
        [.getSession r.accessKey, .getConversation r.conversationId,
          .getConversation r.conversationId, .getProxies r.accessKey,
          .choose (List.range (proxies.length - 1)),
          .setRoute r.conversationId
            (RouteManager.storedRoute nonce info.toConnectionSettings false)] := by
  obtain ⟨caller, hs⟩ := h.session
  obtain ⟨v, hv, hid, hlen⟩ := h.conversation
  obtain ⟨info, -, hdrawn⟩ := drawn_mem hne index
  refine ⟨info, hdrawn, ?_⟩
  have hempty : proxies.isEmpty = false := by simpa using hne
  have hget : proxies[(chooseFrom index (List.range (proxies.length - 1))).getD 0]? = some info :=
    hdrawn
  rw [handler_route]
  simp only [checkedSession, checkedConversation, fetchedConversation, hopProgram, Prog.asked,
    drawing, hs, hv, hid, hlen, h.found, hempty, hget, if_true, if_false, Bool.false_eq_true]
  unfold storeProgram
  cases hstore : a (.setRoute r.conversationId
      (RouteManager.storedRoute nonce info.toConnectionSettings false)) with
  | none => simp only [Prog.asked, drawing, hstore, refuse]
  | some n => simp only [Prog.asked, drawing, hstore, reply]

theorem mem_offered {r : RouteRequest} {proxies : List SessionInfo} {a : (op : RepoOp) → op.Res}
    (h : Choosing r proxies a) (hne : proxies ≠ []) (nonce : String)
    {settings : ConnectionSettings} :
    settings ∈ offered r nonce a ↔
      ∃ index, drawn index (proxies.map SessionInfo.toConnectionSettings) = some settings := by
  refine exists_congr fun index => ?_
  obtain ⟨info, hdrawn, hasked⟩ := asked_route h hne nonce index
  rw [hasked, drawn_map, hdrawn, Option.map_some, Option.some.injEq]
  constructor
  · intro hmem
    simp only [List.mem_cons, reduceCtorEq, List.not_mem_nil, false_or, or_false,
      RepoOp.setRoute.injEq, true_and] at hmem
    exact (storedRoute_injective hmem).symm
  · rintro rfl
    simp

/-- Every proxy of the list can be chosen exactly if there is but one, or the last stands in another
place as well; and so it is with the endpoints that `route` offers. -/
theorem every_proxy_chosen_iff {proxies : List SessionInfo} (hne : proxies ≠ []) :
    (∀ v a, ((∀ i (hi : i < proxies.length), ∃ index,
        nextRoute index a v proxies = .ok (some proxies[i])) ∧
      ∀ index, ∃ info ∈ proxies, nextRoute index a v proxies = .ok (some info)) ↔
        EachPlace proxies) ∧
    ∀ r nonce a, Choosing r proxies a →
      (offered r nonce a = {settings | ∃ info ∈ proxies, info.toConnectionSettings = settings} ↔
        EachPlace (proxies.map SessionInfo.toConnectionSettings)) := by
  constructor
  · intro v a
    have hmember : ∀ index, ∃ info ∈ proxies, nextRoute index a v proxies = .ok (some info) := by
      intro index
      obtain ⟨info, hmem, hdrawn⟩ := drawn_mem hne index
      exact ⟨info, hmem, by rw [nextRoute_eq hne, hdrawn]⟩
    rw [← all_drawn_iff hne, List.forall_mem_iff_forall_getElem]
    simp only [nextRoute_eq hne, Except.ok.injEq]
    constructor
    · exact fun h => h.1
    · refine fun h => ⟨h, fun index => ?_⟩
      obtain ⟨info, hmem, hnext⟩ := hmember index
      rw [nextRoute_eq hne, Except.ok.injEq] at hnext
      exact ⟨info, hmem, hnext⟩
  · intro r nonce a h
    have hmap : proxies.map SessionInfo.toConnectionSettings ≠ [] := by simpa using hne
    rw [← all_drawn_iff hmap]
    constructor
    · intro heq settings hmem
      have hin : settings ∈ offered r nonce a := heq ▸ List.mem_map.mp hmem
      exact (mem_offered h hne nonce).mp hin
    · intro hall
      ext settings
      rw [mem_offered h hne nonce]
      constructor
      · rintro ⟨index, hdrawn⟩
        obtain ⟨settings', hmem, hdrawn'⟩ := drawn_mem hmap index
        rw [hdrawn, Option.some.injEq] at hdrawn'
        exact List.mem_map.mp (hdrawn' ▸ hmem)
      · exact fun hmem => hall settings (List.mem_map.mpr hmem)

def proxySession (uid : String) : SessionInfo :=
  SessionManager.sessionInfo ("k-" ++ uid) uid .proxy ⟨"10.0.0.1", 40000⟩
    ⟨"10.0.0.1", 50051, uid, [1]⟩

/-- Of two proxies, the second is never chosen. -/
theorem second_proxy_missed : ¬ ∀ (proxies : List SessionInfo), proxies ≠ [] →
    ∀ v a i (hi : i < proxies.length), ∃ index,
      nextRoute index a v proxies = .ok (some proxies[i]) := by
  intro hall
  obtain ⟨index, h⟩ := hall [proxySession "north", proxySession "south"] (by decide)
    (Conversation.new "c" "alice" "bob" 1)
    (fun op => ((Storage.start ∅).step ⟨0, 0⟩ op).1) 1 (by decide)
  rw [nextRoute_eq (by decide), drawn_of_two (by decide)] at h
  have hzero : index % ([proxySession "north", proxySession "south"].length - 1) = 0 :=
    Nat.mod_one index
  rw [hzero] at h
  revert h
  decide

def twoProxies : Storage :=
  [RepoOp.insertIndex .proxy "north" "k-north", .insertSession (proxySession "north"),
    .insertIndex .proxy "south" "k-south", .insertSession (proxySession "south"),
    .insertIndex .client "alice" "k-alice",
    .insertSession (SessionManager.sessionInfo "k-alice" "alice" .client ⟨"10.0.0.1", 40000⟩
      ⟨"10.0.0.1", 50051, "alice", [1]⟩),
    .setConversation (Conversation.new "c" "alice" "bob" 1)].foldl
      (fun s op => (s.step ⟨0, 0⟩ op).2) (Storage.start ∅)

theorem every_proxy_chosen_iff_sample :
    (∃ index, nextRoute index (fun op => (twoProxies.step ⟨0, 0⟩ op).1)
      (Conversation.new "c" "alice" "bob" 1)
      [proxySession "south", proxySession "north", proxySession "south"] =
        .ok (some (proxySession "north"))) ∧
    offered ⟨"k-alice", "c"⟩ "n" (fun op => (twoProxies.step ⟨0, 0⟩ op).1) ≠
      {settings | ∃ info ∈ [proxySession "south", proxySession "north"],
        info.toConnectionSettings = settings} := by
  have hthree : [proxySession "south", proxySession "north", proxySession "south"] ≠ [] := by decide
  have htwo : [proxySession "south", proxySession "north"] ≠ [] := by decide
  have hchosen := (every_proxy_chosen_iff hthree).1
  have hoffered := (every_proxy_chosen_iff htwo).2
  constructor
  · exact ((hchosen _ _).mpr (.inr ⟨proxySession "south", by decide, by decide⟩)).1 1 (by decide)
  · intro hall
    have heach := (hoffered _ _ _ ?choosing).mp hall
    case choosing =>
      constructor
      case session => exact Option.isSome_iff_exists.mp (by decide)
      case conversation =>
        exact ⟨Conversation.new "c" "alice" "bob" 1, by decide, by decide, by decide⟩
      case found => decide
    revert heach
    unfold EachPlace
    decide

end FuzzyChat
