import FuzzyChat.Controller.Records
import FuzzyChat.Interleave.Sequence

/-! What the route repository has written when it answers that it has not. -/

namespace FuzzyChat
open Interleave

namespace RouteStore

structure Same (s s' : RouteStore) : Prop where
  routes : ∀ n, s'.routes.lookup n = s.routes.lookup n
  conversations : ∀ c, s'.conversations.lookup c = s.conversations.lookup c

variable {s : RouteStore} {now : Nat}

theorem setConversation_eq_none {v : Conversation} :
    (s.setConversation now v).1 = none ↔ ∃ w, s.conversations.lookup v.id = some w := by
  unfold setConversation
  dsimp only
  rw [← Option.isSome_iff_exists]
  split_ifs with h <;> simp [h]

theorem setConversation_same {v : Conversation} :
    ((s.setConversation now v).1 = none → s.Same (s.setConversation now v).2) ↔
      ∀ w, s.conversations.lookup v.id = some w →
        w = ExpirationWrapper.new now v CONVERSATIONS_EXPIRATION_TIME := by
  constructor
  · intro h w hw
    have hsame := (h (setConversation_eq_none.mpr ⟨w, hw⟩)).conversations v.id
    rw [conversations_setConversation, AList.lookup_insert, hw] at hsame
    exact (Option.some.inj hsame).symm
  · intro h hnone
    obtain ⟨w, hw⟩ := setConversation_eq_none.mp hnone
    constructor
    case routes => exact fun n => rfl
    case conversations =>
      intro c
      rw [conversations_setConversation, AList.lookup_insert_eq_ite]
      split_ifs with hc
      · rw [hc, hw, h w hw]
      · rfl

theorem setRoute_eq_none {c : String} {route : Route} :
    (s.setRoute now c route).1 = none ↔
      (∃ w, s.routes.lookup route.nonce = some w) ∨ s.conversations.lookup c = none := by
  unfold setRoute
  dsimp only
  rw [← Option.isSome_iff_exists]
  split_ifs with h <;> simp [h]

theorem setRoute_same {c : String} {route : Route} :
    ((s.setRoute now c route).1 = none → s.Same (s.setRoute now c route).2) ↔
      (∀ w, s.routes.lookup route.nonce = some w →
        w = ExpirationWrapper.new now route ROUTES_EXPIRATION_TIME) ∧
      (s.routes.lookup route.nonce = none → s.conversations.lookup c ≠ none) := by
  constructor
  · intro h
    constructor
    · intro w hw
      have hsame := (h (setRoute_eq_none.mpr (.inl ⟨w, hw⟩))).routes route.nonce
      rw [routes_setRoute, AList.lookup_insert, hw] at hsame
      exact (Option.some.inj hsame).symm
    · intro hroute hconv
      have hsame := (h (setRoute_eq_none.mpr (.inr hconv))).routes route.nonce
      rw [routes_setRoute, AList.lookup_insert, hroute] at hsame
      nomatch hsame
  · rintro ⟨hroute, hconv⟩ hnone
    cases hlook : s.routes.lookup route.nonce with
    | none =>
      rcases setRoute_eq_none.mp hnone with ⟨w, hw⟩ | hc
      · rw [hlook] at hw
        nomatch hw
      · exact absurd hc (hconv hlook)
    | some w =>
      constructor
      case routes =>
        intro n
        rw [routes_setRoute, AList.lookup_insert_eq_ite]
        split_ifs with hn
        · rw [hn, hlook, hroute w hlook]
        · rfl
      case conversations =>
        intro c'
        simp only [setRoute, hlook, Option.isSome_some, if_true]

end RouteStore

namespace Storage

/-- If the operation is a write that is answered with `none`, both maps are as before. -/
def RefusedSame (s : Storage) (c : Choice) : RepoOp → Prop
  | .setConversation v => (s.step c (.setConversation v)).1 = none →
      s.routes.Same (s.step c (.setConversation v)).2.routes
  | .setRoute id route => (s.step c (.setRoute id route)).1 = none →
      s.routes.Same (s.step c (.setRoute id route)).2.routes
  | _ => True

/-- A write finds nothing under its identifier but, at most, what it writes itself, and a route under
a new nonce finds its conversation. -/
def Writes (s : Storage) (c : Choice) : RepoOp → Prop
  | .setConversation v => ∀ w, s.routes.conversations.lookup v.id = some w →
      w = ExpirationWrapper.new (s.now + c.elapsed) v CONVERSATIONS_EXPIRATION_TIME
  | .setRoute id route =>
      (∀ w, s.routes.routes.lookup route.nonce = some w →
        w = ExpirationWrapper.new (s.now + c.elapsed) route ROUTES_EXPIRATION_TIME) ∧
      (s.routes.routes.lookup route.nonce = none → s.routes.conversations.lookup id ≠ none)
  | _ => True

theorem refusedSame_iff (s : Storage) (c : Choice) (op : RepoOp) :
    s.RefusedSame c op ↔ s.Writes c op := by
  cases op with
  | setConversation v => exact RouteStore.setConversation_same
  | setRoute id route => exact RouteStore.setRoute_same
  | _ => exact Iff.rfl

def next (s : Storage) (x : Choice × RepoOp) : Option Storage := some (s.step x.1 x.2).2

end Storage

/-- What is refused leaves no trace if and only if the write meets no record and does not miss its
conversation; and so in a run, if and only if this holds of each of its writes. -/
theorem refused_writes_leave_nothing (s : Storage) (c : Choice) (op : RepoOp)
    (members : Table String Member) (xs : List (Choice × RepoOp)) :
    (s.RefusedSame c op ↔ s.Writes c op) ∧
    (Each Storage.next (fun s x => s.RefusedSame x.1 x.2) (Storage.start members) xs ↔
      Each Storage.next (fun s x => s.Writes x.1 x.2) (Storage.start members) xs) := by
  refine ⟨Storage.refusedSame_iff s c op, ?_⟩
  apply each_congr (I := fun _ => True)
  case hI => exact fun _ _ _ _ _ _ => trivial
  case hCD => exact fun s x _ => s.refusedSame_iff x.1 x.2
  case hs => trivial

/-- A route comes for a conversation that has just been finalized. -/
def finalizedMeanwhile : List (Choice × RepoOp) :=
  [(⟨0, 0⟩, .setConversation (Conversation.new "c" "alice" "bob" 1)),
    (⟨0, 0⟩, .removeConversation "c"), (⟨0, 0⟩, .setRoute "c" (northRoute "n"))]

/-- The route is refused, and stands under its nonce from then on. -/
theorem refused_route_stands : ¬ ∀ (members : Table String Member) (xs : List (Choice × RepoOp)),
    Each Storage.next (fun s x => s.RefusedSame x.1 x.2) (Storage.start members) xs := by
  intro hall
  obtain ⟨-, hopened⟩ := hall ∅ finalizedMeanwhile
  obtain ⟨-, hfinalized⟩ := hopened _ rfl
  obtain ⟨hrefused, -⟩ := hfinalized _ rfl
  have hsame := (hrefused (by decide)).routes "n"
  revert hsame
  decide

/-- What the controller's own requests write is new, so that only a route whose conversation has
gone leaves something behind when it is refused. -/
theorem pending_write_same {C : ControllerPool → ControllerMove → Prop}
    {members : Table String Member} {p : ControllerPool} (hp : Reach C (Storage.start members) p)
    {i : Nat} {j : Job} {op : RepoOp} {k : op.Res → Program}
    (ht : p.tasks[i]? = some (j, .call op k)) (c : Choice) :
    p.state.RefusedSame c op ↔
      ∀ id route, op = .setRoute id route → p.state.routes.conversations.lookup id ≠ none := by
  have hnew : ∀ kind id, op.lodges = some (kind, id) → ¬ p.state.Keeps kind id := by
    intro kind id hl hkeeps
    obtain ⟨e, he, hel⟩ := lodged_of_keeps hp hkeeps
    exact lodged_once hp ht hl e he hel
  rw [Storage.refusedSame_iff]
  cases op with
  | setConversation v =>
    have hnone := not_not.mp (hnew .conversationId v.id rfl)
    constructor
    · exact fun _ _ _ h => nomatch h
    · intro _ w hw
      rw [hnone] at hw
      nomatch hw
  | setRoute id route =>
    have hnone := not_not.mp (hnew .nonce route.nonce rfl)
    constructor
    · rintro ⟨-, hconv⟩ id' route' he
      cases he
      exact hconv hnone
    · intro hconv
      refine ⟨fun w hw => ?_, fun _ => hconv id route rfl⟩
      rw [hnone] at hw
      nomatch hw
  | _ =>
    constructor
    · exact fun _ _ _ h => nomatch h
    · exact fun _ => trivial

end FuzzyChat
