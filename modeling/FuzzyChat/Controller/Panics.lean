import FuzzyChat.Controller.Shapes
import FuzzyChat.Controller.Records

/-! The unwraps that follow a guard: when a request can lose what the guard let it rely on. -/

namespace FuzzyChat
open Interleave

instance (s : Storage) (op : RepoOp) : Decidable (Holds s op) := by
  unfold Holds
  cases op <;> infer_instance

theorem holds_of_affirms {s : Storage} {c : Choice} {op : RepoOp}
    (ha : affirms op (s.step c op).1 = true) : Holds (s.step c op).2 op := by
  cases op with
  | getSession k =>
    rw [affirms, Storage.step_getSession, Option.isSome_iff_exists] at ha
    obtain ⟨info, hi⟩ := ha
    obtain ⟨w, hw, -⟩ := Option.map_eq_some_iff.mp hi
    have hm := AList.lookup_modify s.sessions.sessions k k
      (ExpirationWrapper.renew (s.now + c.elapsed))
    rw [if_pos rfl, hw] at hm
    exact fun hn => nomatch (congrArg (Option.map _) hm).symm.trans hn
  | getConversation id =>
    intro hn
    rw [affirms, Storage.step_getConversation, show s.routes.getConversation id = none from hn] at ha
    cases ha
  | _ => trivial

/-- No route has been stored under the nonce yet, or an end route is. -/
def MayEnd (h : ControllerHist) (n : String) : Prop :=
  (∀ e ∈ h.log, e.op.lodges ≠ some (.nonce, n)) ∨
    (h.state.routes.routes.lookup n).any (fun w => w.value.endRoute) = true

instance (h : ControllerHist) (n : String) : Decidable (MayEnd h n) := by
  unfold MayEnd
  infer_instance

/-- What the rest of a program relies on. A redemption that has yet to look its route up relies on
the conversation only as long as the route may turn out to be an end route. -/
def reliesOn (h : ControllerHist) (pr : Program) : List RepoOp :=
  match pr.head? with
  | some (.getRoute _ n) => if MayEnd h n then relies pr else []
  | _ => relies pr

theorem mem_reliesOn {h : ControllerHist} {pr : Program} {op : RepoOp} :
    op ∈ reliesOn h pr ↔
      op ∈ relies pr ∧ ∀ c n, pr.head? = some (.getRoute c n) → MayEnd h n := by
  unfold reliesOn
  split
  case h_1 c n hh =>
    rw [hh]
    constructor
    · intro hm
      split_ifs at hm with hend
      · refine ⟨hm, fun c' n' heq => ?_⟩
        cases heq
        exact hend
      · simp at hm
    · rintro ⟨hm, hend⟩
      rw [if_pos (hend c n rfl)]
      exact hm
  case h_2 hne =>
    constructor
    · exact fun hm => ⟨hm, fun c n hh => absurd hh (hne c n)⟩
    · exact fun hm => hm.1

def Relied (p : ControllerPool) : Prop :=
  ∀ t ∈ p.tasks, ∀ op ∈ reliesOn p.hist t.2, Holds p.state op

/-- The step takes nothing away that a task relies on. -/
def Spares (p : ControllerPool) (m : ControllerMove) : Prop :=
  ∀ t ∈ p.tasks, ∀ op ∈ reliesOn p.hist t.2, Holds p.state op →
    ∀ q ∈ p.step m, Holds q.state op

instance (p : ControllerPool) (m : ControllerMove) : Decidable (Spares p m) := by
  unfold Spares
  infer_instance

section steps
variable {C : ControllerPool → ControllerMove → Prop} {members : Table String Member}
  {p q : ControllerPool} {m : ControllerMove}

theorem mayEnd_step (hp : Reach C (Storage.start members) p) (hq : p.step m = some q) {n : String}
    (hend : MayEnd q.hist n) : MayEnd p.hist n := by
  rcases controller_step hq with ⟨j, -, rfl⟩ | ⟨i, c, j, op, k, -, ht, rfl⟩
  · exact hend
  · rw [Pool.hist_advance ht] at hend
    rcases hend with hnone | hany
    · exact .inl fun e he => hnone e (List.mem_cons_of_mem _ he)
    · obtain ⟨w, hw, hend⟩ := (Option.any_eq_true ..).mp hany
      rcases Storage.lookup_route_step hw with hold | ⟨id, rfl, rfl⟩
      · exact .inr ((Option.any_eq_true ..).mpr ⟨w, hold, hend⟩)
      · exact .inl (lodged_once hp ht rfl)

theorem mayEnd_of_ends {c : Choice} {id n : String}
    (hends : ends (.getRoute id n) (p.state.step c (.getRoute id n)).1 = true) :
    MayEnd p.hist n := by
  rw [Storage.step_getRoute] at hends
  obtain ⟨route, hget, hend⟩ := (Option.any_eq_true ..).mp hends
  obtain ⟨w, hw, rfl⟩ := Option.map_eq_some_iff.mp hget
  exact .inr ((Option.any_eq_true ..).mpr ⟨w, hw, hend⟩)

theorem relied_step (hreach : Reach C (Storage.start members) p) (hp : Relied p) (hs : Spares p m)
    (hq : p.step m = some q) : Relied q := by
  have hkept : ∀ t ∈ p.tasks, ∀ op ∈ reliesOn p.hist t.2, Holds q.state op := fun t ht op ho =>
    hs t ht op ho (hp t ht op ho) q hq
  intro t ht op ho
  obtain ⟨hrel, hhead⟩ := mem_reliesOn.mp ho
  have hold : t ∈ p.tasks → Holds q.state op := by
    intro htp
    apply hkept t htp
    exact mem_reliesOn.mpr ⟨hrel, fun c n hh => mayEnd_step hreach hq (hhead c n hh)⟩
  obtain ⟨i', hi'⟩ := List.getElem?_of_mem ht
  rcases controller_step hq with ⟨j, -, rfl⟩ | ⟨i, c, j, op₀, k, -, hi, rfl⟩
  · rcases Pool.tasks_accept.mp hi' with htp | ⟨-, rfl⟩
    · exact hold (List.mem_of_getElem? htp)
    · simp [(quiet_handler j).relies] at hrel
  · rcases (Pool.tasks_advance hi).mp hi' with ⟨-, rfl⟩ | ⟨-, htp⟩
    · -- the task that moved: it relied on this before, or has just been shown it
      rcases (hreach.all all_handler i j _ hi).1.relies _ op hrel with ⟨hbefore, hends⟩ | ⟨rfl, ha⟩
      · apply hkept _ (List.mem_of_getElem? hi)
        refine mem_reliesOn.mpr ⟨hbefore, fun id n hh => ?_⟩
        cases hh
        exact mayEnd_of_ends hends
      · exact holds_of_affirms (s := p.state) (c := c) ha
    · exact hold (List.mem_of_getElem? htp)

end steps

theorem relied {members : Table String Member} {p : ControllerPool}
    (hp : Reach Spares (Storage.start members) p) : Relied p := by
  induction hp with
  | start =>
    intro t ht
    cases ht
  | step hp hs hq ih => exact relied_step hp ih hs hq

/-- Where no step takes away what a task relies on, no request panics, but for a login that names no
type of component. -/
theorem no_panic {members : Table String Member} {p : ControllerPool}
    (hp : Reach Spares (Storage.start members) p) {i : Nat} {j : Job} {a : Except Abort Reply}
    (hret : p.returned i = some (j, a)) (hj : ∀ remoteAddr r, j.request ≠ .login remoteAddr r) :
    a ≠ .error .panic := by
  rintro rfl
  obtain ⟨-, hpost⟩ := Reach.handled (C := fun p m => Spares p m ∧ Relied p)
    (G := fun h _ pr => ∀ op ∈ reliesOn h pr, Holds h.state op)
    (fun p i c t hC ht op ho => hC.2 t (List.mem_of_getElem? ht) op ho)
    (hp.strengthen fun _ => relied)
  obtain ⟨h₀, pr, op, -, hG, hhead, ho, hn⟩ :=
    lost_of_post (hpost i j _ (Pool.returned_eq_some.mp hret)) hj
  apply hn
  apply hG op
  refine mem_reliesOn.mpr ⟨ho, fun c n hh => ?_⟩
  rw [hhead] at hh
  cases hh
  exact absurd trivial hn

def pingAlice : Job := ⟨.ping (some ⟨"10.0.0.1", 40000⟩) ⟨"k-alice"⟩, ""⟩

/-- While the redemption of a hop and a ping stand between their guards and what follows, Bob
redeems the end route, which finalizes the conversation, and logs out. -/
def sampleBetween : List ControllerMove :=
  inTurn (sampleHops ++ [(askRoute "k-north" "n4", 6), (redeemRoute "k-north" "n1", 2),
    (pingAlice, 1), (redeemRoute "k-bob" "n4", 6), (⟨.logout ⟨"k-bob"⟩, ""⟩, 3)]) ++
    [.act 10 ⟨0, 0⟩, .act 10 ⟨0, 0⟩, .act 9 ⟨0, 0⟩, .act 9 ⟨0, 0⟩]

theorem no_panic_sample : ∃ p : ControllerPool, Reach Spares (Storage.start sampleMembers) p ∧
    ∃ a b, p.returned 9 = some (redeemRoute "k-north" "n1", a) ∧
      p.returned 10 = some (pingAlice, b) ∧ a ≠ .error .panic ∧ b ≠ .error .panic := by
  obtain ⟨p, hrun, hseen⟩ : ∃ p, (Pool.start (Storage.start sampleMembers) :
      ControllerPool).run sampleBetween = some p ∧
        (p.returned 9, p.returned 10) =
          (some (redeemRoute "k-north" "n1", .ok (.redeem ⟨none⟩)),
            some (pingAlice, .ok (.ping ⟨"PONG", 0⟩))) :=
    exists_run (by decide +kernel)
  obtain ⟨h9, h10⟩ := Prod.mk.inj hseen
  have hp := Reach.start.run (C := Spares) (by decide +kernel) hrun
  refine ⟨p, hp, _, _, h9, h10, ?_, ?_⟩
  · exact no_panic hp h9 (fun _ _ h => by cases h)
  · exact no_panic hp h10 (fun _ _ h => by cases h)

/-- Alice logs out while a ping of hers is between the guard and the lookup. -/
theorem ping_panics : ¬ ∀ (members : Table String Member) (p : ControllerPool),
    Reachable (Storage.start members) p → ∀ i j a, p.returned i = some (j, a) →
      (∀ remoteAddr r, j.request ≠ .login remoteAddr r) → a ≠ .error .panic := by
  intro hall
  obtain ⟨p, hrun, h1⟩ : ∃ p, (Pool.start (Storage.start sampleMembers) : ControllerPool).run
      ((signIn "alice" 2 "k-alice").alone 0 3 ++ pingAlice.alone 1 1 ++
        (⟨.logout ⟨"k-alice"⟩, ""⟩ : Job).alone 2 3 ++ [.act 1 ⟨0, 0⟩]) = some p ∧
      p.returned 1 = some (pingAlice, .error .panic) :=
    exists_run (by decide)
  exact hall _ p (Reachable.of_run hrun) 1 _ _ h1 (fun _ _ h => nomatch h) rfl

end FuzzyChat
