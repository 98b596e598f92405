import FuzzyChat.Interleave.System

/-! Jobs that the others do not disturb: what they come to among the others, they come to by
themselves. -/

namespace List
variable {α : Type} {P : α → Bool} {x y : α}

theorem filter_set_of_neg (hx : P x = false) (hy : P y = false) {l : List α} {i : Nat}
    (h : l[i]? = some x) : (l.set i y).filter P = l.filter P := by
  induction l generalizing i with
  | nil => rfl
  | cons a l ih =>
    cases i with
    | zero =>
      obtain rfl : a = x := Option.some.inj h
      rw [set_cons_zero, filter_cons_of_neg (by simp [hy]), filter_cons_of_neg (by simp [hx])]
    | succ i => rw [set_cons_succ, filter_cons, filter_cons, ih h]

theorem filter_set_of_pos (hx : P x = true) (hy : P y = true) {l : List α} {i : Nat}
    (h : l[i]? = some x) :
    ∃ i', (l.filter P)[i']? = some x ∧ (l.set i y).filter P = (l.filter P).set i' y := by
  induction l generalizing i with
  | nil => nomatch h
  | cons a l ih =>
    cases i with
    | zero =>
      obtain rfl : a = x := Option.some.inj h
      refine ⟨0, ?_, ?_⟩
      · rw [filter_cons_of_pos hx, getElem?_cons_zero]
      · rw [set_cons_zero, filter_cons_of_pos hy, filter_cons_of_pos hx, set_cons_zero]
    | succ i =>
      obtain ⟨i', hi', hset⟩ := ih h
      rw [set_cons_succ, filter_cons, filter_cons, hset]
      split_ifs
      · exact ⟨i' + 1, hi', rfl⟩
      · exact ⟨i', hi', rfl⟩

end List

namespace Interleave
variable {S : System}

/-- The jobs go by what they see of the state, and the other jobs leave that as it is. -/
structure Apart (mine : S.Job → Prop) [DecidablePred mine] (sees : S.State → S.State → Prop) :
    Prop where
  admits : ∀ js j, S.admits js j → mine j → S.admits (js.filter fun j => decide (mine j)) j
  own : ∀ j, mine j → (S.prog j).All fun op _ => ∀ i i' c s s' r t, sees s s' →
    S.exec i c op s = some (r, t) → ∃ c' t', S.exec i' c' op s' = some (r, t') ∧ sees t t'
  others : ∀ j, ¬ mine j → (S.prog j).All fun op _ => ∀ i c s s' r t, sees s s' →
    S.exec i c op s = some (r, t) → sees t s'

variable {mine : S.Job → Prop} [DecidablePred mine] {sees : S.State → S.State → Prop}

def Pool.tasksOf (mine : S.Job → Prop) [DecidablePred mine] (p : Pool S) :
    List (S.Job × Prog S.Res S.Out) := p.tasks.filter fun t => decide (mine t.1)

theorem Pool.mem_tasksOf {p : Pool S} {t : S.Job × Prog S.Res S.Out} :
    t ∈ p.tasksOf mine ↔ t ∈ p.tasks ∧ mine t.1 := by
  rw [tasksOf, List.mem_filter, decide_eq_true_eq]

theorem Pool.map_tasksOf (p : Pool S) :
    (p.tasksOf mine).map Prod.fst = (p.tasks.map Prod.fst).filter fun j => decide (mine j) := by
  rw [tasksOf, List.filter_map]
  rfl

section reach
variable {s₀ : S.State} {p : Pool S} {i : Nat} {j : S.Job} {op : S.Op}
  {k : S.Res op → Prog S.Res S.Out}

theorem Apart.own_next (h : Apart mine sees) (hp : Reachable s₀ p)
    (ht : p.tasks[i]? = some (j, .call op k)) (hj : mine j) (i' : Nat) {c : S.Choice}
    {s s' t : S.State} {r : S.Res op} (hs : sees s s') (hexec : S.exec i c op s = some (r, t)) :
    ∃ c' t', S.exec i' c' op s' = some (r, t') ∧ sees t t' := by
  have hall := Reach.all (P := fun j op _ => mine j → ∀ i i' c s s' r t, sees s s' →
    S.exec i c op s = some (r, t) → ∃ c' t', S.exec i' c' op s' = some (r, t') ∧ sees t t')
    (fun j => ?_) hp i j _ ht
  · exact hall.1 hj i i' c s s' r t hs hexec
  · by_cases hj : mine j
    · exact (h.own j hj).imp fun _ _ hop _ => hop
    · exact Prog.all_of_forall (fun _ _ hmine => absurd hmine hj) _

theorem Apart.others_next (h : Apart mine sees) (hp : Reachable s₀ p)
    (ht : p.tasks[i]? = some (j, .call op k)) (hj : ¬ mine j) {c : S.Choice} {s s' t : S.State}
    {r : S.Res op} (hs : sees s s') (hexec : S.exec i c op s = some (r, t)) : sees t s' := by
  have hall := Reach.all (P := fun j op _ => ¬ mine j → ∀ i c s s' r t, sees s s' →
    S.exec i c op s = some (r, t) → sees t s') (fun j => ?_) hp i j _ ht
  · exact hall.1 hj i c s s' r t hs hexec
  · by_cases hj : mine j
    · exact Prog.all_of_forall (fun _ _ hmine => absurd hj hmine) _
    · exact (h.others j hj).imp fun _ _ hop _ => hop

end reach

/-- By themselves the jobs give the same results, with what they see as the state. -/
theorem Reach.apart (h : Apart mine sees) {s₀ s₀' : S.State} (h₀ : sees s₀ s₀') {p : Pool S}
    (hp : Reachable s₀ p) :
    ∃ q : Pool S, Reachable s₀' q ∧ q.tasks = p.tasksOf mine ∧ sees p.state q.state := by
  induction hp with
  | start => exact ⟨Pool.start s₀', .start, rfl, h₀⟩
  | @step p p' m hp hc hq ih =>
    obtain ⟨q, hreach, htasks, hsees⟩ := ih
    rcases Pool.step_eq_some.mp hq with ⟨j, rfl, hadmits, rfl⟩ |
      ⟨i, c, j, op, k, r, s, rfl, ht, hexec, rfl⟩
    · by_cases hj : mine j
      · -- a job of ours is taken on here as well
        have hadmits' : S.admits (q.tasks.map Prod.fst) j := by
          rw [htasks, Pool.map_tasksOf]
          exact h.admits _ j hadmits hj
        refine ⟨q.accept j, hreach.step (m := .spawn j) trivial (if_pos hadmits'), ?_, hsees⟩
        rw [Pool.tasksOf, Pool.accept, Pool.accept, List.filter_append, htasks, Pool.tasksOf,
          List.filter_cons_of_pos (by simpa using hj), List.filter_nil]
      · refine ⟨q, hreach, ?_, hsees⟩
        rw [htasks, Pool.tasksOf, Pool.tasksOf, Pool.accept, List.filter_append,
          List.filter_cons_of_neg (by simpa using hj), List.filter_nil, List.append_nil]
    · by_cases hj : mine j
      · obtain ⟨i', hi', hset⟩ := List.filter_set_of_pos (P := fun t => decide (mine t.1))
          (y := (j, k r)) (decide_eq_true hj) (decide_eq_true hj) ht
        obtain ⟨c', t', hexec', hsees'⟩ := h.own_next hp ht hj i' hsees hexec
        have ht' : q.tasks[i']? = some (j, .call op k) := by
          rw [htasks]
          exact hi'
        refine ⟨q.advance i' j op k r t', hreach.step (m := .act i' c') trivial ?_, ?_, hsees'⟩
        · exact Pool.step_eq_some.mpr (.inr ⟨i', c', j, op, k, r, t', rfl, ht', hexec', rfl⟩)
        · rw [Pool.tasksOf, Pool.advance, Pool.advance, hset, htasks, Pool.tasksOf]
      · refine ⟨q, hreach, ?_, h.others_next hp ht hj hsees hexec⟩
        rw [htasks, Pool.tasksOf, Pool.tasksOf, Pool.advance,
          List.filter_set_of_neg (y := (j, k r)) (decide_eq_false hj) (decide_eq_false hj) ht]

end Interleave
