import FuzzyChat.Interleave.Trace

/-! What a moment of a run means for all that comes after it. -/

namespace Interleave

/-- Answered as `A` tells, the program asks for operations in `O` only and ends with no result but
one in `R`. -/
def Prog.Within {Op : Type} {Res : Op → Type} {α : Type} (A : (op : Op) → Res op → Prop)
    (O : Op → Prop) (R : α → Prop) : Prog Res α → Prop
  | ret a => R a
  | call op k => O op ∧ ∀ r, A op r → (k r).Within A O R

theorem Prog.Within.answered {Op : Type} {Res : Op → Type} {α : Type}
    {A : (op : Op) → Res op → Prop} {O : Op → Prop} {R : α → Prop} {p rest : Prog Res α}
    {es : List (Sigma Res)} (hp : p.Within A O R) (h : p.Leads es rest) {x : Sigma Res}
    (hx : x ∈ es) (hO : ¬ O x.1) : ∃ y ∈ es, ¬ A y.1 y.2 := by
  induction h with
  | done p => cases hx
  | @step op k r es rest h ih =>
    obtain ⟨hop, hk⟩ := hp
    by_cases hr : A op r
    · rcases List.mem_cons.mp hx with rfl | hx
      · exact absurd hop hO
      · obtain ⟨y, hy, hA⟩ := ih (hk r hr) hx
        exact ⟨y, List.mem_cons_of_mem _ hy, hA⟩
    · exact ⟨_, List.mem_cons_self, hr⟩

variable {S : System}

theorem Hist.Before.refl (h : Hist S) : h.Before h := ⟨List.prefix_refl _, List.Subset.refl _⟩

theorem Pool.before_step {p q : Pool S} {m : Move S} (hq : p.step m = some q) :
    p.hist.Before q.hist := by
  rcases Pool.step_eq_some.mp hq with ⟨j, -, -, rfl⟩ | ⟨i, c, j, op, k, r, s, -, ht, -, rfl⟩
  · rw [Pool.hist_accept]
    exact p.hist.before_accept j
  · rw [Pool.hist_advance ht]
    exact p.hist.before_record i op r s

abbrev Pool.Onward : Pool S → Pool S → Prop :=
  Relation.ReflTransGen fun p q => ∃ m, p.step m = some q

theorem Pool.onward_of_run {p q : Pool S} {ms : List (Move S)} (hq : p.run ms = some q) :
    p.Onward q := by
  induction ms generalizing p with
  | nil =>
    cases hq
    exact .refl
  | cons m ms ih =>
    obtain ⟨p', hm, hq⟩ := Option.bind_eq_some_iff.mp hq
    exact (ih hq).head ⟨m, hm⟩

theorem Pool.Onward.before {p q : Pool S} (h : p.Onward q) : p.hist.Before q.hist := by
  induction h with
  | refl => exact .refl _
  | tail _ hm ih =>
    obtain ⟨m, hm⟩ := hm
    exact ih.trans (Pool.before_step hm)

theorem Reach.onward {s₀ : S.State} {p q : Pool S} (hp : Reachable s₀ p) (h : p.Onward q) :
    Reachable s₀ q := by
  induction h with
  | refl => exact hp
  | tail _ hm ih =>
    obtain ⟨m, hm⟩ := hm
    exact ih.step trivial hm

theorem Pool.run_snoc {p q q' : Pool S} {ms : List (Move S)} {m : Move S} (hq : p.run ms = some q)
    (hm : q.step m = some q') : p.run (ms ++ [m]) = some q' := by
  induction ms generalizing p with
  | nil =>
    cases hq
    exact Option.bind_eq_some_iff.mpr ⟨q', hm, rfl⟩
  | cons m' ms ih =>
    obtain ⟨p', hm', hq⟩ := Option.bind_eq_some_iff.mp hq
    exact Option.bind_eq_some_iff.mpr ⟨p', hm', ih hq⟩

theorem Reach.after {C : Pool S → Move S → Prop} {s₀ : S.State} {p : Pool S} (hp : Reach C s₀ p) :
    ∀ e ∈ p.log, ∃ (p₀ p₁ : Pool S) (c : S.Choice) (ms : List (Move S)), Reach C s₀ p₁ ∧
      S.exec e.task c e.op p₀.state = some (e.res, p₁.state) ∧ e ∈ p₁.log ∧ p₁.run ms = some p := by
  induction hp with
  | start => exact fun e he => by cases he
  | @step p q m hp hc hq ih =>
    intro e he
    have hold : e ∈ p.log → ∃ (p₀ p₁ : Pool S) (c : S.Choice) (ms : List (Move S)),
        Reach C s₀ p₁ ∧ S.exec e.task c e.op p₀.state = some (e.res, p₁.state) ∧ e ∈ p₁.log ∧
        p₁.run ms = some q := fun he => by
      obtain ⟨p₀, p₁, c, ms, hp₁, hx, he₁, hms⟩ := ih e he
      exact ⟨p₀, p₁, c, ms ++ [m], hp₁, hx, he₁, Pool.run_snoc hms hq⟩
    rcases Pool.step_eq_some.mp hq with ⟨j, -, -, rfl⟩ | ⟨i, c, j, op, k, r, s, -, -, hx, rfl⟩
    · exact hold he
    · rcases List.mem_cons.mp he with rfl | he
      · exact ⟨p, _, c, [], hp.step hc hq, hx, List.mem_cons_self, rfl⟩
      · exact hold he

/-- Where every operation after a moment is answered as `A` tells, the jobs accepted after it end as
they do when they are answered so. -/
theorem Pool.within_of_run {A : (op : S.Op) → S.Res op → Prop} {O : S.Op → Prop}
    {R : S.Out → Prop} {I : Pool S → Prop} (hI : ∀ p q m, I p → p.step m = some q → I q)
    (hA : ∀ p i c op r s, I p → S.exec i c op p.state = some (r, s) → A op r)
    {p q : Pool S} {ms : List (Move S)} (hp : I p) (hq : p.run ms = some q) {i : Nat} {j : S.Job}
    {pr : Prog S.Res S.Out} (hi : p.tasks.length ≤ i) (ht : q.tasks[i]? = some (j, pr))
    (hj : (S.prog j).Within A O R) : pr.Within A O R := by
  have hlate : ∀ i j (pr : Prog S.Res S.Out), p.tasks.length ≤ i → p.tasks[i]? = some (j, pr) →
      (S.prog j).Within A O R → pr.Within A O R := fun i j pr hi ht _ => by
    rw [List.getElem?_eq_none hi] at ht
    cases ht
  revert hlate hi
  generalize p.tasks.length = n
  intro hi hlate
  induction ms generalizing p with
  | nil =>
    cases hq
    exact hlate i j pr hi ht hj
  | cons m ms ih =>
    obtain ⟨p', hm, hq⟩ := Option.bind_eq_some_iff.mp hq
    refine ih (hI p p' m hp hm) hq fun i j pr hi ht hj => ?_
    rcases Pool.step_eq_some.mp hm with ⟨j', -, -, rfl⟩ | ⟨i', c, j', op, k, r, s, -, ht', hx, rfl⟩
    · rcases Pool.tasks_accept.mp ht with hold | ⟨-, hnew⟩
      · exact hlate i j pr hi hold hj
      · cases hnew
        exact hj
    · rcases (Pool.tasks_advance ht').mp ht with ⟨rfl, hnew⟩ | ⟨-, hold⟩
      · cases hnew
        exact (hlate i _ _ hi ht' hj).2 r (hA p i c op r s hp hx)
      · exact hlate i j pr hi hold hj

end Interleave
