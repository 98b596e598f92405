import FuzzyChat.Interleave.System

/-! The rule by which a statement about every run is proved one program at a time: between two steps
of a task the others may do whatever keeps the invariant. -/

namespace Interleave
variable {S : System}

structure Hist.Before (h h' : Hist S) : Prop where
  jobs : h.jobs <+: h'.jobs
  log : h.log ⊆ h'.log

/-- Task `i` carried out `op` in the state `pre` and was answered `r`. -/
def Hist.Did (h : Hist S) (i : Nat) (pre : S.State) (op : S.Op) (r : S.Res op) : Prop :=
  (⟨i, pre, op, r⟩ : Event S) ∈ h.log

/-- `h'` comes after `h`, and task `i` has not moved in between. -/
structure Hist.Later (i : Nat) (h h' : Hist S) : Prop where
  jobs : h.jobs <+: h'.jobs
  log : ∃ new, h'.log = new ++ h.log ∧ ∀ e ∈ new, e.task ≠ i

namespace Hist

theorem Before.trans {h h' h'' : Hist S} (a : h.Before h') (b : h'.Before h'') : h.Before h'' :=
  ⟨a.jobs.trans b.jobs, List.Subset.trans a.log b.log⟩

theorem before_accept (h : Hist S) (j : S.Job) : h.Before (h.accept j) :=
  ⟨List.prefix_append _ _, List.Subset.refl _⟩

theorem before_record (h : Hist S) (i : Nat) (op : S.Op) (r : S.Res op) (s : S.State) :
    h.Before (h.record i op r s) := ⟨List.prefix_refl _, List.subset_cons_self _ _⟩

theorem Before.did {h h' : Hist S} (a : h.Before h') {i : Nat} {pre : S.State} {op : S.Op}
    {r : S.Res op} (hd : h.Did i pre op r) : h'.Did i pre op r := a.log hd

theorem Before.job {h h' : Hist S} (a : h.Before h') {i : Nat} {j : S.Job}
    (hj : h.jobs[i]? = some j) : h'.jobs[i]? = some j := by
  obtain ⟨t, ht⟩ := a.jobs
  rw [← ht, List.getElem?_append_left (List.getElem?_eq_some_iff.mp hj).1, hj]

theorem did_record (h : Hist S) (i : Nat) (op : S.Op) (r : S.Res op) (s : S.State) :
    (h.record i op r s).Did i h.state op r := List.mem_cons_self

theorem Later.refl (i : Nat) (h : Hist S) : h.Later i h :=
  ⟨List.prefix_refl _, [], rfl, fun _ he => nomatch he⟩

theorem Later.trans {i : Nat} {h h' h'' : Hist S} (a : h.Later i h') (b : h'.Later i h'') :
    h.Later i h'' := by
  obtain ⟨new, hn, hni⟩ := a.log
  obtain ⟨new', hn', hni'⟩ := b.log
  refine ⟨a.jobs.trans b.jobs, new' ++ new, by rw [hn', hn, List.append_assoc], ?_⟩
  intro e he
  exact (List.mem_append.mp he).elim (hni' e) (hni e)

theorem later_accept (i : Nat) (h : Hist S) (j : S.Job) : h.Later i (h.accept j) :=
  ⟨List.prefix_append _ _, [], rfl, fun _ he => nomatch he⟩

theorem later_record {i i' : Nat} (hi : i' ≠ i) (h : Hist S) (op : S.Op) (r : S.Res op)
    (s : S.State) : h.Later i (h.record i' op r s) := by
  refine ⟨List.prefix_refl _, [⟨i', h.state, op, r⟩], rfl, ?_⟩
  intro e he
  rw [List.mem_singleton.mp he]
  exact hi

theorem Later.before {i : Nat} {h h' : Hist S} (a : h.Later i h') : h.Before h' := by
  obtain ⟨new, hn, -⟩ := a.log
  exact ⟨a.jobs, hn ▸ List.subset_append_right _ _⟩

end Hist

/-- Whatever the other tasks do, the program keeps `I` at each of its steps (assuming `G` of the
moment a step is taken) and returns only results of which `Q` holds. -/
def Prog.Safe (I : Hist S → Prop) (G : Hist S → Nat → Prog S.Res S.Out → Prop) (i : Nat)
    (Q : S.Out → Hist S → Prop) : Prog S.Res S.Out → Hist S → Prop
  | .ret a, h => Q a h
  | .call op k, h => ∀ h' c r s, h.Later i h' → I h' → G h' i (.call op k) →
      S.exec i c op h'.state = some (r, s) →
        I (h'.record i op r s) ∧ (k r).Safe I G i Q (h'.record i op r s)

theorem Prog.Safe.later {I : Hist S → Prop} {G : Hist S → Nat → Prog S.Res S.Out → Prop} {i : Nat}
    {Q : S.Out → Hist S → Prop} (hQ : ∀ a h h', Q a h → h.Later i h' → Q a h')
    {p : Prog S.Res S.Out} {h h' : Hist S} (hp : p.Safe I G i Q h) (hl : h.Later i h') :
    p.Safe I G i Q h' := by
  cases p with
  | ret a => exact hQ a h h' hp hl
  | call op k => exact fun h'' c r s hl' => hp h'' c r s (hl.trans hl')

theorem Reach.task_lt {C : Pool S → Move S → Prop} {s₀ : S.State} {p : Pool S}
    (hp : Reach C s₀ p) : ∀ e ∈ p.log, e.task < p.tasks.length := by
  induction hp with
  | start => exact fun e he => nomatch he
  | step _ _ hq ih =>
    intro e he
    rcases Pool.step_eq_some.mp hq with ⟨j, -, -, rfl⟩ | ⟨i, c, j, op, k, r, s, -, ht, -, rfl⟩
    · exact Nat.lt_of_lt_of_le (ih e he) (by simp [Pool.accept])
    · rw [Pool.advance, List.length_set]
      rcases List.mem_cons.mp he with rfl | he
      · exact (List.getElem?_eq_some_iff.mp ht).1
      · exact ih e he

theorem Reach.event {C : Pool S → Move S → Prop} {s₀ : S.State} {p : Pool S} (hp : Reach C s₀ p) :
    ∀ e ∈ p.log, ∃ (p₀ : Pool S) (c : S.Choice) (j : S.Job) (k : S.Res e.op → Prog S.Res S.Out),
      Reach C s₀ p₀ ∧ p₀.hist.Before p.hist ∧ C p₀ (.act e.task c) ∧
        p₀.tasks[e.task]? = some (j, .call e.op k) ∧ e.pre = p₀.state ∧
        ∃ s, S.exec e.task c e.op p₀.state = some (e.res, s) := by
  induction hp with
  | start => exact fun e he => nomatch he
  | @step p q m hp hc hq ih =>
    intro e he
    rcases Pool.step_eq_some.mp hq with ⟨j, -, -, rfl⟩ | ⟨i, c, j, op, k, r, s, rfl, ht, hx, rfl⟩
    · obtain ⟨p₀, c, j₀, k, hp₀, hb, hx⟩ := ih e he
      exact ⟨p₀, c, j₀, k, hp₀, hb.trans (Pool.hist_accept p j ▸ p.hist.before_accept j), hx⟩
    · have hb : p.hist.Before (p.advance i j op k r s).hist :=
        Pool.hist_advance ht r s ▸ p.hist.before_record i op r s
      rcases List.mem_cons.mp he with rfl | he
      · exact ⟨p, c, j, k, hp, hb, hc, ht, rfl, s, hx⟩
      · obtain ⟨p₀, c₀, j₀, k₀, hp₀, hb₀, hx⟩ := ih e he
        exact ⟨p₀, c₀, j₀, k₀, hp₀, hb₀.trans hb, hx⟩

/-- If the invariant holds at the start and every program is safe from the moment its job is
accepted, then in every run the invariant holds and every task is safe. -/
theorem Reach.safe {I : Hist S → Prop} {G : Hist S → Nat → Prog S.Res S.Out → Prop}
    {C : Pool S → Move S → Prop} {Q : S.Job → Nat → S.Out → Hist S → Prop} {s₀ : S.State}
    (hstart : I ⟨s₀, [], []⟩)
    (haccept : ∀ (h : Hist S) j, I h → S.admits h.jobs j → I (h.accept j))
    (hprog : ∀ (h : Hist S) j, S.admits h.jobs j → (∀ e ∈ h.log, e.task < h.jobs.length) →
      (S.prog j).Safe I G h.jobs.length (Q j h.jobs.length) (h.accept j))
    (hQ : ∀ j i a (h h' : Hist S), Q j i a h → h.Later i h' → Q j i a h')
    (hG : ∀ (p : Pool S) i c t, C p (.act i c) → p.tasks[i]? = some t → G p.hist i t.2)
    {p : Pool S} (hp : Reach C s₀ p) :
    I p.hist ∧ ∀ i j (pr : Prog S.Res S.Out), p.tasks[i]? = some (j, pr) →
      pr.Safe I G i (Q j i) p.hist := by
  induction hp with
  | start => exact ⟨hstart, fun i j pr h => nomatch h⟩
  | @step p q m hp hc hq ih =>
    obtain ⟨hI, hsafe⟩ := ih
    rcases Pool.step_eq_some.mp hq with ⟨j, rfl, hj, rfl⟩ | ⟨i, c, j, op, k, r, s, rfl, ht, he, rfl⟩
    · rw [Pool.hist_accept]
      refine ⟨haccept _ _ hI hj, fun i' j' pr hi' => ?_⟩
      rcases Pool.tasks_accept.mp hi' with hold | ⟨rfl, hnew⟩
      · exact (hsafe i' j' pr hold).later (hQ j' i') (Hist.later_accept i' _ j)
      · cases hnew
        simpa [Pool.hist] using hprog p.hist j hj (by simpa [Pool.hist] using hp.task_lt)
    · obtain ⟨hI', hk⟩ :=
        hsafe i j _ ht p.hist c r s (Hist.Later.refl i _) hI (hG p i c _ hc ht) he
      rw [Pool.hist_advance ht]
      refine ⟨hI', fun i' j' pr hi' => ?_⟩
      rcases (Pool.tasks_advance ht).mp hi' with ⟨rfl, hnew⟩ | ⟨hii, hold⟩
      · cases hnew
        exact hk
      · exact (hsafe i' j' pr hold).later (hQ j' i') (Hist.later_record (Ne.symm hii) _ op r s)

end Interleave
