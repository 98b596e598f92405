import FuzzyChat.Interleave.Prog

/-! Pools of jobs whose programs take their atomic steps in any order, and the runs of a pool. -/

namespace Interleave

structure System where
  Op : Type
  Res : Op → Type
  State : Type
  Choice : Type
  Job : Type
  Out : Type
  /-- One operation of the task with the given number. A choice settles what the state does not:
  the clock reading, a random draw. `none` is a step that cannot be taken. -/
  exec : Nat → Choice → (op : Op) → State → Option (Res op × State)
  prog : Job → Prog Res Out
  admits : List Job → Job → Prop
  decAdmits : ∀ js j, Decidable (admits js j)

variable (S : System)

instance (js : List S.Job) (j : S.Job) : Decidable (S.admits js j) := S.decAdmits js j

structure Event where
  task : Nat
  pre : S.State
  op : S.Op
  res : S.Res op

/-- A pool without its programs: the state, the jobs accepted, and the steps taken, newest first. -/
structure Hist where
  state : S.State
  jobs : List S.Job
  log : List (Event S)

structure Pool where
  state : S.State
  tasks : List (S.Job × Prog S.Res S.Out)
  log : List (Event S)

inductive Move where
  | spawn (j : S.Job)
  | act (i : Nat) (c : S.Choice)

variable {S}

def Pool.start (s : S.State) : Pool S := ⟨s, [], []⟩

def Pool.hist (p : Pool S) : Hist S := ⟨p.state, p.tasks.map Prod.fst, p.log⟩

def Hist.accept (h : Hist S) (j : S.Job) : Hist S := { h with jobs := h.jobs ++ [j] }

def Hist.record (h : Hist S) (i : Nat) (op : S.Op) (r : S.Res op) (s : S.State) : Hist S :=
  ⟨s, h.jobs, ⟨i, h.state, op, r⟩ :: h.log⟩

def Pool.accept (p : Pool S) (j : S.Job) : Pool S :=
  { p with tasks := p.tasks ++ [(j, S.prog j)] }

def Pool.advance (p : Pool S) (i : Nat) (j : S.Job) (op : S.Op) (k : S.Res op → Prog S.Res S.Out)
    (r : S.Res op) (s : S.State) : Pool S :=
  ⟨s, p.tasks.set i (j, k r), ⟨i, p.state, op, r⟩ :: p.log⟩

def Pool.act (p : Pool S) (i : Nat) (c : S.Choice) : S.Job × Prog S.Res S.Out → Option (Pool S)
  | (_, .ret _) => none
  | (j, .call op k) => (S.exec i c op p.state).map fun x => p.advance i j op k x.1 x.2

def Pool.step (p : Pool S) : Move S → Option (Pool S)
  | .spawn j => if S.admits (p.tasks.map Prod.fst) j then some (p.accept j) else none
  | .act i c => p.tasks[i]?.bind (p.act i c)

def Pool.run (p : Pool S) : List (Move S) → Option (Pool S)
  | [] => some p
  | m :: ms => (p.step m).bind fun q => q.run ms

def Pool.returned (p : Pool S) (i : Nat) : Option (S.Job × S.Out) :=
  p.tasks[i]?.bind fun t => t.2.result?.map fun a => (t.1, a)

theorem Pool.returned_eq_some {p : Pool S} {i : Nat} {j : S.Job} {a : S.Out} :
    p.returned i = some (j, a) ↔ p.tasks[i]? = some (j, .ret a) := by
  simp only [returned, Option.bind_eq_some_iff, Option.map_eq_some_iff]
  constructor
  · rintro ⟨⟨j', pr⟩, ht, a', ha, he⟩
    cases pr with
    | ret b => cases ha; cases he; exact ht
    | call op k => nomatch ha
  · exact fun ht => ⟨_, ht, a, rfl, rfl⟩

/-- All a step can do: accept an admitted job, or carry out the next operation of one task. -/
theorem Pool.step_eq_some {p q : Pool S} {m : Move S} :
    p.step m = some q ↔
      (∃ j, m = .spawn j ∧ S.admits (p.tasks.map Prod.fst) j ∧ q = p.accept j) ∨
      ∃ i c j op k r s, m = .act i c ∧ p.tasks[i]? = some (j, .call op k) ∧
        S.exec i c op p.state = some (r, s) ∧ q = p.advance i j op k r s := by
  cases m with
  | spawn j =>
    by_cases h : S.admits (p.tasks.map Prod.fst) j <;> simp [step, h, eq_comm]
  | act i c =>
    simp only [step, Option.bind_eq_some_iff, reduceCtorEq, false_and, exists_false, false_or,
      Move.act.injEq]
    constructor
    · rintro ⟨⟨j, pr⟩, ht, hq⟩
      cases pr with
      | ret a => simp [act] at hq
      | call op k =>
        obtain ⟨⟨r, s⟩, he, rfl⟩ := Option.map_eq_some_iff.mp hq
        exact ⟨i, c, j, op, k, r, s, ⟨rfl, rfl⟩, ht, he, rfl⟩
    · rintro ⟨_, _, j, op, k, r, s, ⟨rfl, rfl⟩, ht, he, rfl⟩
      exact ⟨_, ht, by simp [act, he]⟩

/-- `p` is reached from the state `s₀` by steps that all meet `C`. -/
inductive Reach (C : Pool S → Move S → Prop) (s₀ : S.State) : Pool S → Prop
  | start : Reach C s₀ (Pool.start s₀)
  | step {p q : Pool S} {m : Move S} (hp : Reach C s₀ p) (hc : C p m) (hq : p.step m = some q) :
      Reach C s₀ q

/-- Every pool any schedule reaches. -/
abbrev Reachable (s₀ : S.State) : Pool S → Prop := Reach (fun _ _ => True) s₀

theorem Reach.mono {C D : Pool S → Move S → Prop} (hCD : ∀ p m, C p m → D p m) {s₀ : S.State}
    {p : Pool S} (h : Reach C s₀ p) : Reach D s₀ p := by
  induction h with
  | start => exact .start
  | step _ hc hq ih => exact ih.step (hCD _ _ hc) hq

theorem Reach.strengthen {C : Pool S → Move S → Prop} {D : Pool S → Prop} {s₀ : S.State}
    (hD : ∀ p, Reach C s₀ p → D p) {p : Pool S} (h : Reach C s₀ p) :
    Reach (fun p m => C p m ∧ D p) s₀ p := by
  induction h with
  | start => exact .start
  | step hp hc hq ih => exact ih.step ⟨hc, hD _ hp⟩ hq

section obeys
variable (C : Pool S → Move S → Prop) [∀ p m, Decidable (C p m)]

def Pool.obeys (p : Pool S) : List (Move S) → Bool
  | [] => true
  | m :: ms => decide (C p m) && (p.step m).all fun q => q.obeys ms

variable {C}

theorem Reach.run {s₀ : S.State} {p q : Pool S} (hp : Reach C s₀ p) {ms : List (Move S)}
    (hC : p.obeys C ms = true) (hq : p.run ms = some q) : Reach C s₀ q := by
  induction ms generalizing p with
  | nil => cases hq; exact hp
  | cons m ms ih =>
    obtain ⟨p', hm, hq⟩ := Option.bind_eq_some_iff.mp hq
    rw [Pool.obeys, hm, Option.all_some, Bool.and_eq_true, decide_eq_true_eq] at hC
    exact ih (hp.step hC.1 hm) hC.2 hq

end obeys

theorem Pool.obeys_true (p : Pool S) (ms : List (Move S)) :
    p.obeys (fun _ _ => True) ms = true := by
  induction ms generalizing p with
  | nil => rfl
  | cons m ms ih =>
    rw [obeys, decide_true, Bool.true_and, Option.all_eq_true]
    exact fun q _ => ih q

theorem Reachable.of_run {s₀ : S.State} {ms : List (Move S)} {q : Pool S}
    (hq : (Pool.start s₀).run ms = some q) : Reachable s₀ q :=
  Reach.start.run (Pool.obeys_true _ ms) hq

@[simp] theorem Pool.hist_accept (p : Pool S) (j : S.Job) : (p.accept j).hist = p.hist.accept j := by
  simp [hist, accept, Hist.accept]

theorem Pool.hist_advance {p : Pool S} {i : Nat} {j : S.Job} {op : S.Op}
    {k : S.Res op → Prog S.Res S.Out} (ht : p.tasks[i]? = some (j, .call op k)) (r : S.Res op)
    (s : S.State) : (p.advance i j op k r s).hist = p.hist.record i op r s := by
  have hi : i < (p.tasks.map Prod.fst).length := by
    simpa using (List.getElem?_eq_some_iff.mp ht).1
  have hj : (p.tasks.map Prod.fst)[i] = j := by
    simp [(List.getElem?_eq_some_iff.mp ht).2]
  have hset : (p.tasks.map Prod.fst).set i j = p.tasks.map Prod.fst := by
    rw [← hj, List.set_getElem_self]
  simp only [hist, advance, Hist.record, List.map_set, hset]

theorem Pool.tasks_accept {p : Pool S} {j : S.Job} {i : Nat} {t : S.Job × Prog S.Res S.Out} :
    (p.accept j).tasks[i]? = some t ↔
      p.tasks[i]? = some t ∨ i = p.tasks.length ∧ t = (j, S.prog j) := by
  rw [accept, List.getElem?_append]
  split_ifs with hi
  · simp [Nat.ne_of_lt hi]
  · rw [List.getElem?_singleton, List.getElem?_eq_none (Nat.le_of_not_lt hi)]
    split_ifs with h0
    · simp [show i = p.tasks.length by omega, eq_comm]
    · simp [show i ≠ p.tasks.length by omega]

theorem Pool.tasks_advance {p : Pool S} {i : Nat} {j : S.Job} {op : S.Op}
    {k : S.Res op → Prog S.Res S.Out} (ht : p.tasks[i]? = some (j, .call op k)) {r : S.Res op}
    {s : S.State} {i' : Nat} {t : S.Job × Prog S.Res S.Out} :
    (p.advance i j op k r s).tasks[i']? = some t ↔
      i' = i ∧ t = (j, k r) ∨ i' ≠ i ∧ p.tasks[i']? = some t := by
  have hi : i < p.tasks.length := (List.getElem?_eq_some_iff.mp ht).1
  by_cases hii : i' = i
  · subst hii
    simp [advance, hi, eq_comm]
  · simp [advance, List.getElem?_set_ne (Ne.symm hii), hii]

theorem Pool.log_run {p q : Pool S} {ms : List (Move S)} (hq : p.run ms = some q) {e : Event S}
    (he : e ∈ p.log) : e ∈ q.log := by
  induction ms generalizing p with
  | nil => cases hq; exact he
  | cons m ms ih =>
    obtain ⟨p', hm, hq⟩ := Option.bind_eq_some_iff.mp hq
    refine ih hq ?_
    rcases step_eq_some.mp hm with ⟨j, -, -, rfl⟩ | ⟨i, c, j, op, k, r, s, -, -, -, rfl⟩
    · exact he
    · exact List.mem_cons_of_mem _ he

theorem exists_run {β : Type} {p : Pool S} {ms : List (Move S)} {f : Pool S → β} {b : β}
    (h : (p.run ms).map f = some b) : ∃ q, p.run ms = some q ∧ f q = b :=
  Option.map_eq_some_iff.mp h

/-- What holds at every operation of the jobs' programs holds of what is left of them. -/
theorem Reach.all {C : Pool S → Move S → Prop} {s₀ : S.State}
    {P : S.Job → (op : S.Op) → (S.Res op → Prog S.Res S.Out) → Prop}
    (hP : ∀ j, (S.prog j).All (P j)) {p : Pool S} (hp : Reach C s₀ p) :
    ∀ (i : Nat) j (pr : Prog S.Res S.Out), p.tasks[i]? = some (j, pr) → pr.All (P j) := by
  induction hp with
  | start => exact fun i j pr h => nomatch h
  | step _ _ hq ih =>
    intro i j pr hi
    rcases Pool.step_eq_some.mp hq with ⟨j', -, -, rfl⟩ | ⟨i', c, j', op, k, r, s, -, ht, -, rfl⟩
    · rcases Pool.tasks_accept.mp hi with hold | ⟨-, hnew⟩
      · exact ih i j pr hold
      · cases hnew
        exact hP j
    · rcases (Pool.tasks_advance ht).mp hi with ⟨rfl, hnew⟩ | ⟨-, hold⟩
      · cases hnew
        exact (ih _ _ _ ht).2 r
      · exact ih i j pr hold

end Interleave
