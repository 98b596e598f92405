import FuzzyChat.Interleave.System

/-! Tasks under read-write locks: the guards they hold, the order in which they nest them, and who
waits for whom. -/

namespace Interleave

inductive Mode where
  | read
  | write
  deriving DecidableEq

def Mode.conflicts : Mode → Mode → Bool
  | read, read => false
  | _, _ => true

theorem Mode.conflicts_comm (m m' : Mode) : m.conflicts m' = m'.conflicts m := by
  cases m <;> cases m' <;> rfl

@[simp] theorem Mode.conflicts_write (m : Mode) : m.conflicts write = true := by cases m <;> rfl

inductive LockOp (L O : Type) where
  | acquire (l : L) (m : Mode)
  | release (l : L)
  | run (op : O)
  deriving DecidableEq

abbrev LockOp.Res {L O : Type} (R : O → Type) : LockOp L O → Type
  | acquire .. | release _ => Unit
  | run op => R op

structure Guard (L : Type) where
  task : Nat
  lock : L
  mode : Mode
  deriving DecidableEq

structure Guarded (L D : Type) where
  held : List (Guard L)
  data : D

section
variable {L O D Ch J A : Type} [DecidableEq L] {R : O → Type}

def blockers (held : List (Guard L)) (l : L) (m : Mode) : List (Guard L) :=
  held.filter fun g => decide (g.lock = l) && m.conflicts g.mode

/-- A lock is taken when no guard excludes it; until then the step cannot be taken. -/
def lockExec (exec : Ch → (op : O) → D → R op × D) (i : Nat) (c : Ch) :
    (op : LockOp L O) → Guarded L D → Option (op.Res R × Guarded L D)
  | .acquire l m, s =>
    if blockers s.held l m = [] then some ((), { s with held := ⟨i, l, m⟩ :: s.held }) else none
  | .release l, s =>
    some ((), { s with held := s.held.eraseP fun g => decide (g.task = i ∧ g.lock = l) })
  | .run op, s => some ((exec c op s.data).1, { s with data := (exec c op s.data).2 })

abbrev locking (exec : Ch → (op : O) → D → R op × D)
    (prog : J → Prog (LockOp.Res (L := L) R) A) : System where
  Op := LockOp L O
  Res := LockOp.Res R
  State := Guarded L D
  Choice := Ch
  Job := J
  Out := A
  exec := lockExec exec
  prog := prog
  admits _ _ := True
  decAdmits _ _ := inferInstance

def Prog.unguarded : Prog (LockOp.Res (L := L) R) A → Prog R A
  | .ret a => .ret a
  | .call (.acquire _ _) k => (k ()).unguarded
  | .call (.release _) k => (k ()).unguarded
  | .call (.run op) k => .call op fun r => (k r).unguarded

def Prog.asks? : Prog (LockOp.Res (L := L) R) A → Option (L × Mode)
  | .call (.acquire l m) _ => some (l, m)
  | _ => none

omit [DecidableEq L] in
theorem Prog.asks?_eq_some {pr : Prog (LockOp.Res (L := L) R) A} {l : L} {m : Mode} :
    pr.asks? = some (l, m) ↔ pr.head? = some (.acquire l m) := by
  cases pr with
  | ret a => exact ⟨fun h => (nomatch h), fun h => (nomatch h)⟩
  | call op k => cases op <;> simp [asks?, head?]

def stack (held : List (Guard L)) (i : Nat) : List (L × Mode) :=
  (held.filter fun g => decide (g.task = i)).map fun g => (g.lock, g.mode)

/-- Guards are dropped in the reverse of the order they are taken in, none is left over at the end,
and each is taken on top of guards that `allowed` lets it be taken on. -/
def Scoped (allowed : List (L × Mode) → L × Mode → Prop) :
    List (L × Mode) → Prog (LockOp.Res (L := L) R) A → Prop
  | held, .ret _ => held = []
  | held, .call (.acquire l m) k => allowed held (l, m) ∧ Scoped allowed ((l, m) :: held) (k ())
  | held, .call (.release l) k => ∃ m rest, held = (l, m) :: rest ∧ Scoped allowed rest (k ())
  | held, .call (.run _) k => ∀ r, Scoped allowed held (k r)

omit [DecidableEq L] in
theorem mem_stack {held : List (Guard L)} {i : Nat} {l : L} {m : Mode} :
    (l, m) ∈ stack held i ↔ ⟨i, l, m⟩ ∈ held := by
  simp only [stack, List.mem_map, List.mem_filter, decide_eq_true_eq, Prod.mk.injEq]
  constructor
  · rintro ⟨⟨_, _, _⟩, ⟨hg, rfl⟩, rfl, rfl⟩
    exact hg
  · exact fun hg => ⟨_, ⟨hg, rfl⟩, rfl, rfl⟩

omit [DecidableEq L] in
theorem stack_cons (held : List (Guard L)) (i i' : Nat) (l : L) (m : Mode) :
    stack (⟨i, l, m⟩ :: held) i' = if i = i' then (l, m) :: stack held i' else stack held i' := by
  by_cases h : i = i' <;> simp [stack, h]

theorem stack_release_ne {i i' : Nat} (h : i' ≠ i) (held : List (Guard L)) (l : L) :
    stack (held.eraseP fun g => decide (g.task = i ∧ g.lock = l)) i' = stack held i' := by
  induction held with
  | nil => rfl
  | cons g held ih =>
    rw [List.eraseP_cons, Bool.cond_decide]
    split_ifs with hg
    · have hne : g.task ≠ i' := hg.1 ▸ Ne.symm h
      rw [show g = ⟨g.task, g.lock, g.mode⟩ from rfl, stack_cons, if_neg hne]
    · rw [show g = ⟨g.task, g.lock, g.mode⟩ from rfl, stack_cons, stack_cons, ih]

theorem stack_release {i : Nat} {held : List (Guard L)} {l : L} {m : Mode} {rest : List (L × Mode)}
    (h : stack held i = (l, m) :: rest) :
    stack (held.eraseP fun g => decide (g.task = i ∧ g.lock = l)) i = rest := by
  induction held with
  | nil => nomatch h
  | cons g held ih =>
    obtain ⟨t, l', m'⟩ := g
    rw [stack_cons] at h
    rw [List.eraseP_cons, Bool.cond_decide]
    split_ifs at h with ht
    · obtain ⟨h1, h2⟩ := List.cons.inj h
      rw [if_pos ⟨ht, (Prod.mk.inj h1).1⟩, h2]
    · rw [if_neg fun hg => ht hg.1, stack_cons, if_neg ht]
      exact ih h

section reach
variable {exec : Ch → (op : O) → D → R op × D} {prog : J → Prog (LockOp.Res (L := L) R) A}
  {s₀ : Guarded L D} {p : Pool (locking exec prog)}

/-- The guards each task holds are those its program still has to drop. -/
theorem Reach.scoped {C : Pool (locking exec prog) → Move (locking exec prog) → Prop}
    {allowed : J → List (L × Mode) → L × Mode → Prop} (hprog : ∀ j, Scoped (allowed j) [] (prog j))
    (h0 : s₀.held = []) (hp : Reach C s₀ p) :
    (∀ (i : Nat) j (pr : Prog (LockOp.Res R) A), p.tasks[i]? = some (j, pr) →
        Scoped (allowed j) (stack p.state.held i) pr) ∧
      ∀ i, p.tasks.length ≤ i → stack p.state.held i = [] := by
  induction hp with
  | start =>
    refine ⟨fun i j pr ht => (nomatch ht), fun i _ => ?_⟩
    rw [show (Pool.start s₀ : Pool (locking exec prog)).state.held = [] from h0]
    rfl
  | @step p q m hp hc hq ih =>
    obtain ⟨hscoped, hnone⟩ := ih
    rcases Pool.step_eq_some.mp hq with ⟨j, rfl, -, rfl⟩ | ⟨i, c, j, op, k, r, s, rfl, ht, he, rfl⟩
    · refine ⟨fun i j' pr ht => ?_, fun i hi => hnone i ?_⟩
      · rcases Pool.tasks_accept.mp ht with ht | ⟨rfl, hnew⟩
        · exact hscoped i j' pr ht
        · cases hnew
          have := hnone p.tasks.length (Nat.le_refl _)
          simpa [Pool.accept, this] using hprog j
      · simp only [Pool.accept, List.length_append, List.length_singleton] at hi
        omega
    · have hlt : i < p.tasks.length := (List.getElem?_eq_some_iff.mp ht).1
      have hi := hscoped i j _ ht
      have hown : Scoped (allowed j) (stack s.held i) (k r) ∧
          ∀ i', i' ≠ i → stack s.held i' = stack p.state.held i' := by
        cases op with
        | acquire l m =>
          obtain ⟨-, he⟩ := Option.ite_none_right_eq_some.mp he
          cases he
          refine ⟨?_, fun i' hne => ?_⟩
          · rw [stack_cons, if_pos rfl]
            exact hi.2
          · rw [stack_cons, if_neg (Ne.symm hne)]
        | release l =>
          cases he
          obtain ⟨m, rest, hstack, hk⟩ := hi
          exact ⟨(stack_release hstack).symm ▸ hk, fun i' hne => stack_release_ne hne _ l⟩
        | run op =>
          cases he
          exact ⟨hi _, fun _ _ => rfl⟩
      refine ⟨fun i' j' pr ht' => ?_, fun i' hi' => ?_⟩
      · rcases (Pool.tasks_advance ht).mp ht' with ⟨rfl, hnew⟩ | ⟨hne, hold⟩
        · cases hnew
          exact hown.1
        · exact (hown.2 i' hne).symm ▸ hscoped i' j' pr hold
      · simp only [Pool.advance, List.length_set] at hi'
        exact (hown.2 i' (by omega)).trans (hnone i' hi')

/-- No two guards exclude each other. -/
theorem Reach.exclusive {C : Pool (locking exec prog) → Move (locking exec prog) → Prop}
    (h0 : s₀.held = []) (hp : Reach C s₀ p) :
    p.state.held.Pairwise fun g g' => g.lock = g'.lock → g.mode.conflicts g'.mode = false := by
  induction hp with
  | start =>
    rw [show (Pool.start s₀ : Pool (locking exec prog)).state.held = [] from h0]
    exact List.Pairwise.nil
  | @step p q m hp hc hq ih =>
    rcases Pool.step_eq_some.mp hq with ⟨j, rfl, -, rfl⟩ | ⟨i, c, j, op, k, r, s, rfl, ht, he, rfl⟩
    · exact ih
    · cases op with
      | acquire l m =>
        obtain ⟨hfree, he⟩ := Option.ite_none_right_eq_some.mp he
        cases he
        refine List.pairwise_cons.mpr ⟨fun g hg hl => ?_, ih⟩
        by_contra hne
        have hmem : g ∈ blockers p.state.held l m :=
          List.mem_filter.mpr ⟨hg, by simpa [← hl] using hne⟩
        rw [hfree] at hmem
        nomatch hmem
      | release l =>
        cases he
        exact ih.sublist List.eraseP_sublist
      | run op =>
        cases he
        exact ih

def Asks (p : Pool (locking exec prog)) (i : Nat) (l : L) (m : Mode) : Prop :=
  ∃ t ∈ p.tasks[i]?, t.2.head? = some (.acquire l m)

/-- The task asks for a lock on which the other holds a guard that excludes it. -/
def WaitsFor (p : Pool (locking exec prog)) (i i' : Nat) : Prop :=
  ∃ l m m', Asks p i l m ∧ (⟨i', l, m'⟩ : Guard L) ∈ p.state.held ∧ m.conflicts m' = true

theorem Reach.allowed {C : Pool (locking exec prog) → Move (locking exec prog) → Prop}
    {allowed : J → List (L × Mode) → L × Mode → Prop} (hprog : ∀ j, Scoped (allowed j) [] (prog j))
    (h0 : s₀.held = []) (hp : Reach C s₀ p) {i : Nat} {t : J × Prog (LockOp.Res R) A}
    (ht : p.tasks[i]? = some t) {l : L} {m : Mode} (hh : t.2.head? = some (.acquire l m)) :
    allowed t.1 (stack p.state.held i) (l, m) := by
  obtain ⟨j, pr⟩ := t
  have hs := (hp.scoped hprog h0).1 i j pr ht
  cases pr with
  | ret a => nomatch hh
  | call op k =>
    cases Option.some.inj hh
    exact hs.1

theorem Reach.writer {C : Pool (locking exec prog) → Move (locking exec prog) → Prop}
    (h0 : s₀.held = []) (hp : Reach C s₀ p) {i i' : Nat} {l : L} {m : Mode}
    (hw : (⟨i, l, .write⟩ : Guard L) ∈ p.state.held) (hm : (⟨i', l, m⟩ : Guard L) ∈ p.state.held) :
    i = i' := by
  by_contra hne
  have : Std.Symm fun g g' : Guard L => g.lock = g'.lock → g.mode.conflicts g'.mode = false :=
    ⟨fun g g' h hl => Mode.conflicts_comm g'.mode g.mode ▸ h hl.symm⟩
  have h := (hp.exclusive h0).forall hm hw (by simp [Ne.symm hne]) rfl
  simp at h

end reach

theorem cycle_next {α : Type} {r : α → α → Prop} {a : α} (h : Relation.TransGen r a a) :
    ∃ b, r a b ∧ Relation.TransGen r b b := by
  obtain ⟨b, hab, hba⟩ := Relation.TransGen.head'_iff.mp h
  exact ⟨b, hab, Relation.TransGen.tail' hba hab⟩

end
end Interleave
