import FuzzyChat.Interleave.Guarding

/-! Locks that every task takes in one order: no task waits for itself by way of others, none has to
wait for ever, and all of them come to their end. -/

namespace List
variable {α : Type} {r : α → α → Prop}

def Lessened (r : α → α → Prop) (l' l : List α) : Prop :=
  ∃ (i : Nat) (x y : α), l[i]? = some x ∧ r y x ∧ l' = l.set i y

theorem acc_lessened_cons {x : α} (hx : Acc r x) {l : List α} (hl : Acc (Lessened r) l) :
    Acc (Lessened r) (x :: l) := by
  induction hx generalizing l with
  | intro x _ ihx =>
    induction hl with
    | intro l hl ihl =>
      refine .intro _ ?_
      rintro _ ⟨i, x', y, hi, hy, rfl⟩
      cases i with
      | zero =>
        cases hi
        exact ihx y hy (.intro l hl)
      | succ i => exact ihl (l.set i y) ⟨i, x', y, hi, hy, rfl⟩

theorem acc_lessened {l : List α} (h : ∀ x ∈ l, Acc r x) : Acc (Lessened r) l := by
  induction l with
  | nil =>
    refine .intro _ ?_
    rintro _ ⟨i, x, y, hi, -, -⟩
    contradiction
  | cons x l ih =>
    obtain ⟨hx, hl⟩ := forall_mem_cons.mp h
    exact acc_lessened_cons hx (ih hl)

end List

namespace Interleave

section ends
variable {S : System}

def Prog.Rest {Op A : Type} {Res : Op → Type} (pr' pr : Prog Res A) : Prop :=
  ∃ op k r, pr = .call op k ∧ pr' = k r

theorem Prog.acc_rest {Op A : Type} {Res : Op → Type} (pr : Prog Res A) : Acc Prog.Rest pr := by
  induction pr with
  | ret a =>
    refine .intro _ ?_
    rintro _ ⟨op, k, r, he, -⟩
    contradiction
  | call op k ih =>
    refine .intro _ ?_
    rintro _ ⟨op', k', r, he, rfl⟩
    cases he
    exact ih r

def Acts (q p : Pool S) : Prop := ∃ i c, p.step (.act i c) = some q

theorem lessened_of_acts {p q : Pool S} (h : Acts q p) :
    List.Lessened Prog.Rest (q.tasks.map Prod.snd) (p.tasks.map Prod.snd) := by
  obtain ⟨i, c, hq⟩ := h
  rcases Pool.step_eq_some.mp hq with ⟨j, hm, -⟩ | ⟨i', c', j, op, k, r, s, -, ht, -, rfl⟩
  · contradiction
  · refine ⟨i', .call op k, k r, ?_, ⟨op, k, r, rfl, rfl⟩, ?_⟩
    · rw [List.getElem?_map, ht, Option.map_some]
    · rw [Pool.advance, List.map_set]

theorem wellFounded_acts : WellFounded (Acts (S := S)) :=
  ⟨fun p => (Subrelation.wf (fun h => lessened_of_acts h) (InvImage.wf
    (fun p : Pool S => p.tasks.map Prod.snd)
      ⟨fun _ => List.acc_lessened fun pr _ => pr.acc_rest⟩)).apply p⟩

/-- Where one of the tasks can always go on, all of them can be brought to their end. -/
theorem exists_completion {C : Pool S → Prop} (hC : ∀ p q, C p → Acts q p → C q)
    (hnext : ∀ p, C p → (∃ t ∈ p.tasks, t.2.result? = none) → ∃ q, Acts q p) (p : Pool S)
    (hp : C p) : ∃ q, Relation.ReflTransGen (fun p q => Acts q p) p q ∧
      ∀ t ∈ q.tasks, t.2.result? ≠ none := by
  induction p using wellFounded_acts.induction with
  | _ p ih =>
    by_cases hopen : ∃ t ∈ p.tasks, t.2.result? = none
    · obtain ⟨q, hq⟩ := hnext p hp hopen
      obtain ⟨q', hqq', hdone⟩ := ih q hq (hC p q hp hq)
      exact ⟨q', .head hq hqq', hdone⟩
    · exact ⟨p, .refl, fun t ht hnone => hopen ⟨t, ht, hnone⟩⟩

end ends

theorem cycle_previous {α : Type} {r : α → α → Prop} {a : α} (h : Relation.TransGen r a a) :
    ∃ b, r b a ∧ Relation.TransGen r b b := by
  obtain ⟨b, hab, hba⟩ := Relation.TransGen.tail'_iff.mp h
  exact ⟨b, hba, Relation.TransGen.head' hba hab⟩

/-- A lock is taken on top of lower ones only. -/
def Ordered {L : Type} (rank : L → Nat) (held : List (L × Mode)) (l : L × Mode) : Prop :=
  ∀ h ∈ held, rank h.1 < rank l.1

section reach
variable {L O D Ch J A : Type} [DecidableEq L] {R : O → Type} {exec : Ch → (op : O) → D → R op × D}
  {prog : J → Prog (LockOp.Res (L := L) R) A} {rank : L → Nat} {s₀ : Guarded L D}
  {p : Pool (locking exec prog)}

theorem Asks.lock_eq {i : Nat} {l l' : L} {m m' : Mode} (h : Asks p i l m) (h' : Asks p i l' m') :
    l = l' := by
  obtain ⟨t, ht, hl⟩ := h
  obtain ⟨t', ht', hl'⟩ := h'
  cases Option.some.inj (ht.symm.trans ht')
  cases hl.symm.trans hl'
  rfl

/-- The task has a step left to take, and asks for no lock that is held. -/
def Unhindered (p : Pool (locking exec prog)) (i : Nat) : Prop :=
  ∃ (j : J) (op : LockOp L O) (k : LockOp.Res R op → Prog (LockOp.Res R) A),
    p.tasks[i]? = some (j, .call op k) ∧ ∀ l m, op = .acquire l m → ∀ g ∈ p.state.held, g.lock ≠ l

theorem acts_of_unhindered [Nonempty Ch] {i : Nat} (h : Unhindered p i) : ∃ q, Acts q p := by
  obtain ⟨c⟩ := ‹Nonempty Ch›
  obtain ⟨j, op, k, ht, hfree⟩ := h
  obtain ⟨r, s, he⟩ : ∃ r s, lockExec exec i c op p.state = some (r, s) := by
    cases op with
    | acquire l m =>
      refine ⟨(), _, if_pos (List.filter_eq_nil_iff.mpr fun g hg => ?_)⟩
      simp [hfree l m rfl g hg]
    | release l => exact ⟨_, _, rfl⟩
    | run op => exact ⟨_, _, rfl⟩
  exact ⟨p.advance i j op k r s, i, c, Pool.step_eq_some.mpr
    (.inr ⟨i, c, j, op, k, r, s, rfl, ht, he, rfl⟩)⟩

section hindered
variable {i : Nat} (hno : ¬ Unhindered p i) {j : J}
include hno

theorem exists_held_of_hindered {l : L} {m : Mode}
    {k : LockOp.Res R (.acquire l m) → Prog (LockOp.Res R) A}
    (ht : p.tasks[i]? = some (j, .call (.acquire l m) k)) : ∃ g ∈ p.state.held, g.lock = l := by
  by_contra hfree
  refine hno ⟨j, .acquire l m, k, ht, ?_⟩
  rintro _ _ ⟨⟩ g hg rfl
  exact hfree ⟨g, hg, rfl⟩

theorem asks_of_hindered {op : LockOp L O} {k : LockOp.Res R op → Prog (LockOp.Res R) A}
    (ht : p.tasks[i]? = some (j, .call op k)) : ∃ l m, Asks p i l m := by
  cases op with
  | acquire l m => exact ⟨l, m, _, ht, rfl⟩
  | release l => exact absurd ⟨j, .release l, k, ht, fun _ _ he => by contradiction⟩ hno
  | run op => exact absurd ⟨j, .run op, k, ht, fun _ _ he => by contradiction⟩ hno

end hindered

section ordered
variable (hprog : ∀ j, Scoped (Ordered rank) [] (prog j)) (h0 : s₀.held = [])
  (hp : Reachable s₀ p)
include hprog h0 hp

theorem rank_lt_of_held {i : Nat} {l l' : L} {m m' : Mode}
    (hheld : (⟨i, l, m⟩ : Guard L) ∈ p.state.held) (hasks : Asks p i l' m') :
    rank l < rank l' := by
  obtain ⟨t, ht, hh⟩ := hasks
  exact hp.allowed hprog h0 ht hh _ (mem_stack.mpr hheld)

theorem rank_lt_of_waits {i i' : Nat} {l l' : L} {m m' : Mode}
    (h : Relation.TransGen (WaitsFor p) i i') (hi : Asks p i l m) (hi' : Asks p i' l' m') :
    rank l < rank l' := by
  induction h generalizing l' m' with
  | single h =>
    obtain ⟨l₁, m₁, m₂, hasks, hheld, -⟩ := h
    obtain rfl := hi.lock_eq hasks
    exact rank_lt_of_held hprog h0 hp hheld hi'
  | tail _ h ih =>
    obtain ⟨l₁, m₁, m₂, hasks, hheld, -⟩ := h
    exact (ih hasks).trans (rank_lt_of_held hprog h0 hp hheld hi')

/-- No task waits for itself, however many others are in between. -/
theorem not_deadlocked (i : Nat) : ¬ Relation.TransGen (WaitsFor p) i i := by
  intro h
  obtain ⟨i', ⟨l, m, m', hasks, -, -⟩, -⟩ := Relation.TransGen.head'_iff.mp h
  exact absurd (rank_lt_of_waits hprog h0 hp h hasks hasks) (Nat.lt_irrefl _)

theorem open_of_held {g : Guard L} (hg : g ∈ p.state.held) :
    ∃ (j : J) (op : LockOp L O) (k : LockOp.Res R op → Prog (LockOp.Res R) A),
      p.tasks[g.task]? = some (j, .call op k) := by
  obtain ⟨hscoped, hnone⟩ := hp.scoped hprog h0
  have hmem : (g.lock, g.mode) ∈ stack p.state.held g.task := mem_stack.mpr hg
  cases ht : p.tasks[g.task]? with
  | none =>
    rw [hnone g.task (List.getElem?_eq_none_iff.mp ht)] at hmem
    contradiction
  | some t =>
    obtain ⟨j, pr⟩ := t
    cases pr with
    | ret a =>
      have hempty : stack p.state.held g.task = [] := hscoped g.task j _ ht
      rw [hempty] at hmem
      contradiction
    | call op k => exact ⟨j, op, k, rfl⟩

theorem exists_higher (hall : ∀ i, ¬ Unhindered p i) {i : Nat} {l : L} {m : Mode}
    (h : Asks p i l m) : ∃ i' l' m', Asks p i' l' m' ∧ rank l < rank l' := by
  obtain ⟨⟨j, pr⟩, ht, hh⟩ := h
  cases pr with
  | ret a => contradiction
  | call op k =>
    cases Option.some.inj hh
    obtain ⟨g, hg, rfl⟩ := exists_held_of_hindered (hall i) ht
    obtain ⟨j', op', k', ht'⟩ := open_of_held hprog h0 hp hg
    obtain ⟨l', m', hasks⟩ := asks_of_hindered (hall g.task) ht'
    exact ⟨g.task, l', m', hasks, rank_lt_of_held hprog h0 hp (m := g.mode) hg hasks⟩

/-- As long as not all tasks have come to their end, one of them has nothing in its way. -/
theorem exists_unhindered (hopen : ∃ t ∈ p.tasks, t.2.result? = none) : ∃ i, Unhindered p i := by
  by_contra hno
  have hall : ∀ i, ¬ Unhindered p i := not_exists.mp hno
  have hclimb : ∀ n : Nat, ∃ (i : Nat) (l : L) (m : Mode), Asks p i l m ∧ n ≤ rank l := by
    intro n
    induction n with
    | zero =>
      obtain ⟨⟨j, pr⟩, hmem, hopen⟩ := hopen
      obtain ⟨i, hi⟩ := List.getElem?_of_mem hmem
      cases pr with
      | ret a => contradiction
      | call op k =>
        obtain ⟨l, m, hasks⟩ := asks_of_hindered (hall i) hi
        exact ⟨i, l, m, hasks, Nat.zero_le _⟩
    | succ n ih =>
      obtain ⟨i, l, m, hasks, hn⟩ := ih
      obtain ⟨i', l', m', hasks', hlt⟩ := exists_higher hprog h0 hp hall hasks
      exact ⟨i', l', m', hasks', by omega⟩
  -- but there is a highest lock that is asked for
  let asked : J × Prog (LockOp.Res R) A → Nat := fun t => t.2.asks?.elim 0 fun l => rank l.1
  obtain ⟨i, l, m, ⟨t, ht, hh⟩, hn⟩ := hclimb ((p.tasks.map asked).sum + 1)
  have hasked : asked t = rank l := by
    simp only [asked, Prog.asks?_eq_some.mpr hh, Option.elim_some]
  have hle := List.single_le_sum (fun _ _ => Nat.zero_le _) (asked t)
    (List.mem_map_of_mem (f := asked) (List.mem_of_getElem? ht))
  omega

end ordered

/-- Nobody waits for ever: no cyclic wait has come about, and one of the tasks has nothing in its way
until all have come to their end, which they do in some order and in no order can put off for
ever. -/
structure DeadlockFree (p : Pool (locking exec prog)) : Prop where
  acyclic : ∀ i, ¬ Relation.TransGen (WaitsFor p) i i
  unstuck : (∃ t ∈ p.tasks, t.2.result? = none) → ∃ i, Unhindered p i
  completes : ∃ q, Relation.ReflTransGen (fun p q => Acts q p) p q ∧
    ∀ t ∈ q.tasks, t.2.result? ≠ none
  finite : ∀ f : Nat → Pool (locking exec prog), f 0 = p → ∃ n, ¬ Acts (f (n + 1)) (f n)

theorem deadlockFree_of_ordered [Nonempty Ch] (hprog : ∀ j, Scoped (Ordered rank) [] (prog j))
    (h0 : s₀.held = []) (hp : Reachable s₀ p) : DeadlockFree p where
  acyclic := not_deadlocked hprog h0 hp
  unstuck := exists_unhindered hprog h0 hp
  completes := exists_completion (C := Reachable s₀)
    (fun _ _ hp hq => by
      obtain ⟨i, c, hq⟩ := hq
      exact hp.step trivial hq)
    (fun _ hp hopen =>
      let ⟨_, hi⟩ := exists_unhindered hprog h0 hp hopen
      acts_of_unhindered hi) p hp
  finite f _ := by
    have : IsWellFounded _ (Acts (S := locking exec prog)) := ⟨wellFounded_acts⟩
    exact WellFounded.not_rel_apply_succ f

end reach

theorem climbs_of_ordered {L : Type} {rank : L → Nat} {guards held : List (L × Mode)}
    (hguards : guards.Pairwise fun g g' => rank g.1 < rank g'.1)
    (hheld : ∀ h ∈ held, ∀ g ∈ guards, rank h.1 < rank g.1) :
    Climbs (Ordered rank) held guards := by
  induction guards generalizing held with
  | nil => trivial
  | cons g guards ih =>
    obtain ⟨hfirst, hrest⟩ := List.pairwise_cons.mp hguards
    refine ⟨fun h hh => hheld h hh g List.mem_cons_self, ih hrest fun h hh g' hg' => ?_⟩
    rcases List.mem_cons.mp hh with rfl | hh
    · exact hfirst g' hg'
    · exact hheld h hh g' (List.mem_cons_of_mem _ hg')

end Interleave
