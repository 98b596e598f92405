import FuzzyChat.Interleave.RwLocks

/-! Programs put under locks one operation at a time, and what their runs come to without the
locks. -/

namespace Interleave

section guarding
variable {L O A : Type} {R : O → Type}

def Prog.taking (next : Prog (LockOp.Res (L := L) R) A) :
    List (L × Mode) → Prog (LockOp.Res (L := L) R) A
  | [] => next
  | (l, m) :: guards => .call (.acquire l m) fun _ => taking next guards

def Prog.dropping (next : Prog (LockOp.Res (L := L) R) A) :
    List L → Prog (LockOp.Res (L := L) R) A
  | [] => next
  | l :: locks => .call (.release l) fun _ => dropping next locks

structure Sections (L : Type) (R : O → Type) where
  enter : O → List (L × Mode)
  leave : (op : O) → R op → List L

def Prog.guarding (d : Sections L R) : Prog R A → Prog (LockOp.Res (L := L) R) A
  | .ret a => .ret a
  | .call op k =>
    taking (.call (.run op) fun r => dropping ((k r).guarding d) (d.leave op r)) (d.enter op)

/-- One operation under guards that are taken in this order, and dropped in the reverse. -/
def Prog.under (guards : List (L × Mode)) (op : O) : Prog (LockOp.Res (L := L) R) (R op) :=
  taking (.call (.run op) fun r => dropping (.ret r) (guards.reverse.map Prod.fst)) guards

theorem unguarded_taking (next : Prog (LockOp.Res (L := L) R) A) (guards : List (L × Mode)) :
    (next.taking guards).unguarded = next.unguarded := by
  induction guards with
  | nil => rfl
  | cons g guards ih => exact ih

theorem unguarded_dropping (next : Prog (LockOp.Res (L := L) R) A) (locks : List L) :
    (next.dropping locks).unguarded = next.unguarded := by
  induction locks with
  | nil => rfl
  | cons l locks ih => exact ih

theorem unguarded_guarding (d : Sections L R) (pr : Prog R A) :
    (pr.guarding d).unguarded = pr := by
  induction pr with
  | ret a => rfl
  | call op k ih =>
    rw [Prog.guarding, unguarded_taking]
    exact Prog.call_congr fun r => (unguarded_dropping _ _).trans (ih r)

theorem unguarded_under (guards : List (L × Mode)) (op : O) :
    (Prog.under (R := R) guards op).unguarded = .call op .ret := by
  rw [Prog.under, unguarded_taking]
  exact Prog.call_congr fun r => unguarded_dropping _ _

theorem unguarded_map {B : Type} (f : A → B) (pr : Prog (LockOp.Res (L := L) R) A) :
    (f <$> pr).unguarded = f <$> pr.unguarded := by
  induction pr with
  | ret a => rfl
  | call op k ih =>
    cases op with
    | acquire l m => exact ih ()
    | release l => exact ih ()
    | run op => exact Prog.call_congr fun r => ih r

/-! Guards in the order they are taken, each on top of those before. -/

def Climbs (allowed : List (L × Mode) → L × Mode → Prop) :
    List (L × Mode) → List (L × Mode) → Prop
  | _, [] => True
  | held, g :: guards => allowed held g ∧ Climbs allowed (g :: held) guards

variable {allowed : List (L × Mode) → L × Mode → Prop}

theorem scoped_taking {next : Prog (LockOp.Res R) A} {guards held : List (L × Mode)}
    (hguards : Climbs allowed held guards)
    (hnext : Scoped allowed (guards.reverse ++ held) next) :
    Scoped allowed held (next.taking guards) := by
  induction guards generalizing held with
  | nil => exact hnext
  | cons g guards ih =>
    refine ⟨hguards.1, ih hguards.2 ?_⟩
    rwa [List.reverse_cons, List.append_assoc] at hnext

theorem scoped_dropping {next : Prog (LockOp.Res R) A} {guards held : List (L × Mode)}
    (hnext : Scoped allowed held next) :
    Scoped allowed (guards ++ held) (next.dropping (guards.map Prod.fst)) := by
  induction guards with
  | nil => exact hnext
  | cons g guards ih => exact ⟨g.2, guards ++ held, rfl, ih⟩

theorem scoped_guarding_call {d : Sections L R} {op : O} {k : R op → Prog R A}
    (hguards : Climbs allowed [] (d.enter op))
    (hleave : ∀ r, d.leave op r = (d.enter op).reverse.map Prod.fst)
    (hk : ∀ r, Scoped allowed [] ((k r).guarding d)) :
    Scoped allowed [] ((Prog.call op k).guarding d) := by
  refine scoped_taking hguards fun r => ?_
  show Scoped allowed _ (((k r).guarding d).dropping (d.leave op r))
  rw [hleave r]
  exact scoped_dropping (hk r)

theorem scoped_under {guards : List (L × Mode)} (hguards : Climbs allowed [] guards) (op : O) :
    Scoped allowed [] (Prog.under (R := R) guards op) :=
  scoped_taking hguards fun _ => scoped_dropping rfl

theorem Scoped.map {B : Type} (f : A → B) {held : List (L × Mode)}
    {pr : Prog (LockOp.Res R) A} (h : Scoped allowed held pr) :
    Scoped allowed held (f <$> pr) := by
  induction pr generalizing held with
  | ret a => exact h
  | call op k ih =>
    cases op with
    | acquire l m => exact ⟨h.1, ih () h.2⟩
    | release l =>
      obtain ⟨m, rest, hheld, hrest⟩ := h
      exact ⟨m, rest, hheld, ih () hrest⟩
    | run op => exact fun r => ih r (h r)

def Prog.relocked {L' : Type} (f : L → L') :
    Prog (LockOp.Res (L := L) R) A → Prog (LockOp.Res (L := L') R) A
  | .ret a => .ret a
  | .call (.acquire l m) k => .call (.acquire (f l) m) fun r => (k r).relocked f
  | .call (.release l) k => .call (.release (f l)) fun r => (k r).relocked f
  | .call (.run op) k => .call (.run op) fun r => (k r).relocked f

end guarding

section erase
variable {L O D Ch J A : Type} [DecidableEq L] {R : O → Type} {exec : Ch → (op : O) → D → R op × D}
  {progs : J → Prog (LockOp.Res (L := L) R) A} {prog : J → Prog R A}
  {admits : List J → J → Prop} {decAdmits : ∀ js j, Decidable (admits js j)}

abbrev lockless (exec : Ch → (op : O) → D → R op × D) (prog : J → Prog R A)
    (admits : List J → J → Prop) (decAdmits : ∀ js j, Decidable (admits js j)) : System where
  Op := O
  Res := R
  State := D
  Choice := Ch
  Job := J
  Out := A
  exec _ c op s := some (exec c op s)
  prog := prog
  admits := admits
  decAdmits := decAdmits

def Event.erase : Event (locking exec progs) → Option (Event (lockless exec prog admits decAdmits))
  | ⟨i, pre, .run op, r⟩ => some ⟨i, pre.data, op, r⟩
  | _ => none

def Pool.erase (p : Pool (locking exec progs)) : Pool (lockless exec prog admits decAdmits) :=
  ⟨p.state.data, p.tasks.map fun t => (t.1, t.2.unguarded), p.log.filterMap Event.erase⟩

variable {s₀ : Guarded L D} {p q : Pool (locking exec progs)}
  {C : Pool (locking exec progs) → Move (locking exec progs) → Prop}

theorem Pool.erase_accept (hprog : ∀ j, (progs j).unguarded = prog j) (j : J) :
    (p.accept j).erase = (p.erase : Pool (lockless exec prog admits decAdmits)).accept j := by
  simp only [erase, accept, List.map_append, List.map_cons, List.map_nil, hprog]

theorem Pool.erase_advance {i : Nat} {j : J} {op : LockOp L O}
    {k : LockOp.Res R op → Prog (LockOp.Res R) A} (ht : p.tasks[i]? = some (j, .call op k))
    {c : Ch} {r : LockOp.Res R op} {s : Guarded L D}
    (he : lockExec exec i c op p.state = some (r, s)) :
    (p.advance i j op k r s).erase = (p.erase : Pool (lockless exec prog admits decAdmits)) ∨
      ∃ m, (p.erase : Pool (lockless exec prog admits decAdmits)).step m =
        some (p.advance i j op k r s).erase := by
  have ht' : (p.erase : Pool (lockless exec prog admits decAdmits)).tasks[i]? =
      some (j, (Prog.call op k).unguarded) := by
    rw [erase, List.getElem?_map, ht]
    rfl
  have hsame : ∀ next : Prog (LockOp.Res (L := L) R) A,
      next.unguarded = (Prog.call op k).unguarded →
        (p.tasks.set i (j, next)).map (fun t => (t.1, t.2.unguarded)) =
          p.tasks.map fun t => (t.1, t.2.unguarded) := by
    intro next hnext
    obtain ⟨hi, hget⟩ := List.getElem?_eq_some_iff.mp ht'
    rw [List.map_set, hnext, ← hget]
    exact List.set_getElem_self hi
  cases op with
  | acquire l m =>
    obtain ⟨-, he⟩ := Option.ite_none_right_eq_some.mp he
    cases he
    left
    simp only [erase, advance, hsame (k ()) rfl]
    rfl
  | release l =>
    cases he
    left
    simp only [erase, advance, hsame (k ()) rfl]
    rfl
  | run op =>
    cases he
    refine .inr ⟨.act i c, Pool.step_eq_some.mpr (.inr ⟨i, c, j, op, _, _, _, rfl, ht', rfl, ?_⟩)⟩
    simp only [erase, advance, List.map_set]
    rfl

/-- Whatever is reached with locks is reached without. -/
theorem Reach.erase (hprog : ∀ j, (progs j).unguarded = prog j)
    (hC : ∀ p j, C p (.spawn j) → admits (p.tasks.map Prod.fst) j) (hp : Reach C s₀ p) :
    Reachable s₀.data (p.erase : Pool (lockless exec prog admits decAdmits)) := by
  induction hp with
  | start => exact .start
  | @step p q m hp hc hq ih =>
    rcases Pool.step_eq_some.mp hq with ⟨j, rfl, -, rfl⟩ | ⟨i, c, j, op, k, r, s, rfl, ht, he, rfl⟩
    · refine ih.step (m := .spawn j) trivial (Pool.step_eq_some.mpr (.inl ⟨j, rfl, ?_, ?_⟩))
      · have hjobs : (p.erase : Pool (lockless exec prog admits decAdmits)).tasks.map Prod.fst =
            p.tasks.map Prod.fst := by
          simp [Pool.erase, Function.comp_def]
        rw [hjobs]
        exact hC p j hc
      · exact Pool.erase_accept hprog j
    · let erased : Pool (lockless exec prog admits decAdmits) := p.erase
      have hnext : (p.advance i j op k r s).erase = erased ∨
          ∃ m, erased.step m = some (p.advance i j op k r s).erase := Pool.erase_advance ht he
      rcases hnext with hsame | ⟨m, hstep⟩
      · rw [hsame]
        exact ih
      · exact ih.step trivial hstep

end erase
end Interleave
