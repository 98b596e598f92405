import FuzzyChat.Interleave.RwLocks

/-! Tasks that each hold one lock to the exclusion of the others, and the order in which they could
have been carried out one after the other. -/

theorem List.filter_eraseP_of_disjoint {α : Type} {p q : α → Bool}
    (h : ∀ a, p a = true → q a = false) (l : List α) : (l.eraseP p).filter q = l.filter q := by
  induction l with
  | nil => rfl
  | cons a l ih =>
    rw [eraseP_cons]
    cases hp : p a with
    | true => rw [cond_true, filter_cons_of_neg (by simp [h a hp])]
    | false => rw [cond_false, filter_cons, filter_cons, ih]

namespace Interleave

section solo
variable {O D Ch J A : Type} {R : O → Type} {exec : Ch → (op : O) → D → R op × D}
  {prog : J → Prog R A}

/-- By itself, in the one state, the program can come to what is left of it in the other. -/
inductive Solo (exec : Ch → (op : O) → D → R op × D) : Prog R A → D → Prog R A → D → Prop
  | here (pr : Prog R A) (d : D) : Solo exec pr d pr d
  | call {op : O} {k : R op → Prog R A} {d d' : D} {pr : Prog R A} (c : Ch)
      (h : Solo exec (k (exec c op d).1) (exec c op d).2 pr d') : Solo exec (.call op k) d pr d'

namespace Solo

theorem snoc {pr : Prog R A} {d d' : D} {op : O} {k : R op → Prog R A}
    (h : Solo exec pr d (.call op k) d') (c : Ch) :
    Solo exec pr d (k (exec c op d').1) (exec c op d').2 := by
  generalize hnext : Prog.call op k = next at h
  induction h with
  | here pr d =>
    subst hnext
    exact .call c (.here _ _)
  | call c' _ ih => exact .call c' (ih hnext)

theorem of_call {op : O} {k : R op → Prog R A} {d d' : D} {a : A}
    (h : Solo exec (.call op k) d (.ret a) d') :
    ∃ c, Solo exec (k (exec c op d).1) (exec c op d).2 (.ret a) d' := by
  cases h with
  | call c h => exact ⟨c, h⟩

theorem of_ret {a b : A} {d d' : D} (h : Solo exec (.ret b) d (.ret a) d') :
    a = b ∧ d' = d := by
  cases h with
  | here => exact ⟨rfl, rfl⟩

end Solo

inductive OneByOne (exec : Ch → (op : O) → D → R op × D) (prog : J → Prog R A) (d₀ : D) :
    List (Nat × J × A) → D → Prop
  | start : OneByOne exec prog d₀ [] d₀
  | call {order : List (Nat × J × A)} {d d' : D} {j : J} {a : A}
      (h : OneByOne exec prog d₀ order d) (i : Nat) (hj : Solo exec (prog j) d (.ret a) d') :
      OneByOne exec prog d₀ ((i, j, a) :: order) d'

end solo

section exclusive
variable {L O D Ch J A : Type} [DecidableEq L] {R : O → Type}

def Inside (ℓ : L) : Prog (LockOp.Res (L := L) R) A → Prop
  | .ret _ => False
  | .call (.acquire l _) k => l ≠ ℓ ∧ Inside ℓ (k ())
  | .call (.release l) k => if l = ℓ then (k ()).result? ≠ none else Inside ℓ (k ())
  | .call (.run _) k => ∀ r, Inside ℓ (k r)

def Exclusive (ℓ : L) (pr : Prog (LockOp.Res (L := L) R) A) : Prop :=
  ∃ body, pr = .call (.acquire ℓ .write) (fun _ => body) ∧ Inside ℓ body

def Prog.exclusively (ℓ : L) (body : Prog (LockOp.Res (L := L) R) A) :
    Prog (LockOp.Res (L := L) R) A :=
  .call (.acquire ℓ .write) fun _ => body >>= fun a => .call (.release ℓ) fun _ => .ret a

def LockOp.spares (ℓ : L) : LockOp L O → Prop
  | .acquire l _ | .release l => l ≠ ℓ
  | .run _ => True

theorem exclusive_exclusively {ℓ : L} {body : Prog (LockOp.Res (L := L) R) A}
    (h : body.All fun op _ => op.spares ℓ) : Exclusive ℓ (body.exclusively ℓ) := by
  refine ⟨_, rfl, ?_⟩
  induction body with
  | ret a =>
    show if ℓ = ℓ then (Prog.ret a : Prog (LockOp.Res (L := L) R) A).result? ≠ none else _
    rw [if_pos rfl]
    exact Option.some_ne_none a
  | call op k ih =>
    cases op with
    | acquire l m => exact ⟨h.1, ih () (h.2 ())⟩
    | release l =>
      show if l = ℓ then _ else _
      rw [if_neg h.1]
      exact ih () (h.2 ())
    | run op => exact fun r => ih r (h.2 r)

omit [DecidableEq L] in
theorem unguarded_bind {B : Type} (pr : Prog (LockOp.Res (L := L) R) A)
    (f : A → Prog (LockOp.Res (L := L) R) B) :
    (pr >>= f).unguarded = pr.unguarded >>= fun a => (f a).unguarded := by
  induction pr with
  | ret a => rfl
  | call op k ih =>
    cases op with
    | acquire l m => exact ih ()
    | release l => exact ih ()
    | run op => exact Prog.call_congr fun r => ih r

omit [DecidableEq L] in
theorem unguarded_exclusively (ℓ : L) (body : Prog (LockOp.Res (L := L) R) A) :
    (body.exclusively ℓ).unguarded = body.unguarded := by
  show (body >>= fun a => .call (.release ℓ) fun _ => .ret a).unguarded = _
  rw [unguarded_bind]
  exact Prog.bind_ret _

def Passive (exec : Ch → (op : O) → D → R op × D) (ℓ : L) : LockOp L O → Prop
  | .acquire l _ | .release l => l ≠ ℓ
  | .run op => ∀ c d, (exec c op d).2 = d

def guardsOn (held : List (Guard L)) (ℓ : L) : List (Guard L) :=
  held.filter fun g => decide (g.lock = ℓ)

theorem guardsOn_acquire {held : List (Guard L)} {ℓ l : L} (h : l ≠ ℓ) (i : Nat) (m : Mode) :
    guardsOn (⟨i, l, m⟩ :: held) ℓ = guardsOn held ℓ := by
  rw [guardsOn, List.filter_cons_of_neg (by simpa using h), guardsOn]

theorem guardsOn_release {held : List (Guard L)} {ℓ l : L} (h : l ≠ ℓ) (i : Nat) :
    guardsOn (held.eraseP fun g => decide (g.task = i ∧ g.lock = l)) ℓ = guardsOn held ℓ := by
  refine List.filter_eraseP_of_disjoint (fun g hg => ?_) held
  rw [decide_eq_true_eq] at hg
  simpa [hg.2] using h

theorem guardsOn_release_self {held : List (Guard L)} {ℓ : L} {i : Nat}
    (h : guardsOn held ℓ = [⟨i, ℓ, .write⟩]) :
    guardsOn (held.eraseP fun g => decide (g.task = i ∧ g.lock = ℓ)) ℓ = [] := by
  induction held with
  | nil => rfl
  | cons g held ih =>
    rw [guardsOn, List.filter_cons] at h
    rw [List.eraseP_cons]
    by_cases hg : g.lock = ℓ
    · rw [if_pos (by simpa using hg)] at h
      obtain ⟨rfl, hrest⟩ := List.cons.inj h
      rw [show decide ((⟨i, ℓ, .write⟩ : Guard L).task = i ∧
        (⟨i, ℓ, .write⟩ : Guard L).lock = ℓ) = true by simp, cond_true]
      exact hrest
    · rw [if_neg (by simpa using hg)] at h
      rw [show decide (g.task = i ∧ g.lock = ℓ) = false by simp [hg], cond_false, guardsOn,
        List.filter_cons_of_neg (by simpa using hg)]
      exact ih h

theorem blockers_write (held : List (Guard L)) (ℓ : L) :
    blockers held ℓ .write = guardsOn held ℓ := by
  simp [blockers, guardsOn, Mode.conflicts_comm .write]

section reach
variable {exec : Ch → (op : O) → D → R op × D} {prog : J → Prog (LockOp.Res (L := L) R) A} {ℓ : L}
  {critical : J → Prop} {d₀ d : D} {p : Pool (locking exec prog)}

def Settled (critical : J → Prop) (p : Pool (locking exec prog)) (i : Nat) : Prop :=
  ∀ j pr, p.tasks[i]? = some (j, pr) → critical j → pr = prog j ∨ ∃ a, pr = .ret a

/-- Whose turn it is: nobody's, and the data is what the tasks so far have left, or that of one task,
which goes on from there by itself. -/
inductive Turn (ℓ : L) (critical : J → Prop) (p : Pool (locking exec prog)) (d : D) : Prop
  | free (hguards : guardsOn p.state.held ℓ = []) (hdata : p.state.data = d)
      (hsettled : ∀ i, Settled critical p i)
  | taken (i : Nat) (j : J) (pr : Prog (LockOp.Res (L := L) R) A)
      (hguards : guardsOn p.state.held ℓ = [⟨i, ℓ, .write⟩]) (ht : p.tasks[i]? = some (j, pr))
      (hj : critical j) (hinside : Inside ℓ pr)
      (hsolo : Solo exec (prog j).unguarded d pr.unguarded p.state.data)
      (hsettled : ∀ i', i' ≠ i → Settled critical p i')

/-- The tasks that have come to their end, in an order in which they give the same results one by
one. -/
structure InOrder (ℓ : L) (critical : J → Prop) (d₀ : D) (p : Pool (locking exec prog))
    (order : List (Nat × J × A)) (d : D) : Prop where
  serial : OneByOne exec (fun j => (prog j).unguarded) d₀ order d
  nodup : (order.map Prod.fst).Nodup
  returned : ∀ i j a, (i, j, a) ∈ order ↔ critical j ∧ p.tasks[i]? = some (j, .ret a)
  turn : Turn ℓ critical p d

section step
variable {order : List (Nat × J × A)} {i : Nat} {j : J} {op : LockOp L O}
  {k : LockOp.Res R op → Prog (LockOp.Res (L := L) R) A} {r : LockOp.Res R op} {s : Guarded L D}

theorem Settled.accept {i' : Nat} (h : Settled critical p i') (j : J) :
    Settled critical (p.accept j) i' := by
  intro j' pr ht hj
  rcases Pool.tasks_accept.mp ht with hold | ⟨-, hnew⟩
  · exact h j' pr hold hj
  · cases hnew
    exact .inl rfl

theorem Settled.advance {i' : Nat} (h : Settled critical p i') (hne : i' ≠ i)
    (ht : p.tasks[i]? = some (j, .call op k)) :
    Settled critical (p.advance i j op k r s) i' := by
  intro j' pr ht' hj
  rcases (Pool.tasks_advance ht).mp ht' with ⟨rfl, -⟩ | ⟨-, hold⟩
  · exact absurd rfl hne
  · exact h j' pr hold hj

theorem Settled.of_not_critical (hj : ¬ critical j) (ht : p.tasks[i]? = some (j, .call op k)) :
    Settled critical (p.advance i j op k r s) i := by
  intro j' pr ht' hj'
  rcases (Pool.tasks_advance ht).mp ht' with ⟨-, hnew⟩ | ⟨hne, -⟩
  · cases hnew
    exact absurd hj' hj
  · exact absurd rfl hne

theorem Settled.takes (hprog : ∀ j, critical j → Exclusive ℓ (prog j)) (h : Settled critical p i)
    (ht : p.tasks[i]? = some (j, .call op k)) (hj : critical j) :
    ∃ body, prog j = .call (.acquire ℓ .write) (fun _ => body) ∧ Inside ℓ body ∧
      (Prog.call op k : Prog (LockOp.Res (L := L) R) A) = prog j := by
  rcases h j _ ht hj with hpr | ⟨a, ha⟩
  · obtain ⟨body, hbody, hinside⟩ := hprog j hj
    exact ⟨body, hbody, hinside, hpr⟩
  · contradiction

theorem InOrder.accept (hprog : ∀ j, critical j → Exclusive ℓ (prog j))
    (h : InOrder ℓ critical d₀ p order d) (j : J) :
    InOrder ℓ critical d₀ (p.accept j) order d where
  serial := h.serial
  nodup := h.nodup
  returned i' j' a := by
    rw [h.returned, Pool.tasks_accept]
    constructor
    · exact fun ⟨hj, hold⟩ => ⟨hj, .inl hold⟩
    · rintro ⟨hj, hold | ⟨-, hnew⟩⟩
      · exact ⟨hj, hold⟩
      · obtain ⟨rfl, hret⟩ := Prod.mk.inj hnew
        obtain ⟨body, hbody, -⟩ := hprog j' hj
        have hcall : Prog.ret a = prog j' := hret
        rw [hbody] at hcall
        contradiction
  turn := by
    cases h.turn with
    | free hguards hdata hsettled =>
      exact .free hguards hdata fun i => (hsettled i).accept j
    | taken i j₀ pr hguards ht hj hinside hsolo hsettled =>
      exact .taken i j₀ pr hguards (Pool.tasks_accept.mpr (.inl ht)) hj hinside hsolo
        fun i' hi' => (hsettled i' hi').accept j

theorem InOrder.keeps (h : InOrder ℓ critical d₀ p order d)
    (ht : p.tasks[i]? = some (j, .call op k)) (hnone : critical j → (k r).result? = none)
    (hturn : Turn ℓ critical (p.advance i j op k r s) d) :
    InOrder ℓ critical d₀ (p.advance i j op k r s) order d where
  serial := h.serial
  nodup := h.nodup
  returned i' j' a := by
    rw [h.returned, Pool.tasks_advance ht]
    constructor
    · rintro ⟨hj, hold⟩
      refine ⟨hj, .inr ⟨?_, hold⟩⟩
      rintro rfl
      cases ht.symm.trans hold
    · rintro ⟨hj, ⟨-, hnew⟩ | ⟨-, hold⟩⟩
      · obtain ⟨rfl, hret⟩ := Prod.mk.inj hnew
        have hresult := hnone hj
        rw [← show Prog.ret a = k r from hret] at hresult
        contradiction
      · exact ⟨hj, hold⟩
  turn := hturn

theorem InOrder.ends (h : InOrder ℓ critical d₀ p order d)
    (ht : p.tasks[i]? = some (j, .call op k)) (hj : critical j) {a : A} (hret : k r = .ret a)
    (hsolo : Solo exec (prog j).unguarded d (.ret a) s.data)
    (hguards : guardsOn s.held ℓ = []) (hsettled : ∀ i', i' ≠ i → Settled critical p i') :
    InOrder ℓ critical d₀ (p.advance i j op k r s) ((i, j, a) :: order) s.data where
  serial := h.serial.call i hsolo
  nodup := by
    refine List.nodup_cons.mpr ⟨fun hmem => ?_, h.nodup⟩
    obtain ⟨⟨i', j', a'⟩, hlisted, rfl⟩ := List.mem_map.mp hmem
    cases ht.symm.trans ((h.returned i' j' a').mp hlisted).2
  returned i' j' a' := by
    rw [List.mem_cons, h.returned, Pool.tasks_advance ht, hret]
    constructor
    · rintro (hnew | ⟨hj', hold⟩)
      · cases hnew
        exact ⟨hj, .inl ⟨rfl, rfl⟩⟩
      · refine ⟨hj', .inr ⟨?_, hold⟩⟩
        rintro rfl
        cases ht.symm.trans hold
    · rintro ⟨hj', ⟨rfl, hnew⟩ | ⟨-, hold⟩⟩
      · cases hnew
        exact .inl rfl
      · exact .inr ⟨hj', hold⟩
  turn := by
    refine .free hguards rfl fun i' => ?_
    by_cases hne : i' = i
    · intro j' pr ht' _
      rcases (Pool.tasks_advance ht).mp ht' with ⟨-, hnew⟩ | ⟨hne', -⟩
      · obtain ⟨-, rfl⟩ := Prod.mk.inj hnew
        exact .inr ⟨a, hret⟩
      · exact absurd hne hne'
    · exact (hsettled i' hne).advance hne ht

theorem Inside.result_none {pr : Prog (LockOp.Res (L := L) R) A} (h : Inside ℓ pr) :
    pr.result? = none := by
  cases pr with
  | ret a => exact h.elim
  | call op k => rfl

theorem Passive.keeps {c : Ch} (h : Passive exec ℓ op)
    (he : lockExec exec i c op p.state = some (r, s)) :
    guardsOn s.held ℓ = guardsOn p.state.held ℓ ∧ s.data = p.state.data := by
  cases op with
  | acquire l m =>
    obtain ⟨-, he⟩ := Option.ite_none_right_eq_some.mp he
    cases he
    exact ⟨guardsOn_acquire h i m, rfl⟩
  | release l =>
    cases he
    exact ⟨guardsOn_release h i, rfl⟩
  | run op =>
    cases he
    exact ⟨rfl, h c p.state.data⟩

theorem InOrder.goes_on {c : Ch} (h : InOrder ℓ critical d₀ p order d)
    (ht : p.tasks[i]? = some (j, .call op k)) (hj : critical j)
    (hguards : guardsOn p.state.held ℓ = [⟨i, ℓ, .write⟩])
    (hinside : Inside ℓ (.call op k : Prog (LockOp.Res (L := L) R) A))
    (hsolo : Solo exec (prog j).unguarded d (Prog.call op k).unguarded p.state.data)
    (hsettled : ∀ i', i' ≠ i → Settled critical p i')
    (he : lockExec exec i c op p.state = some (r, s)) :
    ∃ order d, InOrder ℓ critical d₀ (p.advance i j op k r s) order d := by
  have hown : (p.advance i j op k r s).tasks[i]? = some (j, k r) :=
    (Pool.tasks_advance ht).mpr (.inl ⟨rfl, rfl⟩)
  have hothers : ∀ i', i' ≠ i → Settled critical (p.advance i j op k r s) i' :=
    fun i' hi' => (hsettled i' hi').advance hi' ht
  cases op with
  | acquire l m =>
    obtain ⟨-, he⟩ := Option.ite_none_right_eq_some.mp he
    cases he
    refine ⟨order, d, h.keeps ht (fun _ => hinside.2.result_none) ?_⟩
    exact .taken i j (k ()) ((guardsOn_acquire hinside.1 i m).trans hguards) hown hj hinside.2 hsolo
      hothers
  | release l =>
    cases he
    have hnext : if l = ℓ then (k ()).result? ≠ none else Inside ℓ (k ()) := hinside
    split_ifs at hnext with hl
    · obtain ⟨a, ha⟩ := Option.ne_none_iff_exists'.mp hnext
      have hret : k () = .ret a := Prog.result?_eq_some.mp ha
      have hsolo' : Solo exec (prog j).unguarded d (k ()).unguarded p.state.data := hsolo
      rw [hret] at hsolo'
      subst hl
      exact ⟨_, _, h.ends ht hj hret hsolo' (guardsOn_release_self hguards) hsettled⟩
    · refine ⟨order, d, h.keeps ht (fun _ => hnext.result_none) ?_⟩
      exact .taken i j (k ()) ((guardsOn_release hl i).trans hguards) hown hj hnext hsolo hothers
  | run op =>
    cases he
    refine ⟨order, d, h.keeps ht (fun _ => (hinside _).result_none) ?_⟩
    exact .taken i j _ hguards hown hj (hinside _) (hsolo.snoc c) hothers

theorem InOrder.advance {c : Ch} (hprog : ∀ j, critical j → Exclusive ℓ (prog j))
    (hpassive : ¬ critical j → Passive exec ℓ op) (h : InOrder ℓ critical d₀ p order d)
    (ht : p.tasks[i]? = some (j, .call op k))
    (he : lockExec exec i c op p.state = some (r, s)) :
    ∃ order d, InOrder ℓ critical d₀ (p.advance i j op k r s) order d := by
  by_cases hj : critical j
  · cases h.turn with
    | free hguards hdata hsettled =>
      obtain ⟨body, hbody, hinside, hpr⟩ := (hsettled i).takes hprog ht hj
      rw [hbody] at hpr
      cases hpr
      obtain ⟨-, he⟩ := Option.ite_none_right_eq_some.mp he
      cases he
      refine ⟨order, d, h.keeps ht (fun _ => hinside.result_none) ?_⟩
      refine .taken i j body ?_ ((Pool.tasks_advance ht).mpr (.inl ⟨rfl, rfl⟩)) hj hinside ?_
        fun i' hi' => (hsettled i').advance hi' ht
      · show guardsOn (⟨i, ℓ, .write⟩ :: p.state.held) ℓ = _
        rw [guardsOn, List.filter_cons_of_pos (by simp)]
        exact congrArg _ hguards
      · rw [hbody, ← hdata]
        exact .here _ _
    | taken i₀ j₀ pr hguards ht₀ hj₀ hinside hsolo hsettled =>
      by_cases hi : i = i₀
      · subst hi
        cases ht.symm.trans ht₀
        exact h.goes_on ht hj hguards hinside hsolo hsettled he
      · -- it is not the task's turn: it cannot take the lock
        obtain ⟨body, hbody, -, hpr⟩ := (hsettled i hi).takes hprog ht hj
        rw [hbody] at hpr
        cases hpr
        obtain ⟨hfree, -⟩ := Option.ite_none_right_eq_some.mp he
        rw [blockers_write, hguards] at hfree
        contradiction
  · obtain ⟨hheld, hdata⟩ := (hpassive hj).keeps he
    refine ⟨order, d, h.keeps ht (fun hj' => absurd hj' hj) ?_⟩
    have hsettles : ∀ i', Settled critical p i' →
        Settled critical (p.advance i j op k r s) i' := by
      intro i' hi'
      by_cases hne : i' = i
      · subst hne
        exact Settled.of_not_critical hj ht
      · exact hi'.advance hne ht
    cases h.turn with
    | free hguards hd hsettled =>
      exact .free (hheld.trans hguards) (hdata.trans hd) fun i' => hsettles i' (hsettled i')
    | taken i₀ j₀ pr hguards ht₀ hj₀ hinside hsolo hsettled =>
      have hne : i₀ ≠ i := by
        rintro rfl
        cases ht.symm.trans ht₀
        exact hj hj₀
      exact .taken i₀ j₀ pr (hheld.trans hguards) ((Pool.tasks_advance ht).mpr (.inr ⟨hne, ht₀⟩))
        hj₀ hinside (hdata ▸ hsolo) fun i' hi' => hsettles i' (hsettled i' hi')

end step

/-- Whatever the interleaving, the tasks that hold the lock throughout have run one by one. -/
theorem Reach.in_order {C : Pool (locking exec prog) → Move (locking exec prog) → Prop}
    (hprog : ∀ j, critical j → Exclusive ℓ (prog j))
    (hpassive : ∀ j, ¬ critical j → (prog j).All fun op _ => Passive exec ℓ op)
    (hp : Reach C ⟨[], d₀⟩ p) : ∃ order d, InOrder ℓ critical d₀ p order d := by
  induction hp with
  | start =>
    refine ⟨[], d₀, .start, List.nodup_nil, fun i j a => ?_, .free rfl rfl fun i j pr ht => ?_⟩
    · simp [Pool.start]
    · simp [Pool.start] at ht
  | @step p q m hp _ hq ih =>
    obtain ⟨order, d, h⟩ := ih
    rcases Pool.step_eq_some.mp hq with ⟨j, -, -, rfl⟩ | ⟨i, c, j, op, k, r, s, -, ht, he, rfl⟩
    · exact ⟨order, d, h.accept hprog j⟩
    · refine h.advance hprog (fun hj => ?_) ht he
      have hall := Reach.all (P := fun j op _ => ¬ critical j → Passive exec ℓ op)
        (fun j => ?_) hp i j _ ht
      · exact hall.1 hj
      · by_cases hj : critical j
        · exact Prog.all_of_forall (fun _ _ h => absurd hj h) _
        · exact (hpassive j hj).imp fun _ _ h _ => h

end reach
end exclusive
end Interleave
