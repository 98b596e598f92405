import FuzzyChat.Interleave.Safe

/-! One job served to its end while the other tasks move between its steps, and the rule by which
that end is proved: what is assumed before a step has to survive the moves of the others. -/

namespace Interleave

/-! Programs run on a state of their own. -/

namespace Prog
variable {Op W : Type} {Res : Op → Type} {α β ε ε' : Type}

/-- `none` is an operation that does not come to its end. -/
def run (exec : (op : Op) → W → Option (Res op × W)) : Prog Res α → W → Option (α × W)
  | ret a, w => some (a, w)
  | call op k, w => (exec op w).bind fun x => (k x.1).run exec x.2

theorem run_bind (exec : (op : Op) → W → Option (Res op × W)) (p : Prog Res α) (f : α → Prog Res β)
    (w : W) : (p >>= f).run exec w = (p.run exec w).bind fun x => (f x.1).run exec x.2 := by
  induction p generalizing w with
  | ret a => rfl
  | call op k ih =>
    rw [call_bind, run, run, Option.bind_assoc]
    exact congrArg _ (funext fun x => ih x.1 x.2)

/-- From every state in `A` the program comes to its end, without an error, and its result and the
state it leaves meet `Q`. -/
def Returns (exec : (op : Op) → W → Option (Res op × W)) (A : W → Prop)
    (p : ExceptT ε (Prog Res) α) (Q : α → W → Prop) : Prop :=
  ∀ w, A w → ∃ a w', run exec p w = some (.ok a, w') ∧ Q a w'

variable {exec : (op : Op) → W → Option (Res op × W)} {A : W → Prop}

theorem Returns.pure {a : α} {Q : α → W → Prop} (h : ∀ w, A w → Q a w) :
    Returns exec A (Pure.pure a : ExceptT ε (Prog Res) α) Q := fun w hw => ⟨a, w, rfl, h w hw⟩

theorem Returns.bind {p : ExceptT ε (Prog Res) α} {f : α → ExceptT ε (Prog Res) β}
    {B : α → W → Prop} {Q : β → W → Prop} (hp : Returns exec A p B)
    (hf : ∀ a, Returns exec (B a) (f a) Q) : Returns exec A (p >>= f) Q := by
  intro w hw
  obtain ⟨a, w₁, hr, hB⟩ := hp w hw
  obtain ⟨b, w₂, hr', hQ⟩ := hf a w₁ hB
  refine ⟨b, w₂, ?_, hQ⟩
  refine (run_bind exec (ExceptT.run p) (ExceptT.bindCont f) w).trans ?_
  rw [show run exec (ExceptT.run p) w = some (.ok a, w₁) from hr]
  exact hr'

theorem Returns.adapt {p : ExceptT ε (Prog Res) α} {Q : α → W → Prop} (f : ε → ε')
    (hp : Returns exec A p Q) : Returns exec A (p.adapt f) Q := by
  intro w hw
  obtain ⟨a, w₁, hr, hQ⟩ := hp w hw
  refine ⟨a, w₁, ?_, hQ⟩
  refine (run_bind exec (ExceptT.run p) (fun r => ret (Except.mapError f r)) w).trans ?_
  rw [show run exec (ExceptT.run p) w = some (.ok a, w₁) from hr]
  rfl

theorem Returns.exists {ι : Type} {A : ι → W → Prop} {p : ExceptT ε (Prog Res) α}
    {Q : α → W → Prop} (h : ∀ y, Returns exec (A y) p Q) :
    Returns exec (fun w => ∃ y, A y w) p Q := fun w ⟨y, hw⟩ => h y w hw

theorem Returns.of_imp {P : Prop} {p : ExceptT ε (Prog Res) α} {Q : α → W → Prop}
    (h : P → Returns exec A p Q) : Returns exec (fun w => P ∧ A w) p Q :=
  fun w ⟨hP, hw⟩ => h hP w hw

end Prog

variable {S : System}

/-- The other tasks: the moves they make before each of our steps, and the choice our step meets. -/
structure Rivals (S : System) where
  moves : Nat → Pool S → List (Move S)
  choice : Nat → Pool S → S.Choice

def Move.spares (i : Nat) : Move S → Bool
  | .spawn _ => true
  | .act i' _ => i' != i

def Pool.push (p : Pool S) (m : Move S) : Pool S := (p.step m).getD p

/-- The others move, up to our step number `t`; our task `i` is not theirs to move. -/
def Rivals.play (e : Rivals S) (i t : Nat) (p : Pool S) : Pool S :=
  ((e.moves t p).filter (Move.spares i)).foldl Pool.push p

/-- The rest of task `i`, the others moving before each step; `t` counts our steps. -/
def Prog.serve (e : Rivals S) (i : Nat) (j : S.Job) :
    Prog S.Res S.Out → Nat → Pool S → Option (S.Out × Nat × Pool S)
  | .ret a, t, p => some (a, t, p)
  | .call op k, t, p =>
    let q := e.play i t p
    (S.exec i (e.choice t q) op q.state).bind fun x =>
      (k x.1).serve e i j (t + 1) (q.advance i j op k x.1 x.2)

def Rivals.submit (e : Rivals S) (j : S.Job) (t : Nat) (p : Pool S) :
    Option (S.Out × Nat × Pool S) :=
  if S.admits (p.tasks.map Prod.fst) j then (S.prog j).serve e p.tasks.length j t (p.accept j)
  else none

theorem Pool.push_eq (p : Pool S) (m : Move S) : p.push m = p ∨ p.step m = some (p.push m) := by
  unfold push
  cases h : p.step m with
  | none => exact .inl rfl
  | some q => exact .inr rfl

theorem Reachable.push {s₀ : S.State} {p : Pool S} (hp : Reachable s₀ p) (m : Move S) :
    Reachable s₀ (p.push m) := by
  rcases p.push_eq m with h | h
  · rwa [h]
  · exact hp.step trivial h

theorem Pool.tasks_push {p : Pool S} {i : Nat} {t : S.Job × Prog S.Res S.Out}
    (ht : p.tasks[i]? = some t) {m : Move S} (hm : m.spares i = true) :
    (p.push m).tasks[i]? = some t := by
  rcases p.push_eq m with h | h
  · rwa [h]
  · rcases Pool.step_eq_some.mp h with ⟨j, -, -, hq⟩ | ⟨i', c, j, op, k, r, s, rfl, ht', -, hq⟩
    · rw [hq]
      exact Pool.tasks_accept.mpr (.inl ht)
    · rw [hq]
      exact (Pool.tasks_advance ht').mpr (.inr ⟨fun he => by simp [Move.spares, he] at hm, ht⟩)

namespace Rivals
variable {e : Rivals S} {s₀ : S.State} {i : Nat}

theorem reachable_foldl (ms : List (Move S)) {p : Pool S} (hp : Reachable s₀ p) :
    Reachable s₀ (ms.foldl Pool.push p) := by
  induction ms generalizing p with
  | nil => exact hp
  | cons m ms ih => exact ih (hp.push m)

theorem tasks_foldl {ms : List (Move S)} (hms : ∀ m ∈ ms, m.spares i = true) {p : Pool S}
    {t : S.Job × Prog S.Res S.Out} (ht : p.tasks[i]? = some t) :
    (ms.foldl Pool.push p).tasks[i]? = some t := by
  induction ms generalizing p with
  | nil => exact ht
  | cons m ms ih =>
    have hm := List.forall_mem_cons.mp hms
    exact ih hm.2 (Pool.tasks_push ht hm.1)

theorem reachable_play {p : Pool S} (hp : Reachable s₀ p) (t : Nat) :
    Reachable s₀ (e.play i t p) := reachable_foldl _ hp

theorem tasks_play {p : Pool S} {x : S.Job × Prog S.Res S.Out} (hx : p.tasks[i]? = some x)
    (t : Nat) : (e.play i t p).tasks[i]? = some x :=
  tasks_foldl (fun _ hm => (List.mem_filter.mp hm).2) hx

end Rivals

/-- From every pool a run reaches in which task `i` has this program left and `A` holds, the task
comes to its end whatever the others do, with a result and a pool of which `Q` holds. -/
def Prog.Ends (e : Rivals S) (s₀ : S.State) (i : Nat) (j : S.Job) (A : Hist S → Prop)
    (pr : Prog S.Res S.Out) (Q : S.Out → Hist S → Prop) : Prop :=
  ∀ t p, Reachable s₀ p → p.tasks[i]? = some (j, pr) → A p.hist →
    ∃ a t' p', pr.serve e i j t p = some (a, t', p') ∧ Reachable s₀ p' ∧ Q a p'.hist

namespace Prog
variable {e : Rivals S} {s₀ : S.State} {i : Nat} {j : S.Job} {A : Hist S → Prop}
  {Q : S.Out → Hist S → Prop}

theorem Ends.ret {a : S.Out} (h : ∀ h, A h → Q a h) : (Prog.ret a).Ends e s₀ i j A Q :=
  fun t p hp _ hA => ⟨a, t, p, rfl, hp, h _ hA⟩

theorem Ends.mono {pr : Prog S.Res S.Out} {Q' : S.Out → Hist S → Prop}
    (h : pr.Ends e s₀ i j A Q) (hQ : ∀ a h, Q a h → Q' a h) : pr.Ends e s₀ i j A Q' :=
  fun t p hp ht hA =>
    let ⟨a, t', p', hs, hp', hq⟩ := h t p hp ht hA
    ⟨a, t', p', hs, hp', hQ a _ hq⟩

theorem Ends.exists {ι : Type} {A : ι → Hist S → Prop} {pr : Prog S.Res S.Out}
    (h : ∀ y, pr.Ends e s₀ i j (A y) Q) : pr.Ends e s₀ i j (fun h => ∃ y, A y h) Q :=
  fun t p hp ht ⟨y, hA⟩ => h y t p hp ht hA

theorem Ends.of_imp {P : Prop} {pr : Prog S.Res S.Out} (h : P → pr.Ends e s₀ i j A Q) :
    pr.Ends e s₀ i j (fun h => P ∧ A h) Q :=
  fun t p hp ht ⟨hP, hA⟩ => h hP t p hp ht hA

theorem Ends.call {op : S.Op} {k : S.Res op → Prog S.Res S.Out} {B : S.Res op → Hist S → Prop}
    (hA : ∀ t p, Reachable s₀ p → A p.hist → A (e.play i t p).hist)
    (hop : ∀ c h, A h → ∃ r s, S.exec i c op h.state = some (r, s) ∧ B r (h.record i op r s))
    (hk : ∀ r, (k r).Ends e s₀ i j (B r) Q) : (Prog.call op k).Ends e s₀ i j A Q := by
  intro t p hp ht hAp
  have hq := Rivals.reachable_play (e := e) (i := i) hp t
  have htq := Rivals.tasks_play (e := e) ht t
  obtain ⟨r, s, he, hB⟩ := hop (e.choice t (e.play i t p)) _ (hA t p hp hAp)
  have hnext : Reachable s₀ ((e.play i t p).advance i j op k r s) :=
    hq.step (m := .act i _) trivial
      (Pool.step_eq_some.mpr (.inr ⟨i, _, j, op, k, r, s, rfl, htq, he, rfl⟩))
  obtain ⟨a, t', p', hs, hp', hQ⟩ := hk r (t + 1) _ hnext
    ((Pool.tasks_advance htq).mpr (.inl ⟨rfl, rfl⟩)) (Pool.hist_advance htq r s ▸ hB)
  exact ⟨a, t', p', by rw [serve]; exact Option.bind_eq_some_iff.mpr ⟨(r, s), he, hs⟩, hp', hQ⟩

end Prog

theorem Rivals.submit_ends {e : Rivals S} {s₀ : S.State} {j : S.Job} {A : Hist S → Prop}
    {Q : S.Out → Hist S → Prop} {p : Pool S} (hp : Reachable s₀ p)
    (hj : S.admits p.hist.jobs j) (hA : A (p.hist.accept j))
    (h : (S.prog j).Ends e s₀ p.tasks.length j A Q) (t : Nat) :
    ∃ a t' p', e.submit j t p = some (a, t', p') ∧ Reachable s₀ p' ∧ Q a p'.hist := by
  have hacc : Reachable s₀ (p.accept j) :=
    hp.step (m := .spawn j) trivial (Pool.step_eq_some.mpr (.inl ⟨j, rfl, hj, rfl⟩))
  obtain ⟨a, t', p', hs, hx⟩ := h t _ hacc (Pool.tasks_accept.mpr (.inr ⟨rfl, rfl⟩))
    (Pool.hist_accept p j ▸ hA)
  exact ⟨a, t', p', (if_pos hj).trans hs, hx⟩

end Interleave
