import FuzzyChat.Interleave.Lasting

/-! What programs that may fail come to where they come to an end, and what a served job leaves on
record. -/

namespace Interleave
namespace Prog
variable {Op W : Type} {Res : Op → Type} {α β ε ε' : Type}

def Outcome (Q : α → W → Prop) (E : W → Prop) : Except ε α → W → Prop
  | .ok a, w => Q a w
  | .error _, w => E w

theorem Outcome.imp {Q Q' : α → W → Prop} {E E' : W → Prop} {r : Except ε α} {w : W}
    (h : Outcome Q E r w) (hQ : ∀ a w, Q a w → Q' a w) (hE : ∀ w, E w → E' w) :
    Outcome Q' E' r w := by
  cases r with
  | ok a => exact hQ a w h
  | error e => exact hE w h

theorem Outcome.of_both {E : W → Prop} {r : Except ε α} {w : W} (h : E w) :
    Outcome (fun _ => E) E r w := by
  cases r with
  | ok a => exact h
  | error e => exact h

/-- Where the program comes to its end from a state in `A`, its result and the state it leaves meet
`Q`, and the state meets `E` if it has failed. -/
def Ensures (exec : (op : Op) → W → Option (Res op × W)) (A : W → Prop)
    (p : ExceptT ε (Prog Res) α) (Q : α → W → Prop) (E : W → Prop) : Prop :=
  ∀ w, A w → ∀ r w', run exec p w = some (r, w') → Outcome Q E r w'

namespace Ensures
variable {exec : (op : Op) → W → Option (Res op × W)} {A : W → Prop} {Q : α → W → Prop}
  {E : W → Prop}

theorem pure {a : α} (h : ∀ w, A w → Q a w) :
    Ensures exec A (Pure.pure a : ExceptT ε (Prog Res) α) Q E := by
  intro w hw r w' hr
  cases hr
  exact h w hw

theorem throw {e : ε} (h : ∀ w, A w → E w) :
    Ensures exec A (MonadExcept.throw e : ExceptT ε (Prog Res) α) Q E := by
  intro w hw r w' hr
  cases hr
  exact h w hw

theorem call {op : Op} {k : Res op → ExceptT ε (Prog Res) α} {B : Res op → W → Prop}
    (hop : ∀ w, A w → ∀ r w', exec op w = some (r, w') → B r w')
    (hk : ∀ r, Ensures exec (B r) (k r) Q E) :
    Ensures exec A (ExceptT.mk (Prog.call op fun r => (k r).run)) Q E := by
  intro w hw r w' hr
  obtain ⟨⟨a, w₁⟩, he, hrest⟩ := Option.bind_eq_some_iff.mp hr
  exact hk a w₁ (hop w hw a w₁ he) r w' hrest

theorem bind {p : ExceptT ε (Prog Res) α} {f : α → ExceptT ε (Prog Res) β} {B : α → W → Prop}
    {Q : β → W → Prop} (hp : Ensures exec A p B E) (hf : ∀ a, Ensures exec (B a) (f a) Q E) :
    Ensures exec A (p >>= f) Q E := by
  intro w hw r w' hr
  have hrun := (run_bind exec (ExceptT.run p) (ExceptT.bindCont f) w).symm.trans hr
  obtain ⟨⟨x, w₁⟩, hx, hrest⟩ := Option.bind_eq_some_iff.mp hrun
  have hB : Outcome B E x w₁ := hp w hw x w₁ hx
  cases x with
  | ok a => exact hf a w₁ hB r w' hrest
  | error e =>
    cases hrest
    exact hB

theorem adapt {p : ExceptT ε (Prog Res) α} (f : ε → ε') (hp : Ensures exec A p Q E) :
    Ensures exec A (p.adapt f) Q E := by
  intro w hw r w' hr
  have hrun :=
    (run_bind exec (ExceptT.run p) (fun r => ret (Except.mapError f r)) w).symm.trans hr
  obtain ⟨⟨x, w₁⟩, hx, hrest⟩ := Option.bind_eq_some_iff.mp hrun
  have hQ : Outcome Q E x w₁ := hp w hw x w₁ hx
  cases hrest
  cases x with
  | ok a => exact hQ
  | error e => exact hQ

theorem mono {p : ExceptT ε (Prog Res) α} {A' : W → Prop} {Q' : α → W → Prop}
    (hp : Ensures exec A p Q E) (hA : ∀ w, A' w → A w) (hQ : ∀ a w, Q a w → Q' a w) :
    Ensures exec A' p Q' E := by
  intro w hw r w' hr
  exact (hp w (hA w hw) r w' hr).imp hQ fun _ he => he

theorem of_imp {P : Prop} {p : ExceptT ε (Prog Res) α} (h : P → Ensures exec A p Q E) :
    Ensures exec (fun w => P ∧ A w) p Q E := fun w hw => h hw.1 w hw.2

end Ensures

theorem Ensures.exists {ι : Type} {exec : (op : Op) → W → Option (Res op × W)} {A : ι → W → Prop}
    {p : ExceptT ε (Prog Res) α} {Q : α → W → Prop} {E : W → Prop}
    (h : ∀ y, Ensures exec (A y) p Q E) : Ensures exec (fun w => ∃ y, A y w) p Q E :=
  fun w ⟨y, hw⟩ => h y w hw

end Prog

variable {S : System} {e : Rivals S} {i : Nat} {j : S.Job}

theorem Pool.onward_push (p : Pool S) (m : Move S) : p.Onward (p.push m) := by
  rcases p.push_eq m with h | h
  · rw [h]
  · exact .single ⟨m, h⟩

theorem Rivals.onward_play (t : Nat) (p : Pool S) : p.Onward (e.play i t p) := by
  unfold Rivals.play
  generalize (e.moves t p).filter (Move.spares i) = ms
  induction ms generalizing p with
  | nil => exact .refl
  | cons m ms ih => exact (p.onward_push m).trans (ih (p.push m))

theorem Prog.onward_serve {pr : Prog S.Res S.Out} {t t' : Nat} {p p' : Pool S} {a : S.Out}
    (ht : p.tasks[i]? = some (j, pr)) (hs : pr.serve e i j t p = some (a, t', p')) :
    p.Onward p' := by
  induction pr generalizing t p with
  | ret b =>
    cases hs
    exact .refl
  | call op k ih =>
    have htq := Rivals.tasks_play (e := e) ht t
    rw [serve] at hs
    obtain ⟨⟨r, s⟩, he, hrest⟩ := Option.bind_eq_some_iff.mp hs
    have hown : (e.play i t p).step (.act i _) = some ((e.play i t p).advance i j op k r s) :=
      Pool.step_eq_some.mpr (.inr ⟨i, _, j, op, k, r, s, rfl, htq, he, rfl⟩)
    exact ((Rivals.onward_play t p).tail ⟨_, hown⟩).trans
      (ih r ((Pool.tasks_advance htq).mpr (.inl ⟨rfl, rfl⟩)) hrest)

theorem Rivals.submit_returned {s₀ : S.State} {p p' : Pool S} {t t' : Nat} {a : S.Out}
    (hp : Reachable s₀ p) (hs : e.submit j t p = some (a, t', p')) :
    p.Onward p' ∧ p'.returned p.tasks.length = some (j, a) := by
  unfold Rivals.submit at hs
  split_ifs at hs with hj
  have hspawn : p.step (.spawn j) = some (p.accept j) :=
    Pool.step_eq_some.mpr (.inl ⟨j, rfl, hj, rfl⟩)
  have hlast : (p.accept j).tasks[p.tasks.length]? = some (j, S.prog j) :=
    Pool.tasks_accept.mpr (.inr ⟨rfl, rfl⟩)
  obtain ⟨-, ht'⟩ := Prog.serve_returned (hp.step (m := .spawn j) trivial hspawn) hlast hs
  exact ⟨(Prog.onward_serve hlast hs).head ⟨_, hspawn⟩, Pool.returned_eq_some.mpr ht'⟩

end Interleave
