import FuzzyChat.Interleave.Served

/-! Two runs side by side, from states that differ only in what nobody looks at. -/

namespace Interleave.Prog
variable {Op W : Type} {Res : Op → Type} {α β ε ε' : Type}

def Tally {β : Type} (Q : α → β → Prop) (R : W → W → Prop) :
    Option (α × W) → Option (β × W) → Prop := Option.Rel fun x y => Q x.1 y.1 ∧ R x.2 y.2

/-- Run from states related by `R`, the programs end alike. -/
def Mirrors (exec : (op : Op) → W → Option (Res op × W)) (R : W → W → Prop)
    (p p' : ExceptT ε (Prog Res) α) : Prop :=
  ∀ w w', R w w' → Tally Eq R (run exec p w) (run exec p' w')

variable {exec : (op : Op) → W → Option (Res op × W)} {R : W → W → Prop}

theorem Tally.bind {γ δ : Type} {Q : α → β → Prop} {Q' : γ → δ → Prop} {x : Option (α × W)}
    {y : Option (β × W)} {f : α × W → Option (γ × W)} {g : β × W → Option (δ × W)}
    (h : Tally Q R x y) (hfg : ∀ a b w w', Q a b → R w w' → Tally Q' R (f (a, w)) (g (b, w'))) :
    Tally Q' R (x.bind f) (y.bind g) := by
  cases h with
  | none => exact .none
  | some h => exact hfg _ _ _ _ h.1 h.2

namespace Mirrors

theorem pure (a : α) :
    Mirrors exec R (Pure.pure a : ExceptT ε (Prog Res) α) (Pure.pure a) :=
  fun _ _ hw => .some ⟨rfl, hw⟩

theorem throw (e : ε) : Mirrors exec R (MonadExcept.throw e : ExceptT ε (Prog Res) α)
    (MonadExcept.throw e) := fun _ _ hw => .some ⟨rfl, hw⟩

theorem call {op op' : Op} {k : Res op → ExceptT ε (Prog Res) α}
    {k' : Res op' → ExceptT ε (Prog Res) α} {Q : Res op → Res op' → Prop}
    (hop : ∀ w w', R w w' → Tally Q R (exec op w) (exec op' w'))
    (hk : ∀ r r', Q r r' → Mirrors exec R (k r) (k' r')) :
    Mirrors exec R (ExceptT.mk (Prog.call op fun r => (k r).run))
      (ExceptT.mk (Prog.call op' fun r => (k' r).run)) := fun w w' hw =>
  (hop w w' hw).bind fun r r' v v' hr hv => hk r r' hr v v' hv

theorem bind {p p' : ExceptT ε (Prog Res) α} {f f' : α → ExceptT ε (Prog Res) β}
    (hp : Mirrors exec R p p') (hf : ∀ a, Mirrors exec R (f a) (f' a)) :
    Mirrors exec R (p >>= f) (p' >>= f') := by
  intro w w' hw
  have h : Tally Eq R
      ((run exec (ExceptT.run p) w).bind fun x => (ExceptT.bindCont f x.1).run exec x.2)
      ((run exec (ExceptT.run p') w').bind fun x => (ExceptT.bindCont f' x.1).run exec x.2) := by
    refine (hp w w' hw).bind ?_
    rintro a _ v v' rfl hv
    cases a with
    | ok a => exact hf a v v' hv
    | error e => exact .some ⟨rfl, hv⟩
  rw [← run_bind, ← run_bind] at h
  exact h

theorem adapt {p p' : ExceptT ε (Prog Res) α} (f : ε → ε') (hp : Mirrors exec R p p') :
    Mirrors exec R (p.adapt f) (p'.adapt f) := by
  intro w w' hw
  have h : Tally Eq R
      ((run exec (ExceptT.run p) w).bind fun x => (ret (Except.mapError f x.1)).run exec x.2)
      ((run exec (ExceptT.run p') w').bind fun x =>
        (ret (Except.mapError f x.1)).run exec x.2) := by
    refine (hp w w' hw).bind ?_
    rintro a _ v v' rfl hv
    exact .some ⟨rfl, hv⟩
  rw [← run_bind (p := ExceptT.run p) (f := fun x => ret (Except.mapError f x)),
    ← run_bind (p := ExceptT.run p') (f := fun x => ret (Except.mapError f x))] at h
  exact h

end Mirrors
end Interleave.Prog
