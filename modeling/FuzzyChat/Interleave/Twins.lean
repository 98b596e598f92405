import FuzzyChat.Interleave.Prog

/-! Programs that are answered by others: the operations they ask for in turn, and the rules by which
two programs are seen to ask alike. -/

namespace Interleave

def ExceptRel {ε α β : Type} (Q : α → β → Prop) : Except ε α → Except ε β → Prop
  | .ok x, .ok y => Q x y
  | .error e, .error e' => e = e'
  | _, _ => False

theorem exceptRel_eq {ε α : Type} {x y : Except ε α} (h : ExceptRel Eq x y) : x = y := by
  match x, y with
  | .ok x, .ok y => exact congrArg Except.ok h
  | .error e, .error e' => exact congrArg Except.error h
  | .ok _, .error _ | .error _, .ok _ => exact h.elim

namespace Prog
variable {Op : Type} {Res : Op → Type} {α β γ δ ε ε' : Type}

def asked (answer : Nat → (op : Op) → Res op) : Nat → Prog Res α → List Op × α
  | _, ret a => ([], a)
  | n, call op k =>
    let rest := (k (answer n op)).asked answer (n + 1)
    (op :: rest.1, rest.2)

theorem asked_bind (answer : Nat → (op : Op) → Res op) (n : Nat) (p : Prog Res α)
    (f : α → Prog Res β) : (p >>= f).asked answer n =
      ((p.asked answer n).1 ++
          ((f (p.asked answer n).2).asked answer (n + (p.asked answer n).1.length)).1,
        ((f (p.asked answer n).2).asked answer (n + (p.asked answer n).1.length)).2) := by
  induction p generalizing n with
  | ret a => rfl
  | call op k ih =>
    rw [call_bind, asked, ih, asked]
    simp only [List.cons_append, List.length_cons, Nat.add_assoc, Nat.add_comm 1]

/-- Answered by `a` and `a'`, the programs ask for operations that are alike one by one, and end in
results related by `Q`. -/
def Alike (a a' : Nat → (op : Op) → Res op) (E : Op → Op → Prop) (n : Nat) (p : Prog Res α)
    (p' : Prog Res β) (Q : α → β → Prop) : Prop :=
  List.Forall₂ E (p.asked a n).1 (p'.asked a' n).1 ∧ Q (p.asked a n).2 (p'.asked a' n).2

variable {a a' : Nat → (op : Op) → Res op} {E : Op → Op → Prop} {n : Nat}

theorem Alike.bind {p : Prog Res α} {p' : Prog Res β} {f : α → Prog Res γ} {f' : β → Prog Res δ}
    {R : α → β → Prop} {Q : γ → δ → Prop} (hp : Alike a a' E n p p' R)
    (hf : ∀ m x y, R x y → Alike a a' E m (f x) (f' y) Q) :
    Alike a a' E n (p >>= f) (p' >>= f') Q := by
  obtain ⟨hasked, hends⟩ := hp
  unfold Alike
  rw [asked_bind, asked_bind, ← hasked.length_eq]
  obtain ⟨hnext, hresult⟩ := hf (n + (p.asked a n).1.length) _ _ hends
  exact ⟨List.rel_append hasked hnext, hresult⟩

def Twins (a a' : Nat → (op : Op) → Res op) (E : Op → Op → Prop) (n : Nat)
    (p : ExceptT ε (Prog Res) α) (p' : ExceptT ε (Prog Res) β) (Q : α → β → Prop) : Prop :=
  Alike a a' E n p.run p'.run (ExceptRel Q)

theorem Twins.pure {x : α} {y : β} {Q : α → β → Prop} (h : Q x y) :
    Twins a a' E n (Pure.pure x : ExceptT ε (Prog Res) α) (Pure.pure y) Q := ⟨.nil, h⟩

theorem Twins.throw {Q : α → β → Prop} (e : ε) :
    Twins a a' E n (MonadExcept.throw e : ExceptT ε (Prog Res) α) (MonadExcept.throw e) Q :=
  ⟨.nil, rfl⟩

theorem Twins.call {op op' : Op} {Q : Res op → Res op' → Prop} (hE : E op op')
    (h : Q (a n op) (a' n op')) : Twins a a' E n (.mk (call op fun r => ret (.ok r)) :
      ExceptT ε (Prog Res) (Res op)) (.mk (call op' fun r => ret (.ok r))) Q :=
  ⟨.cons hE .nil, h⟩

theorem Twins.bind {p : ExceptT ε (Prog Res) α} {p' : ExceptT ε (Prog Res) β}
    {f : α → ExceptT ε (Prog Res) γ} {f' : β → ExceptT ε (Prog Res) δ} {R : α → β → Prop}
    {Q : γ → δ → Prop} (hp : Twins a a' E n p p' R)
    (hf : ∀ m x y, R x y → Twins a a' E m (f x) (f' y) Q) :
    Twins a a' E n (p >>= f) (p' >>= f') Q := by
  change Alike a a' E n (p.run >>= ExceptT.bindCont f) (p'.run >>= ExceptT.bindCont f') (ExceptRel Q)
  refine Alike.bind hp fun m x y hxy => ?_
  match x, y with
  | .ok x, .ok y => exact hf m x y hxy
  | .error e, .error e' =>
    obtain rfl : e = e' := hxy
    exact ⟨.nil, rfl⟩
  | .ok _, .error _ | .error _, .ok _ => exact hxy.elim

theorem Twins.adapt {p : ExceptT ε (Prog Res) α} {p' : ExceptT ε (Prog Res) β} {Q : α → β → Prop}
    (f : ε → ε') (h : Twins a a' E n p p' Q) : Twins a a' E n (p.adapt f) (p'.adapt f) Q := by
  change Alike a a' E n (p.run >>= fun r => ret (Except.mapError f r))
    (p'.run >>= fun r => ret (Except.mapError f r)) (ExceptRel Q)
  refine Alike.bind h fun m x y hxy => ⟨.nil, ?_⟩
  match x, y with
  | .ok x, .ok y => exact hxy
  | .error e, .error e' =>
    obtain rfl : e = e' := hxy
    exact rfl
  | .ok _, .error _ | .error _, .ok _ => exact hxy.elim

end Prog
end Interleave
