import Mathlib

/-! Sequential programs over atomic operations, and the systems in which any number of them run
interleaved. -/

namespace Interleave

/-- A program is a result, or one atomic operation and what to do with its answer. -/
inductive Prog {Op : Type} (Res : Op → Type) (α : Type) where
  | ret (a : α) : Prog Res α
  | call (op : Op) (k : Res op → Prog Res α) : Prog Res α

namespace Prog
variable {Op : Type} {Res : Op → Type} {α β γ : Type}

def bind : Prog Res α → (α → Prog Res β) → Prog Res β
  | ret a, f => f a
  | call op k, f => call op fun r => (k r).bind f

instance : Monad (Prog Res) where
  pure := ret
  bind := bind

@[simp] theorem call_bind (op : Op) (k : Res op → Prog Res α) (f : α → Prog Res β) :
    (call op k >>= f) = call op fun r => k r >>= f := rfl

theorem call_congr {op : Op} {k k' : Res op → Prog Res α} (h : ∀ r, k r = k' r) :
    call op k = call op k' := congrArg (call op) (funext h)

theorem bind_ret (p : Prog Res α) : (p >>= ret) = p := by
  induction p with
  | ret a => rfl
  | call op k ih => exact call_congr ih

theorem bind_assoc (p : Prog Res α) (f : α → Prog Res β) (g : β → Prog Res γ) :
    (p >>= f >>= g) = (p >>= fun a => f a >>= g) := by
  induction p with
  | ret a => rfl
  | call op k ih => exact call_congr ih

instance : LawfulMonad (Prog Res) :=
  LawfulMonad.mk' _ (fun p => bind_ret p) (fun _ _ => rfl) fun p f g => bind_assoc p f g

def head? : Prog Res α → Option Op
  | ret _ => none
  | call op _ => some op

def result? : Prog Res α → Option α
  | ret a => some a
  | call _ _ => none

theorem result?_eq_some {p : Prog Res α} {a : α} : p.result? = some a ↔ p = ret a := by
  cases p with
  | ret b => exact ⟨fun h => congrArg ret (Option.some.inj h), fun h => by cases h; rfl⟩
  | call op k => exact ⟨fun h => (nomatch h), fun h => (nomatch h)⟩

/-- `P` holds at every operation the program can still come to. -/
def All (P : (op : Op) → (Res op → Prog Res α) → Prop) : Prog Res α → Prop
  | ret _ => True
  | call op k => P op k ∧ ∀ r, (k r).All P

theorem All.imp {P Q : (op : Op) → (Res op → Prog Res α) → Prop} (h : ∀ op k, P op k → Q op k)
    {p : Prog Res α} (hp : p.All P) : p.All Q := by
  induction p with
  | ret a => trivial
  | call op k ih => exact ⟨h op k hp.1, fun r => ih r (hp.2 r)⟩

theorem all_map {P : Op → Prop} (f : α → β) {p : Prog Res α} (hp : p.All fun op _ => P op) :
    (f <$> p).All fun op _ => P op := by
  induction p with
  | ret a => trivial
  | call op k ih => exact ⟨hp.1, fun r => ih r (hp.2 r)⟩

theorem all_bind {P : Op → Prop} {p : Prog Res α} {f : α → Prog Res β}
    (hp : p.All fun op _ => P op) (hf : ∀ a, (f a).All fun op _ => P op) :
    (p >>= f).All fun op _ => P op := by
  induction p with
  | ret a => exact hf a
  | call op k ih => exact ⟨hp.1, fun r => ih r (hp.2 r)⟩

theorem all_of_forall {P : (op : Op) → (Res op → Prog Res α) → Prop} (h : ∀ op k, P op k)
    (p : Prog Res α) : p.All P := by
  induction p with
  | ret a => trivial
  | call op k ih => exact ⟨h op k, ih⟩

end Prog
end Interleave
