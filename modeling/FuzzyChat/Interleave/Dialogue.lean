import FuzzyChat.Interleave.Prog

/-! What a program and whoever answers it say to each other: the operations in turn, each with its
answer, and the result in the end. -/

namespace Interleave
namespace Prog
variable {Op : Type} {Res : Op → Type} {α β ε ε' : Type}

inductive Leads : Prog Res α → List (Sigma Res) → Prog Res α → Prop
  | done (p : Prog Res α) : Leads p [] p
  | step {op : Op} {k : Res op → Prog Res α} {r : Res op} {es : List (Sigma Res)}
      {rest : Prog Res α} (h : Leads (k r) es rest) : Leads (.call op k) (⟨op, r⟩ :: es) rest

/-- Asked and answered so, the program ends with the result. -/
def Tells (p : Prog Res α) (es : List (Sigma Res)) (a : α) : Prop := p.Leads es (.ret a)

theorem Leads.snoc {p : Prog Res α} {es : List (Sigma Res)} {op : Op} {k : Res op → Prog Res α}
    (h : Leads p es (.call op k)) (r : Res op) : Leads p (es ++ [⟨op, r⟩]) (k r) := by
  generalize hq : Prog.call op k = q at h
  induction h with
  | done p =>
    subst hq
    exact .step (.done _)
  | step h ih => exact .step (ih hq)

theorem Leads.of_ret {a : α} {es : List (Sigma Res)} {rest : Prog Res α}
    (h : (ret a).Leads es rest) : rest = ret a := by
  cases h with
  | done => rfl

theorem Leads.of_call {op : Op} {k : Res op → Prog Res α} {es : List (Sigma Res)}
    {rest : Prog Res α} (h : (call op k).Leads es rest) :
    rest = call op k ∨ ∃ r es', es = ⟨op, r⟩ :: es' ∧ (k r).Leads es' rest := by
  cases h with
  | done => exact .inl rfl
  | step h => exact .inr ⟨_, _, rfl, h⟩

theorem exists_tells (answer : (op : Op) → Res op) (p : Prog Res α) :
    ∃ es a, p.Tells es a ∧ ∀ x ∈ es, x.2 = answer x.1 := by
  induction p with
  | ret a => exact ⟨[], a, .done _, by simp⟩
  | call op k ih =>
    obtain ⟨es, a, h, hes⟩ := ih (answer op)
    exact ⟨_, a, .step h, List.forall_mem_cons.mpr ⟨rfl, hes⟩⟩

namespace Tells
variable {es : List (Sigma Res)}

theorem of_ret {a b : α} (h : (ret a : Prog Res α).Tells es b) : es = [] ∧ a = b := by
  cases h with
  | done => exact ⟨rfl, rfl⟩

theorem of_call {op : Op} {k : Res op → Prog Res α} {a : α} (h : (call op k).Tells es a) :
    ∃ r es', es = ⟨op, r⟩ :: es' ∧ (k r).Tells es' a := by
  cases h with
  | step h => exact ⟨_, _, rfl, h⟩

theorem of_bind {p : Prog Res α} {f : α → Prog Res β} {b : β} (h : (p >>= f).Tells es b) :
    ∃ es₁ es₂ a, es = es₁ ++ es₂ ∧ p.Tells es₁ a ∧ (f a).Tells es₂ b := by
  induction p generalizing es with
  | ret a => exact ⟨[], es, a, rfl, .done _, h⟩
  | call op k ih =>
    rw [call_bind] at h
    obtain ⟨r, es', rfl, h'⟩ := h.of_call
    obtain ⟨es₁, es₂, a, rfl, h₁, h₂⟩ := ih r h'
    exact ⟨_, es₂, a, rfl, .step h₁, h₂⟩

end Tells

section replay
variable [DecidableEq Op]

/-- What the program has come to by the time it has been asked and answered so, if it has ended. -/
def replay : Prog Res α → List (Sigma Res) → Option α
  | ret a, _ => some a
  | call _ _, [] => none
  | call op k, ⟨op', r⟩ :: es => if h : op' = op then (k (h ▸ r)).replay es else none

theorem Tells.replay {p : Prog Res α} {es : List (Sigma Res)} {a : α} (h : p.Tells es a)
    (rest : List (Sigma Res)) : p.replay (es ++ rest) = some a := by
  induction p generalizing es with
  | ret b =>
    obtain ⟨-, rfl⟩ := h.of_ret
    rfl
  | call op k ih =>
    obtain ⟨r, es', rfl, h'⟩ := h.of_call
    rw [List.cons_append, Prog.replay, dif_pos rfl]
    exact ih r h'

theorem tells_of_replay {p : Prog Res α} {es : List (Sigma Res)} {a : α}
    (h : p.replay es = some a) : ∃ es' rest, es = es' ++ rest ∧ p.Tells es' a := by
  induction p generalizing es with
  | ret b =>
    cases h
    exact ⟨[], es, rfl, .done _⟩
  | call op k ih =>
    cases es with
    | nil => simp [replay] at h
    | cons e es =>
      obtain ⟨op', r⟩ := e
      rw [replay] at h
      split_ifs at h with hop
      subst hop
      obtain ⟨es', rest, rfl, ht⟩ := ih r h
      exact ⟨_, rest, rfl, .step ht⟩

end replay

/-! Programs that may fail. -/

section failing
variable {es : List (Sigma Res)}

theorem tells_pure {a : α} {res : Except ε α}
    (h : Tells (pure a : ExceptT ε (Prog Res) α).run es res) : es = [] ∧ res = .ok a :=
  h.of_ret.imp_right Eq.symm

theorem tells_throw {e : ε} {res : Except ε α}
    (h : Tells (throw e : ExceptT ε (Prog Res) α).run es res) : es = [] ∧ res = .error e :=
  h.of_ret.imp_right Eq.symm

theorem tells_bind {p : ExceptT ε (Prog Res) α} {f : α → ExceptT ε (Prog Res) β} {res : Except ε β}
    (h : Tells (p >>= f).run es res) :
    (∃ e, p.run.Tells es (.error e) ∧ res = .error e) ∨
      ∃ es₁ es₂ a, es = es₁ ++ es₂ ∧ p.run.Tells es₁ (.ok a) ∧ (f a).run.Tells es₂ res := by
  obtain ⟨es₁, es₂, r, rfl, h₁, h₂⟩ := Tells.of_bind (p := p.run) (f := ExceptT.bindCont f) h
  cases r with
  | error e =>
    obtain ⟨rfl, rfl⟩ := h₂.of_ret
    rw [List.append_nil]
    exact .inl ⟨e, h₁, rfl⟩
  | ok a => exact .inr ⟨es₁, es₂, a, rfl, h₁, h₂⟩

theorem tells_adapt {p : ExceptT ε (Prog Res) α} {f : ε → ε'} {res : Except ε' α}
    (h : Tells (p.adapt f).run es res) : ∃ r, p.run.Tells es r ∧ res = r.mapError f := by
  obtain ⟨es₁, es₂, r, rfl, h₁, h₂⟩ :=
    Tells.of_bind (p := p.run) (f := fun r => ret (Except.mapError f r)) h
  obtain ⟨rfl, rfl⟩ := h₂.of_ret
  rw [List.append_nil]
  exact ⟨r, h₁, rfl⟩

end failing

/-- What fails is the last thing said, and the result is such an error. -/
def StopsAt (failed : Sigma Res → Prop) (E : ε → Prop) (p : ExceptT ε (Prog Res) α) : Prop :=
  ∀ es res, p.run.Tells es res → ∀ pre x post, es = pre ++ x :: post → failed x →
    post = [] ∧ ∃ e, res = .error e ∧ E e

namespace StopsAt
variable {failed : Sigma Res → Prop} {E : ε → Prop} {E' : ε' → Prop}

theorem of_silent {p : ExceptT ε (Prog Res) α} (h : ∀ es res, p.run.Tells es res → es = []) :
    StopsAt failed E p := by
  intro es res ht pre x post hes
  rw [h es res ht] at hes
  simp at hes

theorem pure (a : α) : StopsAt failed E (Pure.pure a : ExceptT ε (Prog Res) α) :=
  of_silent fun _ _ h => (tells_pure h).1

theorem throw (e : ε) : StopsAt failed E (MonadExcept.throw e : ExceptT ε (Prog Res) α) :=
  of_silent fun _ _ h => (tells_throw h).1

theorem bind {p : ExceptT ε (Prog Res) α} {f : α → ExceptT ε (Prog Res) β}
    (hp : StopsAt failed E p) (hf : ∀ a, StopsAt failed E (f a)) : StopsAt failed E (p >>= f) := by
  intro es res ht pre x post hes hx
  rcases tells_bind ht with ⟨e, h, rfl⟩ | ⟨es₁, es₂, a, rfl, h₁, h₂⟩
  · obtain ⟨hpost, e', he, hE⟩ := hp es _ h pre x post hes hx
    cases he
    exact ⟨hpost, e, rfl, hE⟩
  · rcases List.append_eq_append_iff.mp hes with ⟨mid, rfl, hmid⟩ | ⟨mid, rfl, hmid⟩
    · exact hf a es₂ res h₂ mid x post hmid hx
    · cases mid with
      | nil => exact hf a es₂ res h₂ [] x post hmid.symm hx
      | cons y mid =>
        -- the failure would be of the first program, which has not failed
        obtain ⟨rfl, rfl⟩ := List.cons.inj hmid
        obtain ⟨-, e, he, -⟩ := hp _ _ h₁ pre x mid rfl hx
        nomatch he

theorem adapt {p : ExceptT ε (Prog Res) α} {f : ε → ε'} (hp : StopsAt failed E p)
    (hE : ∀ e, E e → E' (f e)) : StopsAt failed E' (p.adapt f) := by
  intro es res ht pre x post hes hx
  obtain ⟨r, h, rfl⟩ := tells_adapt ht
  obtain ⟨hpost, e, rfl, he⟩ := hp es r h pre x post hes hx
  exact ⟨hpost, f e, rfl, hE e he⟩

theorem call {op : Op} {k : Res op → ExceptT ε (Prog Res) α}
    (hfail : ∀ r, failed ⟨op, r⟩ → ∃ e, k r = MonadExcept.throw e ∧ E e)
    (hk : ∀ r, StopsAt failed E (k r)) :
    StopsAt failed E (ExceptT.mk (Prog.call op fun r => (k r).run)) := by
  intro es res ht pre x post hes hx
  obtain ⟨r, es', rfl, h⟩ := Tells.of_call ht
  cases pre with
  | nil =>
    obtain ⟨rfl, rfl⟩ := List.cons.inj hes
    obtain ⟨e, hkr, hE⟩ := hfail r hx
    rw [hkr] at h
    obtain ⟨rfl, rfl⟩ := tells_throw h
    exact ⟨rfl, e, rfl, hE⟩
  | cons y pre =>
    obtain ⟨rfl, rfl⟩ := List.cons.inj hes
    exact hk r _ res h pre x post rfl hx

end StopsAt
end Prog
end Interleave
