/-! Runs of a machine that takes one step after the other: what holds in every state of a run, and
what has to be true of its steps for that. -/

namespace Interleave

section
variable {σ ι : Type} (step : σ → ι → Option σ)

/-- `P` holds in every state the machine comes through. -/
def Always (P : σ → Prop) (s : σ) : List ι → Prop
  | [] => P s
  | x :: xs => P s ∧ ∀ s', step s x = some s' → Always P s' xs

/-- `C` holds of every step the machine takes, in the state it takes it in. -/
def Each (C : σ → ι → Prop) (s : σ) : List ι → Prop
  | [] => True
  | x :: xs => C s x ∧ ∀ s', step s x = some s' → Each C s' xs

instance Always.instDecidable {P : σ → Prop} [DecidablePred P] :
    (s : σ) → (xs : List ι) → Decidable (Always step P s xs)
  | s, [] => inferInstanceAs (Decidable (P s))
  | s, x :: xs =>
    have : ∀ s', Decidable (Always step P s' xs) := fun s' => instDecidable s' xs
    match h : step s x with
    | none => decidable_of_iff (P s) (by simp [Always, h])
    | some s' => decidable_of_iff (P s ∧ Always step P s' xs) (by simp [Always, h])

variable {step} {I P Q : σ → Prop} {C D : σ → ι → Prop}

/-- A step condition that is exactly what keeps `P`, given an invariant and what holds throughout
the run, is exactly what `P` needs of the run. -/
theorem always_iff_each_within (hI : ∀ s x s', I s → step s x = some s' → I s')
    (hP : ∀ s x, I s → Q s → P s → (C s x ↔ ∀ s', step s x = some s' → P s')) {s : σ} {xs : List ι}
    (hQ : Always step Q s xs) (hs : I s) (hp : P s) : Always step P s xs ↔ Each step C s xs := by
  induction xs generalizing s with
  | nil => exact ⟨fun _ => trivial, fun _ => hp⟩
  | cons x xs ih =>
    obtain ⟨hq, hQ⟩ := hQ
    constructor
    · rintro ⟨-, hall⟩
      have hkept : ∀ s', step s x = some s' → P s' := fun s' hx => by
        have := hall s' hx
        cases xs with
        | nil => exact this
        | cons y ys => exact this.1
      refine ⟨(hP s x hs hq hp).mpr hkept, fun s' hx => ?_⟩
      exact (ih (hQ s' hx) (hI s x s' hs hx) (hkept s' hx)).mp (hall s' hx)
    · rintro ⟨hc, heach⟩
      refine ⟨hp, fun s' hx => ?_⟩
      exact (ih (hQ s' hx) (hI s x s' hs hx) ((hP s x hs hq hp).mp hc s' hx)).mpr (heach s' hx)

theorem Always.head {s : σ} {xs : List ι} (h : Always step P s xs) : P s := by
  cases xs with
  | nil => exact h
  | cons x xs => exact h.1

theorem Always.keeps {s s' : σ} {xs : List ι} (hp : Always step P s xs)
    (hI : ∀ s s', ∀ x ∈ xs, I s → P s → P s' → step s x = some s' → I s') (hs : I s)
    (hrun : xs.foldlM step s = some s') : I s' ∧ P s' := by
  induction xs generalizing s with
  | nil =>
    cases hrun
    exact ⟨hs, hp⟩
  | cons x xs ih =>
    obtain ⟨hp, hrest⟩ := hp
    rw [List.foldlM_cons] at hrun
    obtain ⟨s₁, hx, hrun⟩ := Option.bind_eq_some_iff.mp hrun
    refine ih (hrest s₁ hx) (fun s s' x hmem => hI s s' x (List.mem_cons_of_mem _ hmem)) ?_ hrun
    exact hI s s₁ x List.mem_cons_self hs hp (hrest s₁ hx).head hx

theorem always_of_invariant (hI : ∀ s x s', I s → step s x = some s' → I s') {s : σ} (hs : I s)
    (xs : List ι) : Always step I s xs := by
  induction xs generalizing s with
  | nil => exact hs
  | cons x xs ih => exact ⟨hs, fun s' hx => ih (hI s x s' hs hx)⟩

theorem always_true (s : σ) (xs : List ι) : Always step (fun _ => True) s xs :=
  always_of_invariant (fun _ _ _ _ _ => trivial) trivial xs

theorem always_iff_each (hI : ∀ s x s', I s → step s x = some s' → I s')
    (hP : ∀ s x, I s → P s → (C s x ↔ ∀ s', step s x = some s' → P s')) {s : σ} {xs : List ι}
    (hs : I s) (hp : P s) : Always step P s xs ↔ Each step C s xs :=
  always_iff_each_within hI (fun s x hi _ => hP s x hi) (always_true s xs) hs hp

theorem each_congr (hI : ∀ s x s', I s → C s x → step s x = some s' → I s')
    (hCD : ∀ s x, I s → (C s x ↔ D s x)) {s : σ} {xs : List ι} (hs : I s) :
    Each step C s xs ↔ Each step D s xs := by
  induction xs generalizing s with
  | nil => exact Iff.rfl
  | cons x xs ih =>
    constructor
    · rintro ⟨hc, hrest⟩
      refine ⟨(hCD s x hs).mp hc, fun s' hx => ?_⟩
      exact (ih (hI s x s' hs hc hx)).mp (hrest s' hx)
    · rintro ⟨hd, hrest⟩
      have hc := (hCD s x hs).mpr hd
      exact ⟨hc, fun s' hx => (ih (hI s x s' hs hc hx)).mpr (hrest s' hx)⟩

end
end Interleave
