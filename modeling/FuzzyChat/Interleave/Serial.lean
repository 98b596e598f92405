import FuzzyChat.Interleave.System

/-! Calls that take several steps, and the serial orders in which they could have been carried out
whole. -/

namespace Interleave

section
variable {S : System} (waits : S.State → S.State → Prop) (whole : S.Job → S.State → S.Out × S.State)

/-- The state after calls carried out whole, with the task, the job and the result of each, newest
first. In between the state may wait. -/
inductive Serial (s₀ : S.State) : List (Nat × S.Job × S.Out) → S.State → Prop
  | start : Serial s₀ [] s₀
  | wait {order : List (Nat × S.Job × S.Out)} {s s' : S.State} (h : Serial s₀ order s)
      (hw : waits s s') : Serial s₀ order s'
  | call {order : List (Nat × S.Job × S.Out)} {s : S.State} (h : Serial s₀ order s) (i : Nat)
      (j : S.Job) : Serial s₀ ((i, j, (whole j s).1) :: order) (whole j s).2

/-- The calls that have come to their end, in an order in which they give the same results and the
same state one by one. -/
structure Serializes (s₀ : S.State) (p : Pool S) (order : List (Nat × S.Job × S.Out)) : Prop where
  serial : Serial waits whole s₀ order p.state
  nodup : (order.map Prod.fst).Nodup
  returned : ∀ i j a, (i, j, a) ∈ order ↔ p.returned i = some (j, a)

variable {waits whole} {s₀ : S.State} {p : Pool S} {order : List (Nat × S.Job × S.Out)}

theorem Serial.holds {P : List (Nat × S.Job × S.Out) → S.State → Prop} (hstart : P [] s₀)
    (hwait : ∀ order s s', P order s → waits s s' → P order s')
    (hcall : ∀ order s i j, P order s → P ((i, j, (whole j s).1) :: order) (whole j s).2)
    {s : S.State} (h : Serial waits whole s₀ order s) : P order s := by
  induction h with
  | start => exact hstart
  | wait _ hw ih => exact hwait _ _ _ ih hw
  | call _ i j ih => exact hcall _ _ i j ih

theorem Pool.returned_accept {j : S.Job} (hj : (S.prog j).result? = none) (i : Nat) :
    (p.accept j).returned i = p.returned i := by
  ext ⟨j', a⟩
  rw [Pool.returned_eq_some, Pool.returned_eq_some, Pool.tasks_accept]
  constructor
  · rintro (hold | ⟨-, hnew⟩)
    · exact hold
    · rw [← (Prod.mk.inj hnew).2] at hj
      nomatch hj
  · exact .inl

theorem Pool.returned_advance {i : Nat} {j : S.Job} {op : S.Op} {k : S.Res op → Prog S.Res S.Out}
    (ht : p.tasks[i]? = some (j, .call op k)) (r : S.Res op) (s : S.State) (i' : Nat) :
    (p.advance i j op k r s).returned i' =
      if i' = i then (k r).result?.map fun a => (j, a) else p.returned i' := by
  ext ⟨j', a⟩
  rw [Pool.returned_eq_some, Pool.tasks_advance ht]
  split_ifs with hi
  · rw [Option.map_eq_some_iff]
    constructor
    · rintro (⟨-, he⟩ | ⟨hne, -⟩)
      · obtain ⟨rfl, hk⟩ := Prod.mk.inj he
        exact ⟨a, Prog.result?_eq_some.mpr hk.symm, rfl⟩
      · exact absurd hi hne
    · rintro ⟨a', ha, he⟩
      obtain ⟨rfl, rfl⟩ := Prod.mk.inj he
      exact .inl ⟨hi, by rw [Prog.result?_eq_some.mp ha]⟩
  · rw [Pool.returned_eq_some]
    exact ⟨fun h => (h.resolve_left fun h => hi h.1).2, fun h => .inr ⟨hi, h⟩⟩

/-- What a step is to a serial order: a wait, or the call as a whole after one. -/
def StepsWhole (waits : S.State → S.State → Prop) (whole : S.Job → S.State → S.Out × S.State)
    (j : S.Job) (s s' : S.State) (next : Prog S.Res S.Out) : Prop :=
  next.result? = none ∧ waits s s' ∨
    ∃ a w, next = .ret a ∧ waits s w ∧ whole j w = (a, s')

theorem Serializes.advance (h : Serializes waits whole s₀ p order) {i : Nat} {j : S.Job} {op : S.Op}
    {k : S.Res op → Prog S.Res S.Out} (ht : p.tasks[i]? = some (j, .call op k)) {r : S.Res op}
    {s : S.State} (hs : StepsWhole waits whole j p.state s (k r)) :
    ∃ order', Serializes waits whole s₀ (p.advance i j op k r s) order' := by
  have hopen : p.returned i = none := by
    rw [Pool.returned, ht]
    rfl
  have hfresh : ∀ j' a, (i, j', a) ∉ order := by
    intro j' a hmem
    rw [(h.returned i j' a).mp hmem] at hopen
    contradiction
  rcases hs with ⟨hnone, hwait⟩ | ⟨a, w, hret, hwait, hwhole⟩
  · -- no call returns, and the order stays
    refine ⟨order, h.serial.wait hwait, h.nodup, fun i' j' a => ?_⟩
    rw [h.returned, Pool.returned_advance ht, hnone]
    split_ifs with hi
    · rw [hi, hopen]
      rfl
    · rfl
  · -- the call has come to its end: it is the last of the order
    refine ⟨(i, j, a) :: order, ?_⟩
    constructor
    case serial =>
      have hcall := (h.serial.wait hwait).call i j
      rw [hwhole] at hcall
      exact hcall
    case nodup =>
      refine List.nodup_cons.mpr ⟨fun hmem => ?_, h.nodup⟩
      obtain ⟨⟨i', j', a'⟩, hlisted, he⟩ := List.mem_map.mp hmem
      obtain rfl : i' = i := he
      exact hfresh j' a' hlisted
    case returned =>
      intro i' j' a'
      rw [Pool.returned_advance ht, hret, List.mem_cons, h.returned]
      split_ifs with hi
      · rw [hi, hopen]
        simp [Prog.result?, eq_comm]
      · simp [hi]

/-- Where each step is a wait or a call as a whole, whatever runs is serializable. -/
theorem serializable {C : Pool S → Move S → Prop} (hprog : ∀ j, (S.prog j).result? = none)
    (hstep : ∀ p i c j op k r s, Reach C s₀ p → C p (.act i c) →
      p.tasks[i]? = some (j, .call op k) → S.exec i c op p.state = some (r, s) →
        StepsWhole waits whole j p.state s (k r))
    (hp : Reach C s₀ p) : ∃ order, Serializes waits whole s₀ p order := by
  induction hp with
  | start =>
    exact ⟨[], .start, List.nodup_nil, fun i j a => ⟨fun h => (nomatch h), fun h => (nomatch h)⟩⟩
  | @step p q m hp hc hq ih =>
    obtain ⟨order, h⟩ := ih
    rcases Pool.step_eq_some.mp hq with ⟨j, -, -, rfl⟩ | ⟨i, c, j, op, k, r, s, rfl, ht, hexec, rfl⟩
    · refine ⟨order, h.serial, h.nodup, fun i j' a => ?_⟩
      rw [Pool.returned_accept (hprog j), h.returned]
    · exact h.advance ht (hstep p i c j op k r s hp hc ht hexec)

end
end Interleave
