import FuzzyChat.Interleave.Served
import FuzzyChat.Interleave.Dialogue

/-! The events of one task in a run, which retrace what its program says. -/

namespace Interleave
variable {S : System}

def Hist.own (h : Hist S) (i : Nat) : List (Event S) := (h.log.filter fun e => e.task == i).reverse

theorem Hist.mem_own {h : Hist S} {i : Nat} {e : Event S} :
    e ∈ h.own i ↔ e ∈ h.log ∧ e.task = i := by
  rw [own, List.mem_reverse, List.mem_filter, beq_iff_eq]

def Event.exchange (e : Event S) : Sigma S.Res := ⟨e.op, e.res⟩

def Hist.said (h : Hist S) (i : Nat) : List (Sigma S.Res) := (h.own i).map Event.exchange

theorem Hist.mem_said {h : Hist S} {i : Nat} {op : S.Op} {r : S.Res op} :
    (⟨op, r⟩ : Sigma S.Res) ∈ h.said i ↔ ∃ pre, h.Did i pre op r := by
  constructor
  · intro hs
    obtain ⟨⟨i', pre, op', r'⟩, hmem, he⟩ := List.mem_map.mp hs
    obtain ⟨hlog, htask⟩ := mem_own.mp hmem
    cases he
    cases htask
    exact ⟨pre, hlog⟩
  · rintro ⟨pre, hd⟩
    exact List.mem_map.mpr ⟨_, mem_own.mpr ⟨hd, rfl⟩, rfl⟩

theorem Hist.said_record_self (h : Hist S) (i : Nat) (op : S.Op) (r : S.Res op) (s : S.State) :
    (h.record i op r s).said i = h.said i ++ [⟨op, r⟩] := by
  simp [said, own, record, Event.exchange]

theorem Hist.said_record_ne (h : Hist S) {i i' : Nat} (hi : i' ≠ i) (op : S.Op) (r : S.Res op)
    (s : S.State) : (h.record i' op r s).said i = h.said i := by
  simp [said, own, record, hi]

/-- In every run, what a task has said leads from the program of its job to what is left of it. -/
theorem Reach.leads {C : Pool S → Move S → Prop} {s₀ : S.State} {p : Pool S} (hp : Reach C s₀ p) :
    ∀ i j (pr : Prog S.Res S.Out), p.tasks[i]? = some (j, pr) →
      (S.prog j).Leads (p.hist.said i) pr := by
  induction hp with
  | start => exact fun i j pr h => nomatch h
  | @step p q m hp hc hq ih =>
    intro i j pr hi
    rcases Pool.step_eq_some.mp hq with ⟨j', -, -, rfl⟩ | ⟨i', c, j', op, k, r, s, -, ht, -, rfl⟩
    · rcases Pool.tasks_accept.mp hi with hold | ⟨rfl, hnew⟩
      · exact ih i j pr hold
      · cases hnew
        -- a task that has just been accepted has done nothing
        have hnone : (p.accept j).hist.said p.tasks.length = [] := by
          rw [Hist.said, List.map_eq_nil_iff]
          apply List.eq_nil_iff_forall_not_mem.mpr
          intro e he
          obtain ⟨hmem, htask⟩ := Hist.mem_own.mp he
          have hlt := hp.task_lt e hmem
          omega
        rw [hnone]
        exact .done _
    · rw [Pool.hist_advance ht]
      rcases (Pool.tasks_advance ht).mp hi with ⟨rfl, hnew⟩ | ⟨hne, hold⟩
      · cases hnew
        rw [Hist.said_record_self]
        exact (ih _ _ _ ht).snoc _
      · rw [Hist.said_record_ne _ (Ne.symm hne)]
        exact ih i j pr hold

/-! Where every operation is answered, every job comes to its end. -/

section served
variable {e : Rivals S} {s₀ : S.State} {i : Nat} {j : S.Job}

theorem Prog.serve_total (htotal : ∀ i c op s, ∃ x, S.exec i c op s = some x)
    (pr : Prog S.Res S.Out) (t : Nat) (p : Pool S) : ∃ x, pr.serve e i j t p = some x := by
  induction pr generalizing t p with
  | ret a => exact ⟨_, rfl⟩
  | call op k ih =>
    obtain ⟨⟨r, s⟩, hx⟩ := htotal i (e.choice t (e.play i t p)) op (e.play i t p).state
    obtain ⟨x, hserve⟩ := ih r (t + 1) ((e.play i t p).advance i j op k r s)
    refine ⟨x, ?_⟩
    rw [serve, hx]
    exact hserve

theorem Prog.serve_returned {pr : Prog S.Res S.Out} {t t' : Nat} {p p' : Pool S} {a : S.Out}
    (hp : Reachable s₀ p) (ht : p.tasks[i]? = some (j, pr))
    (hs : pr.serve e i j t p = some (a, t', p')) :
    Reachable s₀ p' ∧ p'.tasks[i]? = some (j, .ret a) := by
  induction pr generalizing t p with
  | ret b =>
    cases hs
    exact ⟨hp, ht⟩
  | call op k ih =>
    have hq := Rivals.reachable_play (e := e) (i := i) hp t
    have htq := Rivals.tasks_play (e := e) ht t
    rw [serve] at hs
    obtain ⟨⟨r, s⟩, hx, hrest⟩ := Option.bind_eq_some_iff.mp hs
    have hnext : Reachable s₀ ((e.play i t p).advance i j op k r s) :=
      hq.step (m := .act i _) trivial
        (Pool.step_eq_some.mpr (.inr ⟨i, _, j, op, k, r, s, rfl, htq, hx, rfl⟩))
    exact ih r hnext ((Pool.tasks_advance htq).mpr (.inl ⟨rfl, rfl⟩)) hrest

theorem Rivals.submit_total (htotal : ∀ i c op s, ∃ x, S.exec i c op s = some x) {p : Pool S}
    (hp : Reachable s₀ p) (hj : S.admits (p.tasks.map Prod.fst) j) (t : Nat) :
    ∃ a t' p', e.submit j t p = some (a, t', p') ∧ Reachable s₀ p' ∧
      p'.tasks[p.tasks.length]? = some (j, .ret a) := by
  have hacc : Reachable s₀ (p.accept j) :=
    hp.step (m := .spawn j) trivial (Pool.step_eq_some.mpr (.inl ⟨j, rfl, hj, rfl⟩))
  obtain ⟨⟨a, t', p'⟩, hs⟩ := Prog.serve_total (e := e) (i := p.tasks.length) (j := j) htotal
    (S.prog j) t (p.accept j)
  have hlast : (p.accept j).tasks[p.tasks.length]? = some (j, S.prog j) :=
    Pool.tasks_accept.mpr (.inr ⟨rfl, rfl⟩)
  obtain ⟨hp', ht'⟩ := Prog.serve_returned hacc hlast hs
  exact ⟨a, t', p', (if_pos hj).trans hs, hp', ht'⟩

end served
end Interleave
