import FuzzyChat.Interleave.System

/-! A system in the words of another, which has one operation for each of its own. -/

namespace Interleave

/-- What the operations of one system are in another, and how the answers are read. -/
structure Wording (S T : System) where
  op : S.Op → T.Op
  read : (o : S.Op) → T.Res (op o) → S.Res o
  job : S.Job → T.Job
  out : S.Out → T.Out
  state : S.State → T.State
  choice : T.Choice → S.Choice

namespace Wording
variable {S T : System} (w : Wording S T)

def program : Prog S.Res S.Out → Prog T.Res T.Out
  | .ret a => .ret (w.out a)
  | .call op k => .call (w.op op) fun r => program (k (w.read op r))

structure Faithful : Prop where
  prog : ∀ j, T.prog (w.job j) = w.program (S.prog j)
  exec : ∀ i c op s,
    (T.exec i c (w.op op) (w.state s)).map (fun x => (w.read op x.1, x.2)) =
      (S.exec i (w.choice c) op s).map fun x => (x.1, w.state x.2)
  admits : ∀ js j, T.admits (js.map w.job) (w.job j) → S.admits js j

structure Renders (p : Pool S) (q : Pool T) : Prop where
  state : q.state = w.state p.state
  tasks : q.tasks = p.tasks.map fun t => (w.job t.1, w.program t.2)

variable {w}

theorem Renders.jobs {p : Pool S} {q : Pool T} (h : w.Renders p q) :
    q.tasks.map Prod.fst = (p.tasks.map Prod.fst).map w.job := by
  rw [h.tasks, List.map_map, List.map_map]
  rfl

theorem Renders.accept {p : Pool S} {q : Pool T} (hw : w.Faithful) (h : w.Renders p q)
    (j : S.Job) : w.Renders (p.accept j) (q.accept (w.job j)) where
  state := h.state
  tasks := by
    show q.tasks ++ [(w.job j, T.prog (w.job j))] = (p.tasks ++ [(j, S.prog j)]).map _
    rw [h.tasks, hw.prog, List.map_append]
    rfl

theorem Renders.advance {p : Pool S} {q : Pool T} (hw : w.Faithful) (h : w.Renders p q) {i : Nat}
    {c : T.Choice} {j : T.Job} {op : T.Op} {k : T.Res op → Prog T.Res T.Out} {r : T.Res op}
    {t : T.State} (ht : q.tasks[i]? = some (j, .call op k))
    (hexec : T.exec i c op q.state = some (r, t)) :
    ∃ p', p.step (.act i (w.choice c)) = some p' ∧ w.Renders p' (q.advance i j op k r t) := by
  rw [h.tasks, List.getElem?_map, Option.map_eq_some_iff] at ht
  obtain ⟨⟨j', pr⟩, ht', htask⟩ := ht
  obtain ⟨rfl, hprog⟩ := Prod.mk.inj htask
  cases pr with
  | ret a => contradiction
  | call op' k' =>
    cases hprog
    have hread := hw.exec i c op' p.state
    rw [h.state] at hexec
    rw [hexec, Option.map_some] at hread
    obtain ⟨⟨r', s⟩, hx, hanswer⟩ := Option.map_eq_some_iff.mp hread.symm
    have hstate : w.state s = t := congrArg Prod.snd hanswer
    obtain rfl : r' = w.read op' r := congrArg Prod.fst hanswer
    refine ⟨p.advance i j' op' k' (w.read op' r) s, ?_, hstate.symm, ?_⟩
    · exact Pool.step_eq_some.mpr (.inr ⟨i, _, j', op', k', _, s, rfl, ht', hx, rfl⟩)
    · show q.tasks.set i _ = (p.tasks.set i _).map _
      rw [h.tasks, List.map_set]

/-- Every run on jobs of the one system is a run of that system, in other words. -/
theorem exists_rendered (hw : w.Faithful) {s₀ : S.State} {q : Pool T}
    (hq : Reachable (w.state s₀) q)
    (hjobs : ∀ j ∈ q.tasks.map Prod.fst, ∃ j' : S.Job, w.job j' = j) :
    ∃ p : Pool S, Reachable s₀ p ∧ w.Renders p q := by
  induction hq with
  | start => exact ⟨Pool.start s₀, .start, rfl, rfl⟩
  | @step q q' m hq hc hm ih =>
    rcases Pool.step_eq_some.mp hm with ⟨j, rfl, hadmits, rfl⟩ |
      ⟨i, c, j, op, k, r, t, rfl, ht, hexec, rfl⟩
    · rw [Pool.accept, List.map_append] at hjobs
      obtain ⟨p, hp, h⟩ := ih fun j hj => hjobs j (List.mem_append_left _ hj)
      obtain ⟨j', rfl⟩ := hjobs j (List.mem_append_right _ (List.mem_singleton_self _))
      rw [h.jobs] at hadmits
      refine ⟨p.accept j', hp.step (m := .spawn j') trivial ?_, h.accept hw j'⟩
      exact Pool.step_eq_some.mpr (.inl ⟨j', rfl, hw.admits _ _ hadmits, rfl⟩)
    · have hsame : (q.advance i j op k r t).tasks.map Prod.fst = q.tasks.map Prod.fst :=
        congrArg Hist.jobs (Pool.hist_advance ht r t)
      rw [hsame] at hjobs
      obtain ⟨p, hp, h⟩ := ih hjobs
      obtain ⟨p', hp', h'⟩ := h.advance hw ht hexec
      exact ⟨p', hp.step trivial hp', h'⟩

end Wording
end Interleave
