import Mathlib

/-! What a history of timed steps leaves of one record: the value last put in, as it has been
changed since, unless it was taken out or a sweep found it too old. -/

namespace Retention

inductive Act (α : Type) where
  | put (a : α)
  | change (f : α → α)
  | drop
  | sweep
  | spare

variable {α ι : Type} (ttl : Nat) (time : ι → Nat) (act : ι → Act α)

namespace Act

/-- The record, if there is one, with the time at which it was put in. A sweep spares what is not
older than `ttl`. -/
def apply (now : Nat) : Act α → Option (Nat × α) → Option (Nat × α)
  | put a, _ => some (now, a)
  | change f, r => r.map fun x => (x.1, f x.2)
  | drop, _ => none
  | sweep, r => r.filter fun x => decide (now ≤ x.1 + ttl)
  | spare, r => r

def grow : Act α → α → α
  | change f, a => f a
  | _, a => a

def Spares (born now : Nat) (x : Act α) : Prop :=
  x ≠ drop ∧ (x = sweep → now ≤ born + ttl)

variable {ttl}

theorem apply_eq_some {now born : Nat} {a : α} {x : Act α} {r : Option (Nat × α)}
    (hput : ∀ b, x ≠ put b) :
    x.apply ttl now r = some (born, a) ↔
      ∃ b, r = some (born, b) ∧ a = x.grow b ∧ x.Spares ttl born now := by
  cases x with
  | put b => exact absurd rfl (hput b)
  | change f =>
    constructor
    · intro h
      obtain ⟨⟨t, b⟩, hr, hx⟩ := Option.map_eq_some_iff.mp h
      cases hx
      exact ⟨b, hr, rfl, nofun, nofun⟩
    · rintro ⟨b, rfl, rfl, -⟩
      rfl
  | drop => exact ⟨nofun, fun ⟨_, _, _, h, _⟩ => absurd rfl h⟩
  | sweep =>
    constructor
    · intro h
      obtain ⟨hr, ht⟩ := Option.filter_eq_some_iff.mp h
      exact ⟨a, hr, rfl, nofun, fun _ => of_decide_eq_true ht⟩
    · rintro ⟨b, rfl, rfl, -, ht⟩
      have hb : decide (now ≤ born + ttl) = true := decide_eq_true (ht rfl)
      rw [apply, Option.filter_some, hb]
      rfl
  | spare =>
    constructor
    · exact fun h => ⟨a, h, rfl, nofun, nofun⟩
    · rintro ⟨b, rfl, rfl, -⟩
      rfl

end Act

def kept : List ι → Option (Nat × α)
  | [] => none
  | e :: past => (act e).apply ttl (time e) (kept past)

def grown (newer : List ι) (a : α) : α := newer.foldr (fun e => (act e).grow) a

variable {ttl time act}

theorem exists_put {past : List ι} {born : Nat} {a : α}
    (h : kept ttl time act past = some (born, a)) :
    ∃ newer e older b, past = newer ++ e :: older ∧ act e = .put b ∧
      ∀ e' ∈ newer, ∀ b', act e' ≠ .put b' := by
  induction past generalizing a with
  | nil => nomatch h
  | cons e past ih =>
    by_cases hput : ∃ b, act e = .put b
    · obtain ⟨b, hb⟩ := hput
      exact ⟨[], e, past, b, rfl, hb, nofun⟩
    · have hno : ∀ b, act e ≠ .put b := fun b hb => hput ⟨b, hb⟩
      obtain ⟨b, hb, -⟩ := (Act.apply_eq_some hno).mp h
      obtain ⟨newer, e', older, b', rfl, he', hnewer⟩ := ih hb
      exact ⟨e :: newer, e', older, b', rfl, he', List.forall_mem_cons.mpr ⟨hno, hnewer⟩⟩

theorem kept_append {newer older : List ι} {e : ι} {b : α} (he : act e = .put b)
    (hnewer : ∀ e' ∈ newer, ∀ b', act e' ≠ .put b') {born : Nat} {a : α} :
    kept ttl time act (newer ++ e :: older) = some (born, a) ↔
      born = time e ∧ a = grown act newer b ∧
        ∀ e' ∈ newer, (act e').Spares ttl (time e) (time e') := by
  induction newer generalizing a with
  | nil =>
    have hkept : kept ttl time act ([] ++ e :: older) = some (time e, b) := by
      rw [List.nil_append, kept, he, Act.apply]
    rw [hkept]
    simp [grown, eq_comm]
  | cons x newer ih =>
    obtain ⟨hx, hrest⟩ := List.forall_mem_cons.mp hnewer
    rw [List.cons_append, kept, Act.apply_eq_some hx]
    constructor
    · rintro ⟨c, hc, rfl, hspares⟩
      obtain ⟨rfl, rfl, hall⟩ := (ih hrest).mp hc
      exact ⟨rfl, rfl, List.forall_mem_cons.mpr ⟨hspares, hall⟩⟩
    · rintro ⟨rfl, rfl, hall⟩
      obtain ⟨hspares, hall⟩ := List.forall_mem_cons.mp hall
      exact ⟨grown act newer b, (ih hrest).mpr ⟨rfl, rfl, hall⟩, rfl, hspares⟩

end Retention
