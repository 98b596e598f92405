import FuzzyChat.Redis.Store

/-! Maps whose entries end, and the keys of a database that make up one. -/

namespace Redis

def Timed (K V : Type) : Type := K → Option (V × Nat)

namespace Timed
variable {K V : Type}

def empty : Timed K V := fun _ => none

def live (now : Nat) (k : K) (m : Timed K V) : Option V :=
  ((m k).filter fun x => decide (now ≤ x.2)).map Prod.fst

theorem live_eq_some {m : Timed K V} {now : Nat} {k : K} {v : V} :
    m.live now k = some v ↔ ∃ t, m k = some (v, t) ∧ now ≤ t := by
  simp only [live, Option.map_eq_some_iff, Option.filter_eq_some_iff, decide_eq_true_eq]
  constructor
  · rintro ⟨⟨v, t⟩, ⟨hm, ht⟩, rfl⟩
    exact ⟨t, hm, ht⟩
  · rintro ⟨t, hm, ht⟩
    exact ⟨(v, t), ⟨hm, ht⟩, rfl⟩

theorem live_of_lasting {m : Timed K V} {now : Nat} {k : K}
    (h : ∀ v t, m k = some (v, t) → now ≤ t) :
    m.live now k = (m k).map Prod.fst := by
  unfold live
  cases hm : m k with
  | none => rfl
  | some x => rw [Option.filter_some, if_pos (decide_eq_true (h x.1 x.2 hm))]

variable [DecidableEq K]

def put (k : K) (v : V) (t : Nat) (m : Timed K V) : Timed K V := Function.update m k (some (v, t))

def drop (k : K) (m : Timed K V) : Timed K V := Function.update m k none

def renew (now : Nat) (k : K) (t : Nat) (m : Timed K V) : Timed K V :=
  if (m.live now k).isSome then Function.update m k ((m k).map fun x => (x.1, t)) else m

variable {m : Timed K V} {now t : Nat} {k k' : K} {v : V}

theorem put_apply : m.put k v t k' = if k' = k then some (v, t) else m k' :=
  Function.update_apply ..

theorem drop_apply : m.drop k k' = if k' = k then none else m k' := Function.update_apply ..

theorem renew_apply :
    m.renew now k t k' =
      if k' = k ∧ (m.live now k).isSome then (m k).map fun x => (x.1, t) else m k' := by
  unfold renew
  cases h : (m.live now k).isSome with
  | false => simp
  | true =>
    simp only [and_true]
    exact Function.update_apply ..

end Timed

namespace Store
variable {K V W : Type} {key : K → String} {enc : V → W} {s : Store W} {m : Timed K V}
  {now seconds : Nat} {k : K} {v : V}

def entry (enc : V → W) (x : V × Nat) : Entry W := ⟨.string (enc x.1), some x.2⟩

/-- The strings under the keys of the family are the entries of the map. -/
def Holds (key : K → String) (enc : V → W) (s : Store W) (m : Timed K V) : Prop :=
  ∀ k, s.lookup (key k) = (m k).map (entry enc)

namespace Holds

theorem congr (h : Holds key enc s m) {s' : Store W}
    (hs : ∀ k, s'.lookup (key k) = s.lookup (key k)) : Holds key enc s' m := fun k =>
  (hs k).trans (h k)

theorem live (h : Holds key enc s m) :
    s.live now (key k) = ((m k).filter fun x => decide (now ≤ x.2)).map (entry enc) := by
  rw [Store.live, h k, Option.filter_map]
  rfl

theorem isSome_live (h : Holds key enc s m) :
    (s.live now (key k)).isSome = (m.live now k).isSome := by
  rw [h.live, Timed.live, Option.isSome_map, Option.isSome_map]

theorem get (h : Holds key enc s m) :
    s.get now (key k) = some ((m.live now k).map enc) := by
  rw [Store.get, h.live, Timed.live]
  cases (m k).filter fun x => decide (now ≤ x.2) <;> rfl

section others
variable {key' : String}

theorem setEx_ne (h : Holds key enc s m) (now seconds : Nat) (hne : ∀ k, key k ≠ key') (w : W) :
    Holds key enc (s.setEx now key' w seconds) m :=
  h.congr fun k => by rw [lookup_setEx, if_neg (hne k)]

theorem del_ne (h : Holds key enc s m) (hne : ∀ k, key k ≠ key') : Holds key enc (s.del key') m :=
  h.congr fun k => by rw [lookup_del, if_neg (hne k)]

theorem expire_ne (h : Holds key enc s m) (hne : ∀ k, key k ≠ key') :
    Holds key enc (s.expire now key' seconds) m :=
  h.congr fun k => by rw [lookup_expire_ite, if_neg fun hx => hne k hx.1]

theorem getEx_ne (h : Holds key enc s m) (now seconds : Nat) (hne : ∀ k, key k ≠ key') :
    Holds key enc (s.getEx now key' seconds).2 m := by
  unfold Store.getEx
  split
  · exact h
  · exact h.setEx_ne now seconds hne _
  · exact h

end others

variable [DecidableEq K]

theorem setEx (h : Holds key enc s m) (hkey : Function.Injective key) :
    Holds key enc (s.setEx now (key k) (enc v) seconds) (m.put k v (now + 1000 * seconds)) := by
  intro k'
  rw [lookup_setEx, Timed.put_apply]
  by_cases hk : k' = k
  · rw [if_pos (congrArg key hk), if_pos hk]
    rfl
  · rw [if_neg (hkey.ne hk), if_neg hk]
    exact h k'

theorem del (h : Holds key enc s m) (hkey : Function.Injective key) :
    Holds key enc (s.del (key k)) (m.drop k) := by
  intro k'
  rw [lookup_del, Timed.drop_apply]
  by_cases hk : k' = k
  · rw [if_pos (congrArg key hk), if_pos hk]
    rfl
  · rw [if_neg (hkey.ne hk), if_neg hk]
    exact h k'

theorem expire (h : Holds key enc s m) (hkey : Function.Injective key) :
    Holds key enc (s.expire now (key k) seconds) (m.renew now k (now + 1000 * seconds)) := by
  intro k'
  rw [lookup_expire_ite, Timed.renew_apply, h.isSome_live]
  by_cases hk : k' = k
  · subst hk
    simp only [true_and]
    split_ifs
    · rw [h k', Option.map_map, Option.map_map]
      rfl
    · exact h k'
  · rw [if_neg fun hx => hk (hkey hx.1), if_neg fun hx => hk hx.1]
    exact h k'

theorem getEx (h : Holds key enc s m) (hkey : Function.Injective key) (now : Nat) (k : K)
    (seconds : Nat) :
    (s.getEx now (key k) seconds).1 = some ((m.live now k).map enc) ∧
      Holds key enc (s.getEx now (key k) seconds).2 (m.renew now k (now + 1000 * seconds)) := by
  rw [Store.getEx, h.live]
  cases hm : (m k).filter fun x => decide (now ≤ x.2) with
  | none =>
    have hlive : m.live now k = none := by rw [Timed.live, hm, Option.map_none]
    have hrenew : m.renew now k (now + 1000 * seconds) = m := by
      rw [Timed.renew, hlive]
      rfl
    rw [hlive, hrenew]
    exact ⟨rfl, h⟩
  | some x =>
    have hlive : m.live now k = some x.1 := by rw [Timed.live, hm, Option.map_some]
    have hx : m k = some x := (Option.filter_eq_some_iff.mp hm).1
    have hrenew : m.renew now k (now + 1000 * seconds) = m.put k x.1 (now + 1000 * seconds) := by
      rw [Timed.renew, hlive, hx]
      rfl
    rw [hlive, hrenew]
    exact ⟨rfl, h.setEx hkey⟩

end Holds
end Store
end Redis
