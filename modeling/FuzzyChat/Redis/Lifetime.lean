import FuzzyChat.Redis.Commands
import FuzzyChat.Redis.Timed

/-! How long a key is there that is set for some time, and for as long again whenever it is used. -/

namespace Redis

inductive Access (V : Type) where
  | set (v : V)
  | use
  | drop

variable {V : Type} (key : String) (seconds : Nat)

def Write.access : Write V → Option (Access V)
  | setEx key' v _ => if key' = key then some (.set v) else none
  | del key' => if key' = key then some .drop else none
  | _ => none

/-- In a transaction the last write to the key counts. -/
def Command.access : Command V → Option (Access V)
  | getEx key' _ => if key' = key then some .use else none
  | write ws => ws.reverse.findSome? (Write.access key)
  | _ => none

def Write.Leases : Write V → Prop
  | setEx key' _ seconds' => key' = key → seconds' = seconds
  | del _ => True
  | hset key' _ _ | hdel key' _ | expire key' _ => key' ≠ key

def Command.Leases : Command V → Prop
  | getEx key' seconds' => key' = key → seconds' = seconds
  | write ws => ∀ w ∈ ws, w.Leases key seconds
  | _ => True

def leased (now : Nat) (x : Option (V × Nat)) : Option (Access V) → Option (V × Nat)
  | none => x
  | some (.set v) => some (v, now + 1000 * seconds)
  | some .use => x.map fun x => if now ≤ x.2 then (x.1, now + 1000 * seconds) else x
  | some .drop => none

abbrev History (V : Type) := List (Nat × Command V)

namespace History

def lease : History V → Option (V × Nat)
  | [] => none
  | (t, cmd) :: h => leased seconds t (lease h) (cmd.access key)

def setTo : History V → Option V
  | [] => none
  | (_, cmd) :: h =>
    match cmd.access key with
    | some (.set v) => some v
    | some .drop => none
    | _ => setTo h

def uses : History V → List Nat
  | [] => []
  | (t, cmd) :: h =>
    match cmd.access key with
    | some (.set _) => [t]
    | some .use => t :: uses h
    | _ => uses h

def InTime (later earlier : Nat) : Prop := later ≤ earlier + 1000 * seconds

instance (later earlier : Nat) : Decidable (InTime seconds later earlier) :=
  inferInstanceAs (Decidable (_ ≤ _))

variable {key seconds}

section use
variable {now t : Nat} {x : Option (V × Nat)}

theorem lapsed_use (ht : t ≤ now) (hx : (x.filter fun x => decide (t ≤ x.2)).map Prod.fst = none) :
    ((x.map fun x => if t ≤ x.2 then (x.1, t + 1000 * seconds) else x).filter
      fun x => decide (now ≤ x.2)).map Prod.fst = none := by
  cases x with
  | none => rfl
  | some x =>
    have hover : ¬ t ≤ x.2 := by simpa [Option.filter_some] using hx
    have hnow : ¬ now ≤ x.2 := fun h => hover (ht.trans h)
    simp [Option.filter_some, hover, hnow]

theorem renewed_use {v : V}
    (hx : (x.filter fun x => decide (t ≤ x.2)).map Prod.fst = some v) :
    (x.map fun x => if t ≤ x.2 then (x.1, t + 1000 * seconds) else x) =
      some (v, t + 1000 * seconds) := by
  obtain ⟨x, hfilter, rfl⟩ := Option.map_eq_some_iff.mp hx
  obtain ⟨rfl, ht⟩ := Option.filter_eq_some_iff.mp hfilter
  rw [Option.map_some, if_pos (of_decide_eq_true ht)]

end use

/-- The value is there as long as it has always been used in time. -/
theorem live_lease {h : History V} {now : Nat}
    (htimes : (now :: h.map Prod.fst).IsChain fun later earlier => earlier ≤ later) :
    ((lease key seconds h).filter fun x => decide (now ≤ x.2)).map Prod.fst =
      if (now :: uses key h).IsChain (InTime seconds) then setTo key h else none := by
  induction h generalizing now with
  | nil => simp [lease, setTo]
  | cons e h ih =>
    obtain ⟨t, cmd⟩ := e
    rw [List.map_cons, List.isChain_cons_cons] at htimes
    obtain ⟨ht, htail⟩ := htimes
    have hskip : (now :: h.map Prod.fst).IsChain fun later earlier => earlier ≤ later := by
      cases h with
      | nil => exact .singleton now
      | cons e h =>
        rw [List.map_cons, List.isChain_cons_cons] at htail ⊢
        exact ⟨htail.1.trans ht, htail.2⟩
    cases hacc : cmd.access key with
    | none => simp only [lease, setTo, uses, hacc, leased, ih hskip]
    | some access =>
      cases access with
      | set v =>
        simp only [lease, setTo, uses, hacc, leased, Option.filter_some, List.isChain_cons_cons,
          List.isChain_singleton, and_true, decide_eq_true_eq, InTime]
        split_ifs <;> rfl
      | drop => simp [lease, setTo, hacc, leased]
      | use =>
        have hbefore := ih htail
        simp only [lease, setTo, uses, hacc, leased, List.isChain_cons_cons]
        -- what is gone by then stays so, and what is there is renewed
        cases hx : ((lease key seconds h).filter fun x => decide (t ≤ x.2)).map Prod.fst with
        | none =>
          have hgone : ¬ ((t :: uses key h).IsChain (InTime seconds) ∧ setTo key h ≠ none) := by
            rintro ⟨hchain, hset⟩
            rw [hx, if_pos hchain] at hbefore
            exact hset hbefore.symm
          rw [lapsed_use ht hx]
          split_ifs with hchain
          · by_contra hset
            exact hgone ⟨hchain.2, Ne.symm hset⟩
          · rfl
        | some v =>
          rw [hx] at hbefore
          rw [renewed_use hx]
          split_ifs at hbefore with hchain
          · simp only [Option.filter_some, decide_eq_true_eq, hchain, and_true, ← hbefore, InTime]
            split_ifs <;> rfl

end History

namespace Store
variable {key : String} {seconds now : Nat} {s : Store V} {x : Option (V × Nat)}

def Has (key : String) (x : Option (V × Nat)) (s : Store V) : Prop :=
  s.lookup key = x.map (entry id)

theorem lookup_of_part {s' : Store V} {mine : String → Bool} (hk : mine key = true)
    (h : s'.part mine = s.part mine) : s'.lookup key = s.lookup key := by
  rw [← lookup_part hk, h, lookup_part hk]

theorem Has.write (h : s.Has key x) (now : Nat) {w : Write V} (hw : w.Leases key seconds) :
    ((w.exec now s).getD s).Has key (leased seconds now x (w.access key)) := by
  cases w with
  | setEx key' v seconds' =>
    show (s.setEx now key' v seconds').lookup key = _
    rw [lookup_setEx, Write.access]
    by_cases hk : key' = key
    · rw [if_pos hk.symm, if_pos hk, hw hk]
      rfl
    · rw [if_neg (Ne.symm hk), if_neg hk]
      exact h
  | del key' =>
    show (s.del key').lookup key = _
    rw [lookup_del, Write.access]
    by_cases hk : key' = key
    · rw [if_pos hk.symm, if_pos hk]
      rfl
    · rw [if_neg (Ne.symm hk), if_neg hk]
      exact h
  | hset key' field v =>
    have hpart : Store.part (fun k => decide (k = key)) ((s.hset now key' field v).getD s) =
      s.part fun k => decide (k = key) := part_hset_other (decide_eq_false hw) field v
    exact (lookup_of_part (decide_eq_true rfl) hpart).trans h
  | hdel key' field =>
    have hpart : Store.part (fun k => decide (k = key)) ((s.hdel now key' field).getD s) =
      s.part fun k => decide (k = key) := part_hdel_other (decide_eq_false hw) field
    exact (lookup_of_part (decide_eq_true rfl) hpart).trans h
  | expire key' seconds' =>
    show (s.expire now key' seconds').lookup key = _
    rw [lookup_expire_ite, if_neg fun hk => hw hk.1.symm]
    exact h

theorem leased_write (x y : Option (V × Nat)) {w : Write V} {a : Access V}
    (ha : w.access key = some a) : leased seconds now x (some a) = leased seconds now y (some a) := by
  cases w with
  | setEx key' v seconds' =>
    simp only [Write.access] at ha
    split_ifs at ha
    cases ha
    rfl
  | del key' =>
    simp only [Write.access] at ha
    split_ifs at ha
    cases ha
    rfl
  | hset key' field v => contradiction
  | hdel key' field => contradiction
  | expire key' seconds' => contradiction

theorem Has.writes (h : s.Has key x) {ws : List (Write V)}
    (hws : ∀ w ∈ ws, w.Leases key seconds) :
    (Write.execAll now s ws).2.Has key
      (leased seconds now x (ws.reverse.findSome? (Write.access key))) := by
  induction ws generalizing s x with
  | nil => exact h
  | cons w ws ih =>
    obtain ⟨hw, hws⟩ := List.forall_mem_cons.mp hws
    have hrest := ih (h.write now hw) hws
    rw [List.reverse_cons, List.findSome?_append]
    cases hfind : ws.reverse.findSome? (Write.access key) with
    | none =>
      rw [hfind] at hrest
      rw [Option.none_or, List.findSome?_singleton]
      exact hrest
    | some a =>
      obtain ⟨w', -, ha⟩ := List.exists_of_findSome?_eq_some hfind
      rw [hfind] at hrest
      rw [Option.some_or, leased_write x _ ha]
      exact hrest

theorem ne_of_mine {mine : String → Bool} (hk : mine key = false) {key' : String}
    (hk' : mine key' = true) : key' ≠ key := by
  rintro rfl
  rw [hk] at hk'
  contradiction

theorem leases_of_within {mine : String → Bool} {cmd : Command V} (h : cmd.Within mine)
    (hk : mine key = false) : cmd.Leases key seconds := by
  cases cmd with
  | get key' => trivial
  | hget key' field => trivial
  | scan pre => trivial
  | getEx key' seconds' => exact fun he => absurd he (ne_of_mine hk h)
  | write ws =>
    intro w hw
    have hkey := ne_of_mine hk (h w hw)
    cases w with
    | setEx key' v seconds' => exact fun he => absurd he hkey
    | del key' => trivial
    | hset key' field v => exact hkey
    | hdel key' field => exact hkey
    | expire key' seconds' => exact hkey

theorem access_of_within {mine : String → Bool} {cmd : Command V} (h : cmd.Within mine)
    (hk : mine key = false) : cmd.access key = none := by
  cases cmd with
  | get key' => rfl
  | hget key' field => rfl
  | scan pre => rfl
  | getEx key' seconds' => exact if_neg (ne_of_mine hk h)
  | write ws =>
    refine List.findSome?_eq_none_iff.mpr fun w hw => ?_
    have hkey := ne_of_mine hk (h w (List.mem_reverse.mp hw))
    cases w with
    | setEx key' v seconds' => exact if_neg hkey
    | del key' => exact if_neg hkey
    | hset key' field v => rfl
    | hdel key' field => rfl
    | expire key' seconds' => rfl

theorem Has.exec (h : s.Has key x) {cmd : Command V} (hcmd : cmd.Leases key seconds) :
    (cmd.exec now s).2.Has key (leased seconds now x (cmd.access key)) := by
  cases cmd with
  | get key' => exact h
  | hget key' field => exact h
  | scan pre => exact h
  | write ws => exact h.writes hcmd
  | getEx key' seconds' =>
    show (s.getEx now key' seconds').2.lookup key = _
    rw [Command.access]
    by_cases hk : key' = key
    · subst hk
      rw [if_pos rfl, ← hcmd rfl, getEx, Store.live, h]
      cases x with
      | none => exact h
      | some x =>
        rw [Option.map_some, Option.filter_some]
        by_cases ht : now ≤ x.2
        · have halive : (entry id x).alive now = true := decide_eq_true ht
          rw [if_pos halive, leased, Option.map_some, if_pos ht]
          exact (lookup_setEx _ _ _).trans (if_pos rfl)
        · have hdead : ¬ (entry id x).alive now = true := by simpa [Entry.alive, entry] using ht
          rw [if_neg hdead, leased, Option.map_some, if_neg ht]
          exact h
    · rw [if_neg hk]
      have hpart : Store.part (fun k => decide (k = key)) (s.getEx now key' seconds').2 =
        s.part fun k => decide (k = key) := part_getEx_other (decide_eq_false hk) seconds'
      exact (lookup_of_part (decide_eq_true rfl) hpart).trans h

theorem getEx_fst (s : Store V) (now : Nat) (key : String) (seconds : Nat) :
    (s.getEx now key seconds).1 = s.get now key := by
  rw [getEx, Store.get]
  split <;> rfl

theorem Has.get (h : s.Has key x) (now : Nat) :
    s.get now key = some ((x.filter fun x => decide (now ≤ x.2)).map Prod.fst) := by
  rw [Store.get, Store.live, h, Option.filter_map]
  have hcomp : (Entry.alive now ∘ entry id : V × Nat → Bool) = fun x => decide (now ≤ x.2) := rfl
  rw [hcomp]
  cases x.filter fun x => decide (now ≤ x.2) <;> rfl

end Store
end Redis
