import FuzzyChat.Interleave.Prog
import FuzzyChat.Redis.Store

/-! The commands of a Redis database, the programs that send them, and the part of a database that
some of its keys make up. -/

namespace AList
variable {K V : Type} [DecidableEq K] (mine : K → Bool)

omit [DecidableEq K] in
theorem entries_retain (p : K → V → Bool) (t : Table K V) :
    (t.retain p).entries = t.entries.filter fun e => p e.1 e.2 := rfl

theorem retain_erase_mine {k : K} (hk : mine k = true) (t : Table K V) :
    (t.erase k).retain (fun k _ => mine k) = (t.retain fun k _ => mine k).erase k := by
  apply AList.ext
  show (t.entries.kerase k).filter _ = (t.entries.filter _).kerase k
  induction t.entries with
  | nil => rfl
  | cons e es ih =>
    by_cases he : k = e.1
    · rw [List.kerase_cons_eq he, List.filter_cons_of_pos (he ▸ hk), List.kerase_cons_eq he]
    · rw [List.kerase_cons_ne he, List.filter_cons, List.filter_cons]
      split_ifs
      · rw [List.kerase_cons_ne he, ih]
      · exact ih

theorem retain_erase_other {k : K} (hk : mine k = false) (t : Table K V) :
    (t.erase k).retain (fun k _ => mine k) = t.retain fun k _ => mine k := by
  apply AList.ext
  show (t.entries.kerase k).filter _ = t.entries.filter _
  induction t.entries with
  | nil => rfl
  | cons e es ih =>
    by_cases he : k = e.1
    · rw [List.kerase_cons_eq he, List.filter_cons_of_neg (by simp [← he, hk])]
    · rw [List.kerase_cons_ne he, List.filter_cons, List.filter_cons, ih]

theorem retain_insert_mine {k : K} (hk : mine k = true) (v : V) (t : Table K V) :
    (t.insert k v).retain (fun k _ => mine k) = (t.retain fun k _ => mine k).insert k v := by
  apply AList.ext
  have hcons : ∀ es : List (Sigma fun _ : K => V),
      (⟨k, v⟩ :: es).filter (fun e => mine e.1) = ⟨k, v⟩ :: es.filter fun e => mine e.1 :=
    fun es => List.filter_cons_of_pos hk
  rw [entries_retain, entries_insert, hcons, entries_insert]
  exact congrArg _ (congrArg AList.entries (retain_erase_mine mine hk t))

theorem retain_insert_other {k : K} (hk : mine k = false) (v : V) (t : Table K V) :
    (t.insert k v).retain (fun k _ => mine k) = t.retain fun k _ => mine k := by
  apply AList.ext
  rw [entries_retain, entries_insert, List.filter_cons_of_neg (by simp [hk])]
  exact congrArg AList.entries (retain_erase_other mine hk t)

omit [DecidableEq K] in
theorem keys_retain (t : Table K V) :
    (t.retain fun k _ => mine k).keys = t.keys.filter mine := by
  show (t.entries.filter fun e => mine e.1).map Sigma.fst = (t.entries.map Sigma.fst).filter mine
  rw [List.filter_map]
  rfl

end AList

namespace Redis

inductive Write (V : Type) where
  | setEx (key : String) (v : V) (seconds : Nat)
  | del (key : String)
  | hset (key field : String) (v : V)
  | hdel (key field : String)
  | expire (key : String) (seconds : Nat)

/-- A command, or a transaction of writes; `scan`, all commands of a `SCAN` to its end, is taken for
one. -/
inductive Command (V : Type) where
  | get (key : String)
  | getEx (key : String) (seconds : Nat)
  | hget (key field : String)
  | scan (pre : String)
  | write (writes : List (Write V))

variable {V : Type}

def Write.key : Write V → String
  | setEx key _ _ | del key | hset key _ _ | hdel key _ | expire key _ => key

/-- `none` is an error, after which the database is as it was. -/
def Write.exec (now : Nat) (s : Store V) : Write V → Option (Store V)
  | setEx key v seconds => some (s.setEx now key v seconds)
  | del key => some (s.del key)
  | hset key field v => s.hset now key field v
  | hdel key field => s.hdel now key field
  | expire key seconds => some (s.expire now key seconds)

/-- Every write of a transaction is carried out, also after one that is an error. -/
def Write.execAll (now : Nat) (s : Store V) : List (Write V) → Option Unit × Store V
  | [] => (some (), s)
  | w :: ws =>
    let rest := execAll now ((w.exec now s).getD s) ws
    ((w.exec now s).bind fun _ => rest.1, rest.2)

namespace Command

abbrev Res : Command V → Type
  | get _ | getEx _ _ | hget _ _ => Option (Option V)
  | scan pre => List {key : String // ∃ rest, key = pre ++ rest}
  | write _ => Option Unit

def exec (now : Nat) (s : Store V) : (cmd : Command V) → cmd.Res × Store V
  | get key => (s.get now key, s)
  | getEx key seconds => s.getEx now key seconds
  | hget key field => (s.hget now key field, s)
  | scan pre => ((s.scan now pre).attach.map fun x => ⟨x.1, (Store.mem_scan.mp x.2).1⟩, s)
  | write ws => Write.execAll now s ws

def Within (mine : String → Bool) : Command V → Prop
  | get key | getEx key _ | hget key _ => mine key = true
  | scan pre => ∀ rest, mine (pre ++ rest) = true
  | write ws => ∀ w ∈ ws, mine w.key = true

end Command

theorem Command.exec_scan (now : Nat) (s : Store V) (pre : String) :
    ((scan pre).exec now s).1.map Subtype.val = s.scan now pre := by
  simp only [exec, List.map_map, Function.comp_def, List.attach_map_subtype_val]

abbrev Sends (V α : Type) : Type := Interleave.Prog (@Command.Res V) α

def whole {α : Type} (now : Nat) (s : Store V) : Sends V α → α × Store V
  | .ret a => (a, s)
  | .call cmd k => whole now (cmd.exec now s).2 (k (cmd.exec now s).1)

namespace Store
variable (mine : String → Bool) {now : Nat} {key : String} {s : Store V}

def part (s : Store V) : Store V := s.retain fun key _ => mine key

variable {mine}

theorem lookup_part (hk : mine key = true) : (s.part mine).lookup key = s.lookup key := by
  rw [part, AList.lookup_retain, hk]
  cases s.lookup key <;> rfl

theorem live_part (hk : mine key = true) : (s.part mine).live now key = s.live now key :=
  live_congr (lookup_part hk)

section mine
variable (hk : mine key = true)
include hk

theorem part_insert (e : Entry V) (s : Store V) :
    part mine (s.insert key e) = (part mine s).insert key e :=
  AList.retain_insert_mine mine hk e s

theorem part_erase (s : Store V) : part mine (s.erase key) = (part mine s).erase key :=
  AList.retain_erase_mine mine hk s

theorem part_get : (s.part mine).get now key = s.get now key := by
  rw [get, live_part hk, get]

theorem part_hget (field : String) : (s.part mine).hget now key field = s.hget now key field := by
  rw [hget, live_part hk, hget]

theorem part_getEx (seconds : Nat) :
    ((s.part mine).getEx now key seconds).1 = (s.getEx now key seconds).1 ∧
      ((s.part mine).getEx now key seconds).2 = (s.getEx now key seconds).2.part mine := by
  unfold getEx
  rw [live_part hk]
  split
  · exact ⟨rfl, rfl⟩
  · exact ⟨rfl, (part_insert hk _ _).symm⟩
  · exact ⟨rfl, rfl⟩

theorem part_hset (field : String) (v : V) :
    (s.part mine).hset now key field v = (s.hset now key field v).map (part mine) := by
  unfold hset
  rw [live_part hk]
  split
  · exact congrArg some (part_insert hk _ _).symm
  · exact congrArg some (part_insert hk _ _).symm
  · rfl

theorem part_hdel (field : String) :
    (s.part mine).hdel now key field = (s.hdel now key field).map (part mine) := by
  unfold hdel
  rw [live_part hk]
  split
  · rfl
  · split_ifs
    · exact congrArg some (part_erase hk _).symm
    · exact congrArg some (part_insert hk _ _).symm
  · rfl

theorem part_expire (seconds : Nat) :
    (s.part mine).expire now key seconds = (s.expire now key seconds).part mine := by
  unfold expire
  rw [live_part hk]
  split
  · rfl
  · exact (part_insert hk _ _).symm

end mine

section other
variable (hk : mine key = false)
include hk

theorem part_insert_other (e : Entry V) (s : Store V) :
    part mine (s.insert key e) = part mine s := AList.retain_insert_other mine hk e s

theorem part_erase_other (s : Store V) : part mine (s.erase key) = part mine s :=
  AList.retain_erase_other mine hk s

theorem part_getEx_other (seconds : Nat) :
    (s.getEx now key seconds).2.part mine = s.part mine := by
  unfold getEx
  split
  · rfl
  · exact part_insert_other hk _ _
  · rfl

theorem part_hset_other (field : String) (v : V) :
    ((s.hset now key field v).getD s).part mine = s.part mine := by
  unfold hset
  split
  · exact part_insert_other hk _ _
  · exact part_insert_other hk _ _
  · rfl

theorem part_hdel_other (field : String) :
    ((s.hdel now key field).getD s).part mine = s.part mine := by
  unfold hdel
  split
  · rfl
  · split_ifs
    · exact part_erase_other hk _
    · exact part_insert_other hk _ _
  · rfl

theorem part_expire_other (seconds : Nat) :
    (s.expire now key seconds).part mine = s.part mine := by
  unfold expire
  split
  · rfl
  · exact part_insert_other hk _ _

end other

theorem scan_part {pre : String} (h : ∀ rest, mine (pre ++ rest) = true) :
    (s.part mine).scan now pre = s.scan now pre := by
  have hkeys : (s.part mine).keys = s.keys.filter mine := AList.keys_retain mine s
  rw [scan, scan, hkeys, List.filter_filter]
  refine List.filter_congr fun key _ => ?_
  by_cases hpre : pre.toList.isPrefixOf key.toList = true
  · obtain ⟨rest, rfl⟩ := isPrefixOf_toList_iff.mp hpre
    rw [live_part (h rest), h rest, Bool.and_true]
  · rw [Bool.not_eq_true] at hpre
    rw [hpre, Bool.false_and, Bool.false_and]
    rfl

end Store

section part
variable {mine : String → Bool} {now : Nat} {s : Store V}

theorem Write.exec_part {w : Write V} (hw : mine w.key = true) :
    w.exec now (s.part mine) = (w.exec now s).map (Store.part mine) := by
  cases w with
  | setEx key v seconds => exact congrArg some (Store.part_insert hw _ s).symm
  | del key => exact congrArg some (Store.part_erase hw s).symm
  | hset key field v => exact Store.part_hset hw field v
  | hdel key field => exact Store.part_hdel hw field
  | expire key seconds => exact congrArg some (Store.part_expire hw seconds)

theorem Write.exec_part_other {w : Write V} (hw : mine w.key = false) :
    ((w.exec now s).getD s).part mine = s.part mine := by
  cases w with
  | setEx key v seconds => exact Store.part_insert_other hw _ s
  | del key => exact Store.part_erase_other hw s
  | hset key field v => exact Store.part_hset_other hw field v
  | hdel key field => exact Store.part_hdel_other hw field
  | expire key seconds => exact Store.part_expire_other hw seconds

theorem Write.execAll_part {ws : List (Write V)} (hws : ∀ w ∈ ws, mine w.key = true) :
    (execAll now (s.part mine) ws).1 = (execAll now s ws).1 ∧
      (execAll now (s.part mine) ws).2 = (execAll now s ws).2.part mine := by
  induction ws generalizing s with
  | nil => exact ⟨rfl, rfl⟩
  | cons w ws ih =>
    obtain ⟨hw, hws⟩ := List.forall_mem_cons.mp hws
    have hnext : (w.exec now (s.part mine)).getD (s.part mine) =
        ((w.exec now s).getD s).part mine := by
      rw [exec_part hw]
      cases w.exec now s <;> rfl
    obtain ⟨hanswer, hstore⟩ := ih (s := (w.exec now s).getD s) hws
    simp only [execAll, hnext, hanswer, hstore, and_true]
    rw [exec_part hw]
    cases w.exec now s <;> rfl

theorem Write.execAll_part_other {ws : List (Write V)} (hws : ∀ w ∈ ws, mine w.key = false) :
    (execAll now s ws).2.part mine = s.part mine := by
  induction ws generalizing s with
  | nil => rfl
  | cons w ws ih =>
    obtain ⟨hw, hws⟩ := List.forall_mem_cons.mp hws
    exact (ih hws).trans (exec_part_other hw)

/-- A command about some keys answers from their part of the database, and changes it as it would
change a database of its own. -/
theorem Command.exec_part {cmd : Command V} (h : cmd.Within mine) :
    cmd.exec now (s.part mine) = ((cmd.exec now s).1, (cmd.exec now s).2.part mine) := by
  cases cmd with
  | get key => exact Prod.ext (Store.part_get h) rfl
  | getEx key seconds =>
    exact Prod.ext (Store.part_getEx h seconds).1 (Store.part_getEx h seconds).2
  | hget key field => exact Prod.ext (Store.part_hget h field) rfl
  | scan pre =>
    refine Prod.ext ?_ rfl
    apply List.map_injective_iff.mpr Subtype.val_injective
    rw [exec_scan, exec_scan]
    exact Store.scan_part h
  | write ws =>
    exact Prod.ext (Write.execAll_part h).1 (Write.execAll_part h).2

theorem Command.exec_part_other {other : String → Bool} {cmd : Command V} (h : cmd.Within other)
    (hdisjoint : ∀ key, other key = true → mine key = false) :
    (cmd.exec now s).2.part mine = s.part mine := by
  cases cmd with
  | get key => rfl
  | getEx key seconds => exact Store.part_getEx_other (hdisjoint key h) seconds
  | hget key field => rfl
  | scan pre => rfl
  | write ws => exact Write.execAll_part_other fun w hw => hdisjoint w.key (h w hw)

end part
end Redis
