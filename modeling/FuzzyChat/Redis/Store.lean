import FuzzyChat.Table

/-! A Redis database as a map of keys to strings and hashes that may expire. Each command is a
function of the clock, in milliseconds; `none` is the error on a key of the other kind. -/

namespace Redis

inductive Value (V : Type) where
  | string (v : V)
  | hash (fields : Table String V)

structure Entry (V : Type) where
  value : Value V
  expiresAt : Option Nat

abbrev Store (V : Type) := Table String (Entry V)

variable {V : Type}

/-- A key expires once the clock is past its time. -/
def Entry.alive (now : Nat) (e : Entry V) : Bool := e.expiresAt.all fun t => decide (now ≤ t)

namespace Store

def live (now : Nat) (key : String) (s : Store V) : Option (Entry V) :=
  (s.lookup key).filter (Entry.alive now)

def get (now : Nat) (key : String) (s : Store V) : Option (Option V) :=
  match s.live now key with
  | none => some none
  | some ⟨.string v, _⟩ => some (some v)
  | some ⟨.hash _, _⟩ => none

def setEx (now : Nat) (key : String) (v : V) (seconds : Nat) (s : Store V) : Store V :=
  s.insert key ⟨.string v, some (now + 1000 * seconds)⟩

def getEx (now : Nat) (key : String) (seconds : Nat) (s : Store V) : Option (Option V) × Store V :=
  match s.live now key with
  | none => (some none, s)
  | some ⟨.string v, _⟩ => (some (some v), s.setEx now key v seconds)
  | some ⟨.hash _, _⟩ => (none, s)

/-- The keys with the prefix. A `SCAN` followed to its end, a loop of commands, is taken for one
that lists each of them once, in no particular order. -/
def scan (now : Nat) (pre : String) (s : Store V) : List String :=
  s.keys.filter fun key => pre.toList.isPrefixOf key.toList && (s.live now key).isSome

def del (key : String) (s : Store V) : Store V := s.erase key

def hget (now : Nat) (key field : String) (s : Store V) : Option (Option V) :=
  match s.live now key with
  | none => some none
  | some ⟨.hash fields, _⟩ => some (fields.lookup field)
  | some ⟨.string _, _⟩ => none

/-- A new hash does not expire, and one that is there expires when it did. -/
def hset (now : Nat) (key field : String) (v : V) (s : Store V) : Option (Store V) :=
  match s.live now key with
  | none => some (s.insert key ⟨.hash ((∅ : Table String V).insert field v), none⟩)
  | some ⟨.hash fields, t⟩ => some (s.insert key ⟨.hash (fields.insert field v), t⟩)
  | some ⟨.string _, _⟩ => none

/-- A hash that is left with no field is gone. -/
def hdel (now : Nat) (key field : String) (s : Store V) : Option (Store V) :=
  match s.live now key with
  | none => some s
  | some ⟨.hash fields, t⟩ =>
    if (fields.erase field).entries.isEmpty then some (s.erase key)
    else some (s.insert key ⟨.hash (fields.erase field), t⟩)
  | some ⟨.string _, _⟩ => none

def expire (now : Nat) (key : String) (seconds : Nat) (s : Store V) : Store V :=
  match s.live now key with
  | none => s
  | some e => s.insert key { e with expiresAt := some (now + 1000 * seconds) }

variable {now : Nat} {key : String} {s : Store V}

theorem live_eq_some {e : Entry V} (h : s.live now key = some e) : s.lookup key = some e :=
  (Option.filter_eq_some_iff.mp h).1

theorem live_eq_some_iff {e : Entry V} :
    s.live now key = some e ↔ s.lookup key = some e ∧ e.alive now = true :=
  Option.filter_eq_some_iff

theorem live_congr {s' : Store V} (h : s'.lookup key = s.lookup key) :
    s'.live now key = s.live now key := by
  rw [live, h, live]

theorem live_timed {v : Value V} {t : Nat} (h : s.lookup key = some ⟨v, some t⟩) :
    s.live now key = if now ≤ t then some ⟨v, some t⟩ else none := by
  rw [live, h, Option.filter_some, Entry.alive, Option.all_some]
  simp only [decide_eq_true_eq]

theorem live_mono {now' : Nat} (hnow : now ≤ now') {e : Entry V} (h : s.live now' key = some e) :
    s.live now key = some e := by
  obtain ⟨hlookup, halive⟩ := live_eq_some_iff.mp h
  refine live_eq_some_iff.mpr ⟨hlookup, ?_⟩
  cases ht : e.expiresAt with
  | none => simp [Entry.alive, ht]
  | some t =>
    simp only [Entry.alive, ht, Option.all_some, decide_eq_true_eq] at halive ⊢
    omega

theorem live_of_lookup_none (h : s.lookup key = none) : s.live now key = none := by
  rw [live, h, Option.filter_none]

theorem lookup_setEx (v : V) (seconds : Nat) (key' : String) :
    (s.setEx now key v seconds).lookup key' =
      if key' = key then some ⟨.string v, some (now + 1000 * seconds)⟩ else s.lookup key' :=
  AList.lookup_insert_eq_ite ..

theorem live_setEx (v : V) (seconds now' : Nat) (key' : String) :
    (s.setEx now key v seconds).live now' key' =
      if key' = key then
        if now' ≤ now + 1000 * seconds then some ⟨.string v, some (now + 1000 * seconds)⟩ else none
      else s.live now' key' := by
  by_cases hk : key' = key
  · rw [if_pos hk, live_timed ((lookup_setEx v seconds key').trans (if_pos hk))]
  · rw [if_neg hk, live_congr ((lookup_setEx v seconds key').trans (if_neg hk))]

theorem lookup_del (key' : String) :
    (s.del key).lookup key' = if key' = key then none else s.lookup key' :=
  AList.lookup_erase_eq_ite ..

theorem lookup_expire_ite (seconds : Nat) (key' : String) :
    (s.expire now key seconds).lookup key' =
      if key' = key ∧ (s.live now key).isSome then
        (s.lookup key).map fun e => { e with expiresAt := some (now + 1000 * seconds) }
      else s.lookup key' := by
  unfold expire
  cases h : s.live now key with
  | none => simp
  | some e =>
    simp only [AList.lookup_insert_eq_ite, Option.isSome_some, and_true]
    split_ifs
    · rw [live_eq_some h, Option.map_some]
    · rfl

theorem isPrefixOf_toList_iff {pre : String} :
    pre.toList.isPrefixOf key.toList = true ↔ ∃ rest, key = pre ++ rest := by
  rw [List.isPrefixOf_iff_prefix]
  constructor
  · rintro ⟨rest, hrest⟩
    refine ⟨String.ofList rest, ?_⟩
    rw [← String.toList_inj, String.toList_append, String.toList_ofList, hrest]
  · rintro ⟨rest, rfl⟩
    exact ⟨rest.toList, by rw [String.toList_append]⟩

theorem mem_scan {pre : String} :
    key ∈ s.scan now pre ↔ (∃ rest, key = pre ++ rest) ∧ (s.live now key).isSome = true := by
  rw [scan, List.mem_filter, Bool.and_eq_true, isPrefixOf_toList_iff]
  constructor
  · rintro ⟨-, hpre, hlive⟩
    exact ⟨hpre, hlive⟩
  · rintro ⟨hpre, hlive⟩
    obtain ⟨e, he⟩ := Option.isSome_iff_exists.mp hlive
    exact ⟨AList.mem_keys.mp (AList.lookup_isSome.mp (by rw [live_eq_some he]; rfl)), hpre, hlive⟩

theorem nodup_scan (pre : String) : (s.scan now pre).Nodup := s.keys_nodup.filter _

theorem hget_eq_some {field : String} {v : V} (h : s.hget now key field = some (some v)) :
    ∃ fields t, s.lookup key = some ⟨.hash fields, t⟩ ∧ fields.lookup field = some v := by
  unfold hget at h
  split at h
  · nomatch h
  · rename_i fields t hl
    exact ⟨fields, t, live_eq_some hl, Option.some.inj h⟩
  · nomatch h

theorem hdel_of_lookup_none {field : String} (h : s.lookup key = none) :
    s.hdel now key field = some s := by
  rw [hdel, live_of_lookup_none h]

theorem lookup_hset {field : String} {v : V} {s' : Store V} (h : s.hset now key field v = some s')
    {key' : String} {e : Entry V} (he : s'.lookup key' = some e) :
    s.lookup key' = some e ∨ key' = key ∧ ∃ fields,
      (fields = ∅ ∨ ∃ t, s.lookup key = some ⟨.hash fields, t⟩) ∧
        e.value = .hash (fields.insert field v) := by
  unfold hset at h
  split at h
  · cases h
    rcases AList.lookup_insert_eq_some.mp he with ⟨rfl, rfl⟩ | ⟨-, he⟩
    · exact .inr ⟨rfl, ∅, .inl rfl, rfl⟩
    · exact .inl he
  · rename_i fields t hl
    cases h
    rcases AList.lookup_insert_eq_some.mp he with ⟨rfl, rfl⟩ | ⟨-, he⟩
    · exact .inr ⟨rfl, fields, .inr ⟨t, live_eq_some hl⟩, rfl⟩
    · exact .inl he
  · nomatch h

theorem lookup_hdel {field : String} {s' : Store V} (h : s.hdel now key field = some s')
    {key' : String} {e : Entry V} (he : s'.lookup key' = some e) :
    s.lookup key' = some e ∨ key' = key ∧ ∃ fields t,
      s.lookup key = some ⟨.hash fields, t⟩ ∧ e.value = .hash (fields.erase field) := by
  unfold hdel at h
  split at h
  · cases h
    exact .inl he
  · rename_i fields t hl
    split_ifs at h
    · cases h
      exact .inl (AList.lookup_erase_eq_some.mp he).2
    · cases h
      rcases AList.lookup_insert_eq_some.mp he with ⟨rfl, rfl⟩ | ⟨-, he⟩
      · exact .inr ⟨rfl, fields, t, live_eq_some hl, rfl⟩
      · exact .inl he
  · nomatch h

theorem lookup_expire {seconds : Nat} {key' : String} {e : Entry V}
    (he : (s.expire now key seconds).lookup key' = some e) :
    ∃ e₀, s.lookup key' = some e₀ ∧ e₀.value = e.value := by
  unfold expire at he
  split at he
  · exact ⟨e, he, rfl⟩
  · rename_i e₀ hl
    rcases AList.lookup_insert_eq_some.mp he with ⟨rfl, rfl⟩ | ⟨-, he⟩
    · exact ⟨e₀, live_eq_some hl, rfl⟩
    · exact ⟨e, he, rfl⟩

/-! Keys that hold hashes, if anything. -/

def IsHash (key : String) (s : Store V) : Prop :=
  ∀ e, s.lookup key = some e → ∃ fields, e.value = .hash fields

def fields (now : Nat) (key : String) (s : Store V) : Table String V :=
  match s.live now key with
  | some ⟨.hash fields, _⟩ => fields
  | _ => ∅

theorem hget_eq_fields (h : IsHash key s) (field : String) :
    s.hget now key field = some ((s.fields now key).lookup field) := by
  unfold hget fields
  cases hl : s.live now key with
  | none => rfl
  | some e =>
    obtain ⟨fields, hv⟩ := h e (live_eq_some hl)
    obtain ⟨v, t⟩ := e
    cases hv
    rfl

theorem hset_eq_some (h : IsHash key s) (now : Nat) (field : String) (v : V) :
    ∃ t, s.hset now key field v =
        some (s.insert key ⟨.hash ((s.fields now key).insert field v), t⟩) ∧
      t.all (fun t => decide (now ≤ t)) = true := by
  unfold hset fields
  cases hl : s.live now key with
  | none => exact ⟨none, rfl, rfl⟩
  | some e =>
    obtain ⟨hlookup, halive⟩ := live_eq_some_iff.mp hl
    obtain ⟨fields, hv⟩ := h e hlookup
    obtain ⟨w, t⟩ := e
    cases hv
    exact ⟨t, rfl, halive⟩

theorem lookup_hset_expire (h : IsHash key s) (now : Nat) (field : String) (v : V) (seconds : Nat) :
    ∃ s', s.hset now key field v = some s' ∧ ∀ key',
      (s'.expire now key seconds).lookup key' =
        if key' = key then
          some ⟨.hash ((s.fields now key).insert field v), some (now + 1000 * seconds)⟩
        else s.lookup key' := by
  obtain ⟨t, hset, halive⟩ := hset_eq_some h now field v
  refine ⟨_, hset, fun key' => ?_⟩
  have hlive : (Store.live now key
      (s.insert key ⟨.hash ((s.fields now key).insert field v), t⟩)).isSome = true := by
    rw [live, AList.lookup_insert, Option.filter_some, Entry.alive, if_pos halive]
    rfl
  rw [lookup_expire_ite, AList.lookup_insert, AList.lookup_insert_eq_ite]
  by_cases hk : key' = key
  · rw [if_pos ⟨hk, hlive⟩, if_pos hk]
    rfl
  · rw [if_neg fun hx => hk hx.1, if_neg hk, if_neg hk]

theorem lookup_hdel_ne {field : String} {s' : Store V} (h : s.hdel now key field = some s')
    {key' : String} (hne : key' ≠ key) : s'.lookup key' = s.lookup key' := by
  unfold hdel at h
  split at h
  · cases h
    rfl
  · split_ifs at h
    · cases h
      exact AList.lookup_erase_ne hne
    · cases h
      exact AList.lookup_insert_ne hne
  · nomatch h

theorem fields_congr {s' : Store V} (h : s'.lookup key = s.lookup key) :
    s'.fields now key = s.fields now key := by
  rw [fields, live_congr h, fields]

theorem fields_of_lookup_none (h : s.lookup key = none) : s.fields now key = ∅ := by
  rw [fields, live_of_lookup_none h]

theorem fields_of_lookup {fields : Table String V} {t : Option Nat}
    (h : s.lookup key = some ⟨.hash fields, t⟩) :
    s.fields now key = if t.all (fun t => decide (now ≤ t)) = true then fields else ∅ := by
  rw [Store.fields, live, h, Option.filter_some, Entry.alive]
  split_ifs <;> rfl

theorem fields_hdel (hhash : IsHash key s) {field : String} {s' : Store V}
    (h : s.hdel now key field = some s') {now' : Nat} (hnow : now ≤ now') (field' : String) :
    (s'.fields now' key).lookup field' =
      if field' = field then none else (s.fields now' key).lookup field' := by
  cases hl : s.live now key with
  | none =>
    rw [hdel, hl] at h
    cases h
    -- a hash that has expired does not come back
    have hnone : s.live now' key = none := by
      rw [Option.eq_none_iff_forall_ne_some]
      intro e he
      rw [live_mono hnow he] at hl
      nomatch hl
    have hempty : s.fields now' key = ∅ := by rw [Store.fields, hnone]
    rw [hempty, AList.lookup_empty, ite_self]
  | some e =>
    have hlookup := live_eq_some hl
    obtain ⟨fields, hv⟩ := hhash e hlookup
    obtain ⟨w, t⟩ := e
    cases hv
    have hrest : ∀ field', (fields.erase field).lookup field' =
        if field' = field then none else fields.lookup field' :=
      fun field' => AList.lookup_erase_eq_ite ..
    simp only [hdel, hl] at h
    split_ifs at h with hnil
    · -- it was the only field, and the hash is gone with it
      cases h
      have hnone : (fields.erase field).lookup field' = none := by
        rw [Option.eq_none_iff_forall_ne_some]
        intro v hmem
        have hmem := AList.mem_entries_iff.mpr hmem
        rw [List.isEmpty_iff.mp hnil] at hmem
        nomatch hmem
      rw [fields_of_lookup_none (AList.lookup_erase ..), fields_of_lookup hlookup, AList.lookup_empty]
      split_ifs with hfield halive
      · rfl
      · rw [hrest, if_neg hfield] at hnone
        exact hnone.symm
      · rfl
    · cases h
      rw [fields_of_lookup (AList.lookup_insert _), fields_of_lookup hlookup]
      by_cases halive : t.all (fun t => decide (now' ≤ t)) = true
      · rw [if_pos halive, if_pos halive]
        exact hrest field'
      · rw [if_neg halive, if_neg halive, AList.lookup_empty, ite_self]

theorem hdel_isSome (h : IsHash key s) (now : Nat) (field : String) :
    (s.hdel now key field).isSome := by
  unfold hdel
  cases hl : s.live now key with
  | none => rfl
  | some e =>
    obtain ⟨fields, hv⟩ := h e (live_eq_some hl)
    obtain ⟨w, t⟩ := e
    cases hv
    dsimp only
    split_ifs <;> rfl

end Store
end Redis
