import FuzzyChat.Controller.RedisShared

/-! The members in Redis, seeded by any number of controllers at once, and again whenever one starts
anew. -/

namespace FuzzyChat
open Interleave Redis RedisRepository

def lastRecord (uid : String) (members : List Member) : Option Member :=
  members.reverse.find? fun member => member.uid = uid

theorem lastRecord_append (uid : String) (members : List Member) (m : Member) :
    lastRecord uid (members ++ [m]) = if m.uid = uid then some m else lastRecord uid members := by
  rw [lastRecord, List.reverse_append, List.reverse_singleton, List.singleton_append,
    List.find?_cons]
  by_cases h : m.uid = uid <;> simp [h, lastRecord]

theorem lastRecord_eq_some {uid : String} {members : List Member} {m : Member}
    (h : lastRecord uid members = some m) : m ∈ members ∧ m.uid = uid :=
  ⟨List.mem_reverse.mp (List.mem_of_find?_eq_some h), by simpa using List.find?_some h⟩

section
variable {Text : Type} (json : RedisJson Text)

def HoldsMembers (s : Redis.Store Text) (t : Table String Member) : Prop :=
  ∃ fields : Table String Text,
    (s.lookup MEMBER_KEY = some ⟨.hash fields, none⟩ ∨ s.lookup MEMBER_KEY = none ∧ fields = ∅) ∧
      ∀ uid, fields.lookup uid = (t.lookup uid).map json.members.toString

variable {json} {s : Redis.Store Text} {t : Table String Member}

theorem HoldsMembers.isHash (h : HoldsMembers json s t) : s.IsHash MEMBER_KEY := by
  obtain ⟨fields, hs | ⟨hs, -⟩, -⟩ := h
  · intro e he
    rw [hs] at he
    cases he
    exact ⟨fields, rfl⟩
  · intro e he
    rw [hs] at he
    contradiction

theorem HoldsMembers.fields (h : HoldsMembers json s t) (now : Nat) (uid : String) :
    (s.fields now MEMBER_KEY).lookup uid = (t.lookup uid).map json.members.toString := by
  obtain ⟨fields, hs | ⟨hs, rfl⟩, hfields⟩ := h
  · rw [Store.fields_of_lookup hs]
    exact hfields uid
  · rw [Store.fields_of_lookup_none hs]
    exact hfields uid

theorem HoldsMembers.get (h : HoldsMembers json s t) (now : Nat) (uid : String) :
    getMember json.members now uid s = some (t.lookup uid) := by
  rw [getMember, Store.hget_eq_fields h.isHash, h.fields]
  cases t.lookup uid with
  | none => rfl
  | some m => rw [Option.map_some, fromRedisValue, json.members.fromStr_toString, Option.map_some]

theorem HoldsMembers.set (h : HoldsMembers json s t) (now : Nat) (m : Member) :
    ∃ s', s.hset now MEMBER_KEY m.uid (json.members.toString m) = some s' ∧
      HoldsMembers json s' (MemberManager.setMember m t) := by
  have hlookup : ∀ fields : Table String Text,
      (∀ uid, fields.lookup uid = (t.lookup uid).map json.members.toString) → ∀ uid,
        (fields.insert m.uid (json.members.toString m)).lookup uid =
          ((MemberManager.setMember m t).lookup uid).map json.members.toString := by
    intro fields hfields uid
    rw [MemberManager.setMember, AList.lookup_insert_eq_ite, AList.lookup_insert_eq_ite]
    split_ifs
    · rfl
    · exact hfields uid
  obtain ⟨fields, hs | ⟨hs, rfl⟩, hfields⟩ := h
  · refine ⟨_, ?_, fields.insert m.uid (json.members.toString m),
      .inl (AList.lookup_insert s), hlookup fields hfields⟩
    rw [Store.hset, Store.live, hs]
    rfl
  · refine ⟨_, ?_, (∅ : Table String Text).insert m.uid (json.members.toString m),
      .inl (AList.lookup_insert s), hlookup ∅ hfields⟩
    rw [Store.hset, Store.live_of_lookup_none hs]

abbrev seedingProg (json : RedisJson Text) (rest : List Member) : Sends Text RedisAnswer :=
  RedisAnswer.member <$> MemberCall.setting json rest

theorem seedingProg_cons (json : RedisJson Text) (m : Member) (rest : List Member) :
    seedingProg json (m :: rest) =
      .call (.write [.hset MEMBER_KEY m.uid (json.members.toString m)])
        fun done => RedisAnswer.member <$>
          (done.elim (.ret .panic) fun _ => MemberCall.setting json rest) := rfl

theorem seedingProg_injective : Function.Injective (seedingProg json) := by
  intro rest rest' h
  induction rest generalizing rest' with
  | nil =>
    cases rest' with
    | nil => rfl
    | cons m' rest' => contradiction
  | cons m rest ih =>
    cases rest' with
    | nil => contradiction
    | cons m' rest' =>
      rw [seedingProg_cons, seedingProg_cons] at h
      obtain ⟨hcmd, hk⟩ := Prog.call.inj h
      obtain rfl : m = m' := by
        simp only [Command.write.injEq, List.cons.injEq, Write.hset.injEq] at hcmd
        exact json.members.toString_injective hcmd.1.2.2
      rw [ih (congrFun (eq_of_heq hk) (some ()))]

def IsFile (q : Pool (redisCalls json)) (ms : List Member) : Prop :=
  ∃ records, RedisCall.member (.seedMembersFromCsv records) ∈ q.tasks.map Prod.fst ∧
    MemberManager.readMembersFromCsv records = some ms

def IsSeeded (q : Pool (redisCalls json)) (m : Member) : Prop := ∃ ms, IsFile q ms ∧ m ∈ ms

/-- The seedings whose files can be read have set some of their members each, one after the other,
and the table is what they have come to. -/
structure Seeding (q : Pool (redisCalls json)) (t : Table String Member) : Prop where
  holds : HoldsMembers json q.state.store t
  rejected : ∀ (i : Nat) records pr,
    q.tasks[i]? = some (RedisCall.member (.seedMembersFromCsv records), pr) →
      MemberManager.readMembersFromCsv records = none → pr = .ret (.member .panic)
  setting : ∀ (i : Nat) records ms pr,
    q.tasks[i]? = some (RedisCall.member (.seedMembersFromCsv records), pr) →
      MemberManager.readMembersFromCsv records = some ms →
        ∃ done rest, ms = done ++ rest ∧ pr = seedingProg json rest ∧
          ∀ m ∈ done, (t.lookup m.uid).isSome = true
  reading : ∀ (i : Nat) uid pr, q.tasks[i]? = some (RedisCall.member (.getMember uid), pr) →
    pr = RedisCall.program json (.member (.getMember uid)) ∨
      ∃ found : Option Member, pr = .ret (.member (.member found)) ∧
        ∀ m ∈ found, m.uid = uid ∧ IsSeeded q m
  source : ∀ uid m, t.lookup uid = some m → ∃ (i : Nat) (records : List (Option (List String)))
    (done rest : List Member), q.tasks[i]? =
        some (RedisCall.member (.seedMembersFromCsv records), seedingProg json rest) ∧
      MemberManager.readMembersFromCsv records = some (done ++ rest) ∧
      lastRecord uid done = some m

theorem seeding_start : Seeding (Pool.start RedisRun.start : Pool (redisCalls json)) ∅ where
  holds := ⟨∅, .inr ⟨rfl, rfl⟩, fun _ => rfl⟩
  rejected := by
    intro i records pr h
    contradiction
  setting := by
    intro i records ms pr h
    contradiction
  reading := by
    intro i uid pr h
    contradiction
  source := by
    intro uid m h
    rw [AList.lookup_empty] at h
    contradiction

section step
variable {q : Pool (redisCalls json)} {t : Table String Member}

theorem IsSeeded.accept {m : Member} (h : IsSeeded q m) (call : RedisCall) :
    IsSeeded (q.accept call) m := by
  obtain ⟨ms, ⟨records, hjob, hread⟩, hmem⟩ := h
  refine ⟨ms, ⟨records, ?_, hread⟩, hmem⟩
  rw [Pool.accept, List.map_append]
  exact List.mem_append_left _ hjob

theorem Seeding.accept (h : Seeding q t) (call : MemberCall) :
    Seeding (q.accept (.member call)) t where
  holds := h.holds
  rejected := by
    intro i records pr hi hread
    rcases Pool.tasks_accept.mp hi with hold | ⟨-, hnew⟩
    · exact h.rejected i records pr hold hread
    · cases hnew
      show RedisAnswer.member <$> (MemberManager.readMembersFromCsv records).elim _ _ = _
      rw [hread]
      rfl
  setting := by
    intro i records ms pr hi hread
    rcases Pool.tasks_accept.mp hi with hold | ⟨-, hnew⟩
    · exact h.setting i records ms pr hold hread
    · cases hnew
      refine ⟨[], ms, rfl, ?_, fun m hm => by contradiction⟩
      show RedisAnswer.member <$> (MemberManager.readMembersFromCsv records).elim _ _ = _
      rw [hread]
      rfl
  reading := by
    intro i uid pr hi
    rcases Pool.tasks_accept.mp hi with hold | ⟨-, hnew⟩
    · refine (h.reading i uid pr hold).imp_right ?_
      rintro ⟨found, rfl, hfound⟩
      exact ⟨found, rfl, fun m hm => ⟨(hfound m hm).1, (hfound m hm).2.accept _⟩⟩
    · cases hnew
      exact .inl rfl
  source := by
    intro uid m hm
    obtain ⟨i, records, done, rest, hi, hlast⟩ := h.source uid m hm
    exact ⟨i, records, done, rest, Pool.tasks_accept.mpr (.inl hi), hlast⟩

theorem Seeding.of_lookup (h : Seeding q t) {uid : String} {m : Member}
    (hm : t.lookup uid = some m) : m.uid = uid ∧ IsSeeded q m := by
  obtain ⟨i, records, done, rest, hi, hread, hlast⟩ := h.source uid m hm
  obtain ⟨hmem, huid⟩ := lastRecord_eq_some hlast
  refine ⟨huid, done ++ rest, ⟨records, ?_, hread⟩, List.mem_append_left _ hmem⟩
  exact List.mem_map.mpr ⟨_, List.mem_of_getElem? hi, rfl⟩

theorem IsSeeded.congr {q' : Pool (redisCalls json)} {m : Member} (h : IsSeeded q m)
    (hjobs : q'.tasks.map Prod.fst = q.tasks.map Prod.fst) : IsSeeded q' m := by
  obtain ⟨ms, ⟨records, hjob, hread⟩, hmem⟩ := h
  refine ⟨ms, ⟨records, ?_, hread⟩, hmem⟩
  rw [hjobs]
  exact hjob

section advance
variable {i : Nat} {call : RedisCall} {cmd : Command Text} {k : cmd.Res → Sends Text RedisAnswer}
  {answer : cmd.Res} {r : RedisRun Text}

theorem jobs_advance (ht : q.tasks[i]? = some (call, .call cmd k)) (answer : cmd.Res)
    (r : RedisRun Text) :
    (q.advance i call cmd k answer r).tasks.map Prod.fst = q.tasks.map Prod.fst :=
  congrArg Hist.jobs (Pool.hist_advance ht answer r)

theorem Seeding.advance_set (h : Seeding q t) {records : List (Option (List String))}
    {done rest : List Member} {m : Member}
    (ht : q.tasks[i]? = some (.member (.seedMembersFromCsv records), .call cmd k))
    (hread : MemberManager.readMembersFromCsv records = some (done ++ m :: rest))
    (hk : k answer = seedingProg json rest)
    (hpr : Prog.call cmd k = seedingProg json (m :: rest))
    (hdone : ∀ m ∈ done, (t.lookup m.uid).isSome = true)
    (hr : HoldsMembers json r.store (MemberManager.setMember m t)) :
    Seeding (q.advance i (.member (.seedMembersFromCsv records)) cmd k answer r)
      (MemberManager.setMember m t) := by
  have hset : ∀ uid, (MemberManager.setMember m t).lookup uid =
      if uid = m.uid then some m else t.lookup uid := fun uid => AList.lookup_insert_eq_ite ..
  have hmore : ∀ uid, (t.lookup uid).isSome = true →
      ((MemberManager.setMember m t).lookup uid).isSome = true := by
    intro uid huid
    rw [hset]
    split_ifs
    · rfl
    · exact huid
  constructor
  case holds => exact hr
  case rejected =>
    intro i' records' pr hi' hread'
    rcases (Pool.tasks_advance ht).mp hi' with ⟨rfl, hnew⟩ | ⟨-, hold⟩
    · cases hnew
      rw [hread] at hread'
      contradiction
    · exact h.rejected i' records' pr hold hread'
  case setting =>
    intro i' records' ms pr hi' hread'
    rcases (Pool.tasks_advance ht).mp hi' with ⟨rfl, hnew⟩ | ⟨-, hold⟩
    · cases hnew
      rw [hread] at hread'
      cases hread'
      refine ⟨done ++ [m], rest, by simp, hk, fun m' hm' => ?_⟩
      rcases List.mem_append.mp hm' with hold | hlast
      · exact hmore _ (hdone m' hold)
      · rw [hset, List.mem_singleton.mp hlast, if_pos rfl]
        rfl
    · obtain ⟨done', rest', rfl, hpr', hdone'⟩ := h.setting i' records' ms pr hold hread'
      exact ⟨done', rest', rfl, hpr', fun m' hm' => hmore _ (hdone' m' hm')⟩
  case reading =>
    intro i' uid pr hi'
    rcases (Pool.tasks_advance ht).mp hi' with ⟨rfl, hnew⟩ | ⟨-, hold⟩
    · cases hnew
    · refine (h.reading i' uid pr hold).imp_right ?_
      rintro ⟨found, rfl, hfound⟩
      exact ⟨found, rfl, fun m hm =>
        ⟨(hfound m hm).1, (hfound m hm).2.congr (jobs_advance ht answer r)⟩⟩
  case source =>
    intro uid m' hm'
    rw [hset] at hm'
    split_ifs at hm' with huid
    · -- it is the one that has just been set
      cases hm'
      refine ⟨i, records, done ++ [m], rest, (Pool.tasks_advance ht).mpr (.inl ⟨rfl, ?_⟩), ?_, ?_⟩
      · rw [hk]
      · rw [hread, List.append_assoc, List.singleton_append]
      · rw [lastRecord_append, if_pos huid.symm]
    · obtain ⟨i', records', done', rest', hi', hread', hlast⟩ := h.source uid m' hm'
      by_cases hii : i' = i
      · -- the task that set it has gone on with a member of another uid
        subst hii
        obtain ⟨hcall, hprog⟩ := Prod.mk.inj (Option.some.inj (hi'.symm.trans ht))
        have hrest : rest' = m :: rest := seedingProg_injective (hprog.trans hpr)
        subst hrest
        cases hcall
        have hd : done' = done := by
          rw [hread] at hread'
          simpa using hread'.symm
        subst hd
        refine ⟨i', records, done' ++ [m], rest,
          (Pool.tasks_advance ht).mpr (.inl ⟨rfl, ?_⟩), ?_, ?_⟩
        · rw [hk]
        · rw [hread, List.append_assoc, List.singleton_append]
        · rw [lastRecord_append, if_neg fun he => huid he.symm]
          exact hlast
      · exact ⟨i', records', done', rest', (Pool.tasks_advance ht).mpr (.inr ⟨hii, hi'⟩), hread',
          hlast⟩

theorem Seeding.advance_get (h : Seeding q t) {uid : String}
    (ht : q.tasks[i]? = some (.member (.getMember uid), .call cmd k))
    (hk : k answer = .ret (.member (.member (t.lookup uid))))
    (hr : HoldsMembers json r.store t) :
    Seeding (q.advance i (.member (.getMember uid)) cmd k answer r) t := by
  constructor
  case holds => exact hr
  case rejected =>
    intro i' records pr hi' hread
    rcases (Pool.tasks_advance ht).mp hi' with ⟨rfl, hnew⟩ | ⟨-, hold⟩
    · cases hnew
    · exact h.rejected i' records pr hold hread
  case setting =>
    intro i' records ms pr hi' hread
    rcases (Pool.tasks_advance ht).mp hi' with ⟨rfl, hnew⟩ | ⟨-, hold⟩
    · cases hnew
    · exact h.setting i' records ms pr hold hread
  case reading =>
    intro i' uid' pr hi'
    rcases (Pool.tasks_advance ht).mp hi' with ⟨rfl, hnew⟩ | ⟨-, hold⟩
    · cases hnew
      refine .inr ⟨t.lookup uid, hk, fun m hm => ?_⟩
      obtain ⟨huid, hseeded⟩ := h.of_lookup hm
      exact ⟨huid, hseeded.congr (jobs_advance ht answer r)⟩
    · refine (h.reading i' uid' pr hold).imp_right ?_
      rintro ⟨found, rfl, hfound⟩
      exact ⟨found, rfl, fun m hm =>
        ⟨(hfound m hm).1, (hfound m hm).2.congr (jobs_advance ht answer r)⟩⟩
  case source =>
    intro uid' m' hm'
    obtain ⟨i', records, done, rest, hi', hlast⟩ := h.source uid' m' hm'
    refine ⟨i', records, done, rest, (Pool.tasks_advance ht).mpr (.inr ⟨?_, hi'⟩), hlast⟩
    rintro rfl
    rw [hi'] at ht
    cases ht

theorem Seeding.act (h : Seeding q t) {call : MemberCall} {cmd : Command Text}
    {k : cmd.Res → Sends Text RedisAnswer}
    (ht : q.tasks[i]? = some (.member call, .call cmd k)) (now : Nat) :
    ∃ t', Seeding (q.advance i (.member call) cmd k (cmd.exec now q.state.store).1
      ⟨(cmd.exec now q.state.store).2, now⟩) t' := by
  cases call with
  | seedMembersFromCsv records =>
    cases hread : MemberManager.readMembersFromCsv records with
    | none =>
      have hret := h.rejected i records _ ht hread
      contradiction
    | some ms =>
      obtain ⟨done, rest, rfl, hpr, hdone⟩ := h.setting i records ms _ ht hread
      cases rest with
      | nil => contradiction
      | cons m rest =>
        have hprog := hpr
        rw [seedingProg_cons] at hpr
        cases hpr
        obtain ⟨s', hset, hholds⟩ := h.holds.set now m
        have hexec : (Command.write [.hset MEMBER_KEY m.uid (json.members.toString m)]).exec now
            q.state.store = (some (), s') := by
          simp only [Command.exec, Write.execAll, Write.exec, hset]
          rfl
        rw [hexec]
        exact ⟨_, h.advance_set ht hread rfl hprog hdone hholds⟩
  | getMember uid =>
    rcases h.reading i uid _ ht with hprog | ⟨found, hret, -⟩
    · cases hprog
      refine ⟨t, h.advance_get ht ?_ h.holds⟩
      have hget := h.holds.get now uid
      rw [getMember] at hget
      show Prog.ret (RedisAnswer.member ((fromRedisValue json.members
        (q.state.store.hget now MEMBER_KEY uid)).elim .panic .member)) = _
      rw [hget]
      rfl
    · contradiction

end advance
end step

theorem exists_seeding {q : Pool (redisCalls json)} (hq : Reachable RedisRun.start q)
    (hall : ∀ call ∈ q.tasks.map Prod.fst, RedisCall.repository call = .members) :
    ∃ t, Seeding q t := by
  induction hq with
  | start => exact ⟨∅, seeding_start⟩
  | @step q q' m hq hc hm ih =>
    rcases Pool.step_eq_some.mp hm with ⟨call, rfl, -, rfl⟩ |
      ⟨i, elapsed, call, cmd, k, answer, r, rfl, ht, hexec, rfl⟩
    · rw [Pool.accept, List.map_append] at hall
      obtain ⟨t, h⟩ := ih fun call hcall => hall call (List.mem_append_left _ hcall)
      have hcall := hall call (List.mem_append_right _ (List.mem_singleton_self _))
      cases call with
      | session op => contradiction
      | route op => contradiction
      | member call => exact ⟨t, h.accept call⟩
    · rw [jobs_advance ht answer r] at hall
      obtain ⟨t, h⟩ := ih hall
      have hcall := hall call (List.mem_map.mpr ⟨_, List.mem_of_getElem? ht, rfl⟩)
      cases hexec
      cases call with
      | session op => contradiction
      | route op => contradiction
      | member call => exact h.act ht _

/-- A seeding panics only over a record of fewer than two fields. Whoever is looked up meanwhile is
found by a record of one of the files, if at all; once all seedings are through, each uid has the
last record of a file that lists it, and whoever no file lists is not a member. -/
structure SeededFrom (p : Pool (redisCalls json)) : Prop where
  completes : ∀ i records answer,
    p.returned i = some (.member (.seedMembersFromCsv records), answer) →
      ((∃ item, some item ∈ records ∧ item.length < 2) → answer = .member .panic) ∧
        ((∀ item, some item ∈ records → 2 ≤ item.length) → answer = .member .done)
  found : ∀ i uid answer, p.returned i = some (.member (.getMember uid), answer) →
    ∃ found : Option Member, answer = .member (.member found) ∧
      ∀ m ∈ found, m.uid = uid ∧ IsSeeded p m
  last : (∀ records pr, (RedisCall.member (.seedMembersFromCsv records), pr) ∈ p.tasks →
      pr.result?.isSome = true) →
    ∀ now uid, ∃ found, getMember json.members now uid p.state.store = some found ∧
      (found = none ↔ ∀ m, IsSeeded p m → m.uid ≠ uid) ∧
      ∀ m ∈ found, ∃ ms, IsFile p ms ∧ lastRecord uid ms = some m

theorem seedingProg_eq_ret {rest : List Member} {answer : RedisAnswer}
    (h : .ret answer = seedingProg json rest) : rest = [] ∧ answer = .member .done := by
  cases rest with
  | nil =>
    cases h
    exact ⟨rfl, rfl⟩
  | cons m rest => contradiction

section apart
variable {p q : Pool (redisCalls json)} {t : Table String Member}

theorem mem_apart (htasks : q.tasks = p.tasksOf fun call : RedisCall => call.repository = .members)
    {call : MemberCall} {pr : Sends Text RedisAnswer} :
    (RedisCall.member call, pr) ∈ q.tasks ↔ (RedisCall.member call, pr) ∈ p.tasks := by
  rw [htasks, Pool.mem_tasksOf]
  exact and_iff_left rfl

theorem mem_jobs_apart
    (htasks : q.tasks = p.tasksOf fun call : RedisCall => call.repository = .members)
    {call : MemberCall} :
    RedisCall.member call ∈ q.tasks.map Prod.fst ↔ RedisCall.member call ∈ p.tasks.map Prod.fst := by
  simp only [List.mem_map, Prod.exists, exists_and_right, exists_eq_right]
  exact exists_congr fun pr => mem_apart htasks

theorem isFile_apart
    (htasks : q.tasks = p.tasksOf fun call : RedisCall => call.repository = .members)
    {ms : List Member} : IsFile q ms ↔ IsFile p ms :=
  exists_congr fun _ => and_congr_left' (mem_jobs_apart htasks)

theorem isSeeded_apart
    (htasks : q.tasks = p.tasksOf fun call : RedisCall => call.repository = .members) {m : Member} :
    IsSeeded q m ↔ IsSeeded p m :=
  exists_congr fun _ => and_congr_left' (isFile_apart htasks)

theorem Seeding.seeded (h : Seeding q t) {i : Nat} {records : List (Option (List String))}
    {answer : RedisAnswer} (hi : q.tasks[i]? =
      some (RedisCall.member (.seedMembersFromCsv records), .ret answer)) :
    ((∃ item, some item ∈ records ∧ item.length < 2) → answer = .member .panic) ∧
      ((∀ item, some item ∈ records → 2 ≤ item.length) → answer = .member .done) := by
  constructor
  · intro hshort
    have hread := MemberManager.readMembersFromCsv_eq_none.mpr hshort
    have hret := h.rejected i records _ hi hread
    cases hret
    rfl
  · intro hlong
    cases hread : MemberManager.readMembersFromCsv records with
    | none =>
      obtain ⟨item, hitem, hshort⟩ := MemberManager.readMembersFromCsv_eq_none.mp hread
      have hlength := hlong item hitem
      omega
    | some ms =>
      obtain ⟨done, rest, -, hret, -⟩ := h.setting i records ms _ hi hread
      exact (seedingProg_eq_ret hret).2

theorem Seeding.ends (h : Seeding q t) (hends : ∀ records pr,
    (RedisCall.member (.seedMembersFromCsv records), pr) ∈ q.tasks → pr.result?.isSome = true)
    (uid : String) :
    (t.lookup uid = none ↔ ∀ m, IsSeeded q m → m.uid ≠ uid) ∧
      ∀ m ∈ t.lookup uid, ∃ ms, IsFile q ms ∧ lastRecord uid ms = some m := by
  have hnil : ∀ rest : List Member, (seedingProg json rest).result?.isSome = true → rest = [] := by
    intro rest hrest
    cases rest with
    | nil => rfl
    | cons m rest => contradiction
  refine ⟨⟨?_, ?_⟩, ?_⟩
  · rintro hnone m ⟨ms, ⟨records, hjob, hread⟩, hmem⟩ rfl
    obtain ⟨⟨call, pr⟩, hpr, rfl⟩ := List.mem_map.mp hjob
    obtain ⟨i, hi⟩ := List.getElem?_of_mem hpr
    obtain ⟨done, rest, rfl, rfl, hdone⟩ := h.setting i records ms pr hi hread
    have hrest := hnil rest (hends _ _ hpr)
    rw [hrest, List.append_nil] at hmem
    have hsome := hdone m hmem
    rw [hnone] at hsome
    contradiction
  · intro hall
    rw [Option.eq_none_iff_forall_ne_some]
    intro m hm
    obtain ⟨huid, hseeded⟩ := h.of_lookup hm
    exact hall m hseeded huid
  · intro m hm
    obtain ⟨i, records, done, rest, hi, hread, hlast⟩ := h.source uid m hm
    have hmem := List.mem_of_getElem? hi
    have hrest := hnil rest (hends _ _ hmem)
    rw [hrest, List.append_nil] at hread
    exact ⟨done, ⟨records, List.mem_map.mpr ⟨_, hmem, rfl⟩, hread⟩, hlast⟩

end apart

/-- Whatever else controllers do with the database at the same time. -/
theorem seeded_from_files {p : Pool (redisCalls json)} (hp : Reachable RedisRun.start p) :
    SeededFrom p := by
  have hsees : Repository.members.Sees (RedisRun.start : RedisRun Text) RedisRun.start :=
    ⟨rfl, le_rfl⟩
  obtain ⟨q, hq, htasks, hstore, -⟩ := hp.apart Repository.members.apart hsees
  obtain ⟨t, h⟩ := exists_seeding hq (by
    intro call hcall
    obtain ⟨task, htask, rfl⟩ := List.mem_map.mp hcall
    rw [htasks] at htask
    exact (Pool.mem_tasksOf.mp htask).2)
  constructor
  case completes =>
    intro i records answer hi
    have hmem := (mem_apart htasks).mpr (List.mem_of_getElem? (Pool.returned_eq_some.mp hi))
    obtain ⟨i', hi'⟩ := List.getElem?_of_mem hmem
    exact h.seeded hi'
  case found =>
    intro i uid answer hi
    have hmem := (mem_apart htasks).mpr (List.mem_of_getElem? (Pool.returned_eq_some.mp hi))
    obtain ⟨i', hi'⟩ := List.getElem?_of_mem hmem
    rcases h.reading i' uid _ hi' with hcall | ⟨found, hret, hfound⟩
    · contradiction
    · cases hret
      exact ⟨found, rfl, fun m hm => (hfound m hm).imp_right (isSeeded_apart htasks).mp⟩
  case last =>
    intro hends now uid
    obtain ⟨hnone, hsome⟩ := h.ends (fun _ pr hmem => hends _ pr ((mem_apart htasks).mp hmem)) uid
    refine ⟨t.lookup uid, ?_, hnone.trans ?_, fun m hm => ?_⟩
    · have hget := h.holds.get now uid
      rw [hstore, getMember, Store.part_hget RedisCall.members_owns] at hget
      exact hget
    · exact forall_congr' fun m => imp_congr_left (isSeeded_apart htasks)
    · obtain ⟨ms, hfile, hlast⟩ := hsome m hm
      exact ⟨ms, (isFile_apart htasks).mp hfile, hlast⟩

end

theorem seeded_from_files_sample : ∃ p : PlainPool,
    p.returned 0 =
      some (.member (.seedMembersFromCsv [some ["alice", "a"], some ["bob", "b"]]), .member .done) ∧
      p.returned 2 = some (.member (.seedMembersFromCsv [some ["carol"]]), .member .panic) ∧
      getMember plainJson.members 100 "bob" p.state.store = some (some ⟨"bob", "b"⟩) ∧
      SeededFrom p := by
  obtain ⟨p, hrun, hends⟩ : ∃ p, (Pool.start RedisRun.start : PlainPool).run
      [.spawn (.member (.seedMembersFromCsv [some ["alice", "a"], some ["bob", "b"]])),
        .spawn (.member (.seedMembersFromCsv [some ["bob", "c"]])),
        .spawn (.member (.seedMembersFromCsv [some ["carol"]])),
        .act 0 10, .act 1 10, .act 0 10] = some p ∧
      (p.returned 0, p.returned 2, getMember plainJson.members 100 "bob" p.state.store) =
        (some (.member (.seedMembersFromCsv [some ["alice", "a"], some ["bob", "b"]]),
            .member .done),
          some (.member (.seedMembersFromCsv [some ["carol"]]), .member .panic),
          some (some ⟨"bob", "b"⟩)) := exists_run (by rfl)
  simp only [Prod.mk.injEq] at hends
  obtain ⟨hdone, hpanic, hbob⟩ := hends
  exact ⟨p, hdone, hpanic, hbob, seeded_from_files (Reachable.of_run hrun)⟩

end FuzzyChat
