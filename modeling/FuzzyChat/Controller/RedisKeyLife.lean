import FuzzyChat.Controller.RedisShared
import FuzzyChat.Redis.Lifetime

/-! How long an access key is good for in Redis, whatever controllers do at the same time. -/

namespace FuzzyChat
open Interleave Redis RedisRepository

section
variable {Text : Type} {json : RedisJson Text}

/-- The command keeps the session of the access key as the repository does: for so long, and under
its own key. -/
structure KeepsSession (json : RedisJson Text) (k : String) (cmd : Command Text) : Prop where
  leases : cmd.Leases (getSessionKey k) EXPIRY_TIME
  sets : ∀ text, cmd.access (getSessionKey k) = some (.set text) → ∃ (info : SessionInfo)
    (c : Component), text = json.infos.toString info ∧ info.accessKey = k ∧
      info.componentType = c.toU8

theorem keepsSession_of_get (k key : String) : KeepsSession json k (.get key) :=
  ⟨trivial, fun _ h => by contradiction⟩

theorem keepsSession_of_within {r : Repository} (hr : r ≠ .sessions) (k : String)
    {cmd : Command Text} (h : cmd.Within r.owns) : KeepsSession json k cmd := by
  have hk : r.owns (getSessionKey k) = false :=
    Repository.owns_other (Ne.symm hr) (RedisCall.sessions_owns k)
  refine ⟨Store.leases_of_within h hk, fun text hset => ?_⟩
  rw [Store.access_of_within h hk] at hset
  contradiction

theorem keepsSession_listing (k accessKey : String) (proxies : List SessionInfo)
    (all : List String) :
    (SessionOp.listing json accessKey proxies all).All fun cmd _ => KeepsSession json k cmd := by
  induction all generalizing proxies with
  | nil => trivial
  | cons key all ih =>
    refine ⟨keepsSession_of_get k key, fun value => ?_⟩
    dsimp only
    cases (fromRedisValue json.keys value).join with
    | none => trivial
    | some k' =>
      refine ⟨keepsSession_of_get k _, fun value => ?_⟩
      dsimp only
      cases (fromRedisValue json.infos value).join with
      | none => trivial
      | some session => exact ih _

theorem keepsSession_set (k : String) {info : SessionInfo} {c : Component}
    (hc : info.componentType = c.toU8) : KeepsSession json k
      (.write [.setEx (getMemberSessionKey c info.uid) (json.keys.toString info.accessKey)
          EXPIRY_TIME,
        .setEx (getSessionKey info.accessKey) (json.infos.toString info) EXPIRY_TIME]) := by
  have hmember : getMemberSessionKey c info.uid ≠ getSessionKey k :=
    Ne.symm (getSessionKey_ne k c info.uid)
  constructor
  case leases => simp [Command.Leases, Write.Leases]
  case sets =>
    intro text hset
    by_cases hk : info.accessKey = k
    · subst hk
      simp [Command.access, Write.access] at hset
      exact ⟨info, c, hset.symm, rfl, hc⟩
    · have hne : getSessionKey info.accessKey ≠ getSessionKey k := getSessionKey_injective.ne hk
      simp [Command.access, Write.access, hmember, hne] at hset

theorem keepsSession_op (k : String) (op : SessionOp) :
    (op.program json).All fun cmd _ => KeepsSession json k cmd := by
  cases op with
  | setSession info =>
    simp only [SessionOp.program]
    cases hc : Component.fromU8 info.componentType with
    | none => trivial
    | some c => exact ⟨keepsSession_set k (Component.toU8_of_fromU8 hc), fun _ => trivial⟩
  | getSession k' =>
    refine ⟨⟨fun _ => rfl, fun text hset => ?_⟩, fun value => ?_⟩
    · simp only [Command.access] at hset
      split_ifs at hset
      cases hset
    · simp only [SessionOp.renewing]
      cases fromRedisValue json.infos value with
      | none => trivial
      | some found =>
        cases found with
        | none => trivial
        | some info =>
          dsimp only
          cases Component.fromU8 info.componentType with
          | none => trivial
          | some c =>
            have hne : getMemberSessionKey c info.uid ≠ getSessionKey k :=
              Ne.symm (getSessionKey_ne k c info.uid)
            refine ⟨⟨?_, fun text hset => ?_⟩, fun _ => trivial⟩
            · simp [Command.Leases, Write.Leases, hne]
            · simp [Command.access, Write.access] at hset
  | removeSession k' =>
    refine ⟨⟨?_, fun text hset => ?_⟩, fun _ => trivial⟩
    · simp [Command.Leases, Write.Leases]
    · simp [Command.access, Write.access] at hset
  | getProxies k' =>
    refine ⟨⟨trivial, fun _ h => by contradiction⟩, fun all => ?_⟩
    simp only [SessionOp.listed]
    split_ifs
    · trivial
    · exact keepsSession_listing k k' [] _
  | getClient uid =>
    refine ⟨keepsSession_of_get k _, fun value => ?_⟩
    dsimp only
    cases (fromRedisValue json.keys value).join with
    | none => trivial
    | some k' => exact ⟨keepsSession_of_get k _, fun _ => trivial⟩
  | count c => exact ⟨⟨trivial, fun _ h => by contradiction⟩, fun _ => trivial⟩

theorem keepsSession_program (k : String) (call : RedisCall) :
    (call.program json).All fun cmd _ => KeepsSession json k cmd := by
  cases call with
  | session op => exact Prog.all_map _ (keepsSession_op k op)
  | route op =>
    refine (RedisCall.keeps_program (.route op)).imp fun cmd _ h => ?_
    exact keepsSession_of_within (r := .routes) (by decide) k h
  | member call =>
    refine (RedisCall.keeps_program (.member call)).imp fun cmd _ h => ?_
    exact keepsSession_of_within (r := .members) (by decide) k h

def timeline (now : Nat) : List (Event (redisCalls json)) → History Text
  | [] => []
  | e :: es => (now, e.op) :: timeline e.pre.now es

theorem timeline_head (now : Nat) (log : List (Event (redisCalls json))) :
    ∀ t ∈ ((timeline now log).map Prod.fst).head?, t = now := by
  cases log with
  | nil => exact fun t ht => by contradiction
  | cons e es =>
    rintro t ht
    cases ht
    rfl

/-- Time goes on, the database has of the session what the commands have made of it, and that is a
session under its own key. -/
structure KeyLife (k : String) (p : Pool (redisCalls json)) : Prop where
  times : ((timeline p.state.now p.log).map Prod.fst).IsChain fun later earlier => earlier ≤ later
  lease : p.state.store.Has (getSessionKey k)
    ((timeline p.state.now p.log).lease (getSessionKey k) EXPIRY_TIME)
  sets : ∀ text, (timeline p.state.now p.log).setTo (getSessionKey k) = some text →
    ∃ (info : SessionInfo) (c : Component), text = json.infos.toString info ∧
      info.accessKey = k ∧ info.componentType = c.toU8

theorem keyLife_of_reach {p : Pool (redisCalls json)} (hp : Reachable RedisRun.start p)
    (k : String) : KeyLife k p := by
  induction hp with
  | start =>
    refine ⟨.nil, rfl, fun text h => by contradiction⟩
  | @step p q m hp hc hq ih =>
    rcases Pool.step_eq_some.mp hq with ⟨call, rfl, -, rfl⟩ |
      ⟨i, elapsed, call, cmd, next, answer, r, rfl, ht, hexec, rfl⟩
    · exact ⟨ih.times, ih.lease, ih.sets⟩
    · have hcmd := (Reach.all (fun call => keepsSession_program k call) hp i call _
        ht).1
      cases hexec
      have hcons : ∀ answer, timeline (p.state.now + elapsed) (⟨i, p.state, cmd, answer⟩ :: p.log) =
          (p.state.now + elapsed, cmd) :: timeline p.state.now p.log := fun _ => rfl
      simp only [Pool.advance]
      refine ⟨?_, ?_, ?_⟩
      · rw [hcons, List.map_cons, List.isChain_cons]
        refine ⟨fun t ht => ?_, ih.times⟩
        rw [timeline_head _ _ t ht]
        exact Nat.le_add_right _ _
      · exact ih.lease.exec hcmd.leases
      · intro text hset
        rw [hcons, History.setTo] at hset
        split at hset
        · rename_i v hacc
          cases hset
          exact hcmd.sets _ hacc
        · contradiction
        · exact ih.sets text hset

/-- `get_session` finds what was last set under the key, as long as it has not been removed and no
more than ten seconds have ever passed from one use to the next. -/
theorem redis_access_key_life {p : Pool (redisCalls json)} (hp : Reachable RedisRun.start p)
    (k : String) {now : Nat} (hnow : p.state.now ≤ now) :
    ∃ found : Option SessionInfo,
      (RedisRepository.getSession json.infos now k p.state.store).1 = some found ∧
      found.map json.infos.toString =
        (if (now :: (timeline p.state.now p.log).uses (getSessionKey k)).IsChain
          (History.InTime EXPIRY_TIME)
        then (timeline p.state.now p.log).setTo (getSessionKey k) else none) ∧
      ∀ info ∈ found, info.accessKey = k := by
  have h := keyLife_of_reach hp k
  have htimes : (now :: (timeline p.state.now p.log).map Prod.fst).IsChain
      fun later earlier => earlier ≤ later := by
    refine List.isChain_cons.mpr ⟨fun t ht => ?_, h.times⟩
    rw [timeline_head _ _ t ht]
    exact hnow
  have hvalue := h.lease.get now
  rw [History.live_lease htimes] at hvalue
  generalize hx : (if (now :: (timeline p.state.now p.log).uses (getSessionKey k)).IsChain
      (History.InTime EXPIRY_TIME) then (timeline p.state.now p.log).setTo (getSessionKey k)
      else none) = x at hvalue ⊢
  simp only [RedisRepository.getSession, Store.getEx_fst, hvalue]
  cases x with
  | none => exact ⟨none, rfl, rfl, fun info hinfo => by contradiction⟩
  | some text =>
    split_ifs at hx
    obtain ⟨info, c, rfl, hk, hc⟩ := h.sets text hx
    have hread : fromRedisValue json.infos (some (some (json.infos.toString info))) =
        some (some info) := by rw [fromRedisValue, json.infos.fromStr_toString, Option.map_some]
    simp only [hread, hc, Component.fromU8_toU8]
    refine ⟨some info, rfl, rfl, fun info' hinfo' => ?_⟩
    cases hinfo'
    exact hk

end

theorem redis_access_key_life_sample : ∃ (p : PlainPool) (found : Option SessionInfo),
    p.state.now = 18000 ∧
      (RedisRepository.getSession plainJson.infos 28001 "k1" p.state.store).1 = some found ∧
      found.map plainJson.infos.toString = none := by
  obtain ⟨p, hrun, hends⟩ : ∃ p, (Pool.start RedisRun.start : PlainPool).run
      [.spawn (.session (.setSession (RedisSessionRun.bobSession "k1"))), .act 0 0,
        .spawn (.session (.getSession "k1")), .act 1 9000,
        .spawn (.session (.getSession "k1")), .act 2 9000] = some p ∧
      (p.state.now, (timeline p.state.now p.log).uses (getSessionKey "k1")) =
        (18000, [18000, 9000, 0]) := exists_run (by rfl)
  obtain ⟨hnow, huses⟩ := Prod.mk.inj hends
  have hlate : p.state.now ≤ 28001 := by omega
  obtain ⟨found, hfound, hlast, -⟩ := redis_access_key_life (Reachable.of_run hrun) "k1" hlate
  refine ⟨p, found, hnow, hfound, ?_⟩
  rw [hlast, huses]
  rfl

end FuzzyChat
