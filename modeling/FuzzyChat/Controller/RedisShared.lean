import FuzzyChat.Controller.SessionBackends
import FuzzyChat.Controller.RouteBackends
import FuzzyChat.Controller.RedisKeys
import FuzzyChat.Controller.Admission
import FuzzyChat.Interleave.Apart
import FuzzyChat.Redis.Commands

/-! All that controllers do with one Redis database: the calls of the three repositories, as the
commands they send, from any number of controllers at once. -/

namespace FuzzyChat
open Interleave Redis

structure RedisJson (Text : Type) where
  keys : SerdeJson Text String
  infos : SerdeJson Text SessionInfo
  conversations : SerdeJson Text Conversation
  routes : SerdeJson Text Route
  members : SerdeJson Text Member

/-- The calls on the members; a seeding reads the records of a file and sets its members one by
one. -/
inductive MemberCall where
  | seedMembersFromCsv (records : List (Option (List String)))
  | getMember (uid : String)

inductive MemberAnswer where
  | panic
  | done
  | member (found : Option Member)
  deriving DecidableEq

section programs
open RedisRepository
variable {Text : Type} (json : RedisJson Text)

namespace SessionOp

def renewing (value : Option (Option Text)) : Sends Text SessionAnswer :=
  match fromRedisValue json.infos value with
  | none => .ret .panic
  | some none => .ret (.session none)
  | some (some info) =>
    match Component.fromU8 info.componentType with
    | none => .ret .panic
    | some c => .call (.write [.expire (getMemberSessionKey c info.uid) EXPIRY_TIME])
        fun done => .ret (done.elim .panic fun _ => .session (some info))

def listing (accessKey : String) (proxies : List SessionInfo) :
    List String → Sends Text SessionAnswer
  | [] => .ret (.proxies (if proxies.isEmpty then none else some proxies))
  | key :: rest => .call (.get key) fun value =>
    match (fromRedisValue json.keys value).join with
    | none => .ret .panic
    | some key => .call (.get (getSessionKey key)) fun value =>
      match (fromRedisValue json.infos value).join with
      | none => .ret .panic
      | some session =>
        listing accessKey
          (if session.accessKey ≠ accessKey then proxies ++ [session] else proxies) rest

def listed (accessKey : String) (all : List String) : Sends Text SessionAnswer :=
  if all.isEmpty then .ret (.proxies none) else listing json accessKey [] all

def program : SessionOp → Sends Text SessionAnswer
  | setSession info =>
    match Component.fromU8 info.componentType with
    | none => .ret .panic
    | some c => .call
        (.write [.setEx (getMemberSessionKey c info.uid) (json.keys.toString info.accessKey)
            EXPIRY_TIME,
          .setEx (getSessionKey info.accessKey) (json.infos.toString info) EXPIRY_TIME])
        fun done => .ret (done.elim .panic fun _ => .done)
  | getSession k => .call (.getEx (getSessionKey k) EXPIRY_TIME) (renewing json)
  | removeSession k => .call (.write [.del (getSessionKey k)])
      fun done => .ret (done.elim .panic fun _ => .done)
  | getProxies k => .call (.scan (getMemberSessionKey .proxy "")) fun all =>
      listed json k (all.map Subtype.val)
  | getClient uid => .call (.get (getMemberSessionKey .client uid)) fun value =>
      match (fromRedisValue json.keys value).join with
      | none => .ret .panic
      | some key => .call (.get (getSessionKey key)) fun value =>
        .ret ((fromRedisValue json.infos value).elim .panic .session)
  | count c => .call (.scan (getMemberSessionKey c "")) fun all => .ret (.count all.length)

end SessionOp

namespace RouteOp

def pipeline (c : String) (conversation : Conversation) (route : Route) : List (Write Text) :=
  [.hset (getRoutesKey c) route.nonce (json.routes.toString route),
    .expire (getRoutesKey c) (ROUTES_EXPIRATION_TIME / 1000),
    .setEx (getConversationKey c) (json.conversations.toString conversation)
      (CONVERSATIONS_EXPIRATION_TIME / 1000)]

def storing (c : String) (route : Route) (value : Option (Option Text)) :
    Sends Text RouteAnswer :=
  match fromRedisValue json.conversations value with
  | some (some conversation) =>
    .call (.write (pipeline json c (conversation.pushRoute route) route))
      fun done => .ret (done.elim .panic fun _ => .stored (some route.nonce))
  | _ => .ret .panic

def program : RouteOp → Sends Text RouteAnswer
  | setConversation v => .call
      (.write [.setEx (getConversationKey v.id) (json.conversations.toString v)
        (CONVERSATIONS_EXPIRATION_TIME / 1000)])
      fun done => .ret (done.elim .panic fun _ => .stored (some v.id))
  | removeConversation c => .call (.write [.del (getConversationKey c)])
      fun done => .ret (done.elim .panic fun _ => .done)
  | getConversation c => .call (.get (getConversationKey c)) fun value =>
      .ret ((fromRedisValue json.conversations value).elim .panic .conversation)
  | setRoute c route => .call (.get (getConversationKey c)) (storing json c route)
  | getRoute c n => .call (.hget (getRoutesKey c) n) fun value =>
      .ret ((fromRedisValue json.routes value).elim .panic .route)
  | removeRoute n => .call (.write [.hdel (getRoutesKey n) n])
      fun done => .ret (done.elim .panic fun _ => .done)

end RouteOp

namespace MemberCall

def setting : List Member → Sends Text MemberAnswer
  | [] => .ret .done
  | member :: rest =>
    .call (.write [.hset MEMBER_KEY member.uid (json.members.toString member)])
      fun done => done.elim (.ret .panic) fun _ => setting rest

def program : MemberCall → Sends Text MemberAnswer
  | seedMembersFromCsv records =>
    (MemberManager.readMembersFromCsv records).elim (.ret .panic) (setting json)
  | getMember uid => .call (.hget MEMBER_KEY uid) fun value =>
      .ret ((fromRedisValue json.members value).elim .panic .member)

def setAll (now : Nat) (s : Redis.Store Text) : List Member → MemberAnswer × Redis.Store Text
  | [] => (.done, s)
  | member :: rest =>
    match RedisRepository.setMember json.members now member s with
    | (some (), s) => setAll now s rest
    | (none, s) => (.panic, s)

def inRedis (now : Nat) (s : Redis.Store Text) : MemberCall → MemberAnswer × Redis.Store Text
  | seedMembersFromCsv records =>
    (MemberManager.readMembersFromCsv records).elim (.panic, s) (setAll json now s)
  | getMember uid => ((RedisRepository.getMember json.members now uid s).elim .panic .member, s)

end MemberCall

variable {json} {now : Nat} {s : Redis.Store Text}

/-! In one go the programs are what the repositories do. -/

@[simp] theorem whole_ret {α : Type} (a : α) : whole now s (.ret a : Sends Text α) = (a, s) := rfl

@[simp] theorem whole_call {α : Type} (cmd : Command Text) (k : cmd.Res → Sends Text α) :
    whole now s (.call cmd k) = whole now (cmd.exec now s).2 (k (cmd.exec now s).1) := rfl

theorem SessionOp.whole_listing (accessKey : String) (keys : List String)
    (proxies : List SessionInfo) :
    whole now s (listing json accessKey proxies keys) =
      (((keys.mapM fun key => listedSession json.keys json.infos now key s).map fun sessions =>
        let proxies := proxies ++ sessions.filter fun session => session.accessKey ≠ accessKey
        if proxies.isEmpty then none else some proxies).elim .panic .proxies, s) := by
  induction keys generalizing proxies with
  | nil => simp [listing]
  | cons key keys ih =>
    rw [List.mapM_cons, listing, whole_call]
    have hlisted : listedSession json.keys json.infos now key s =
        ((fromRedisValue json.keys (s.get now key)).join.bind fun key =>
          (fromRedisValue json.infos (s.get now (getSessionKey key))).join) := rfl
    rw [hlisted]
    simp only [Command.exec]
    cases (fromRedisValue json.keys (s.get now key)).join with
    | none => rfl
    | some key =>
      simp only [Option.bind_some, whole_call, Command.exec]
      cases (fromRedisValue json.infos (s.get now (getSessionKey key))).join with
      | none => rfl
      | some session =>
        simp only [ih, Option.bind_eq_bind, Option.bind_some, Option.pure_def]
        cases keys.mapM fun key => listedSession json.keys json.infos now key s with
        | none => rfl
        | some sessions =>
          by_cases h : session.accessKey = accessKey <;> simp [h]

theorem SessionOp.whole_program (op : SessionOp) :
    whole now s (op.program json) = op.inRedis json.keys json.infos now s := by
  cases op with
  | setSession info =>
    simp only [program, inRedis, RedisRepository.setSession]
    cases Component.fromU8 info.componentType <;> rfl
  | getSession k =>
    simp only [program, inRedis, RedisRepository.getSession, whole_call, Command.exec, renewing]
    cases fromRedisValue json.infos (s.getEx now (getSessionKey k) EXPIRY_TIME).1 with
    | none => rfl
    | some found =>
      cases found with
      | none => rfl
      | some info =>
        simp only []
        cases Component.fromU8 info.componentType <;> rfl
  | removeSession k => rfl
  | getProxies k =>
    have hprogram : (getProxies k).program json =
        .call (.scan (getMemberSessionKey .proxy "")) fun all =>
          listed json k (all.map Subtype.val) := rfl
    rw [hprogram, whole_call, Command.exec_scan, listed, inRedis, RedisRepository.getProxies]
    split_ifs
    · rfl
    · rw [whole_listing]
      rfl
  | getClient uid =>
    simp only [program, inRedis, RedisRepository.getClient, whole_call, Command.exec]
    cases (fromRedisValue json.keys (s.get now (getMemberSessionKey .client uid))).join <;> rfl
  | count c => simp [program, inRedis, RedisRepository.count, Command.exec]

theorem RouteOp.exec_pipeline (c : String) (conversation : Conversation) (route : Route) :
    (Command.write (pipeline json c conversation route)).exec now s =
      storeRoute json.conversations json.routes now c conversation route s := by
  simp only [pipeline, Command.exec, Write.execAll, Write.exec, storeRoute]
  cases s.hset now (getRoutesKey c) route.nonce (json.routes.toString route) <;> rfl

theorem RouteOp.whole_program (op : RouteOp) :
    whole now s (op.program json) = op.inRedis json.conversations json.routes now s := by
  cases op with
  | setConversation v => rfl
  | removeConversation c => rfl
  | getConversation c => rfl
  | getRoute c n => rfl
  | setRoute c route =>
    simp only [program, inRedis, RedisRepository.setRoute, whole_call, Command.exec, storing]
    rw [← RedisRepository.getConversation]
    cases RedisRepository.getConversation json.conversations now c s with
    | none => rfl
    | some found =>
      cases found with
      | none => rfl
      | some conversation =>
        simp only [whole_call, exec_pipeline]
        cases (storeRoute json.conversations json.routes now c (conversation.pushRoute route) route
          s).1 <;> rfl
  | removeRoute n =>
    simp only [program, inRedis, RedisRepository.removeRoute, whole_call, Command.exec,
      Write.execAll, Write.exec]
    cases s.hdel now (getRoutesKey n) n <;> rfl

theorem MemberCall.whole_setting (members : List Member) :
    whole now s (setting json members) = setAll json now s members := by
  induction members generalizing s with
  | nil => rfl
  | cons member members ih =>
    simp only [setting, setAll, RedisRepository.setMember, whole_call, Command.exec, Write.execAll,
      Write.exec]
    cases s.hset now MEMBER_KEY member.uid (json.members.toString member) with
    | none => rfl
    | some s' => exact ih

theorem MemberCall.whole_program (call : MemberCall) :
    whole now s (call.program json) = call.inRedis json now s := by
  cases call with
  | seedMembersFromCsv records =>
    rw [program, inRedis]
    cases MemberManager.readMembersFromCsv records with
    | none => rfl
    | some members => exact whole_setting members
  | getMember uid => rfl

end programs
/-! What is whose in the database. -/

inductive Repository where
  | sessions
  | routes
  | members
  deriving DecidableEq, Repr

namespace Repository
open RedisRepository

def ofKey : Key → Repository
  | .session _ | .memberSession _ _ => sessions
  | .conversation _ | .routes _ => routes
  | .member => members

def owns (r : Repository) (text : String) : Bool :=
  (Key.ofText text).any fun key => decide (ofKey key = r)

@[simp] theorem owns_text (r : Repository) (key : Key) :
    r.owns key.text = decide (ofKey key = r) := by
  rw [owns, Key.ofText_text, Option.any_some]

theorem owns_other {r r' : Repository} (h : r' ≠ r) {text : String} (ht : r'.owns text = true) :
    r.owns text = false := by
  unfold owns at ht ⊢
  cases hkey : Key.ofText text with
  | none => rfl
  | some key =>
    rw [hkey, Option.any_some, decide_eq_true_eq] at ht
    rw [Option.any_some, ht]
    exact decide_eq_false h

end Repository

inductive RedisCall where
  | session (op : SessionOp)
  | route (op : RouteOp)
  | member (call : MemberCall)

inductive RedisAnswer where
  | session (answer : SessionAnswer)
  | route (answer : RouteAnswer)
  | member (answer : MemberAnswer)

namespace RedisCall
open RedisRepository
variable {Text : Type} (json : RedisJson Text)

def repository : RedisCall → Repository
  | session _ => .sessions
  | route _ => .routes
  | member _ => .members

def program : RedisCall → Sends Text RedisAnswer
  | session op => RedisAnswer.session <$> op.program json
  | route op => RedisAnswer.route <$> op.program json
  | member call => RedisAnswer.member <$> call.program json

abbrev Keeps (r : Repository) {α : Type} (program : Sends Text α) : Prop :=
  program.All fun cmd _ => cmd.Within r.owns

variable {json}

theorem sessions_owns (key : String) : Repository.sessions.owns (getSessionKey key) = true :=
  Repository.owns_text .sessions (.session key)

theorem sessions_owns_member (c : Component) (uid : String) :
    Repository.sessions.owns (getMemberSessionKey c uid) = true :=
  Repository.owns_text .sessions (.memberSession c uid)

theorem routes_owns (c : String) : Repository.routes.owns (getRoutesKey c) = true :=
  Repository.owns_text .routes (.routes c)

theorem routes_owns_conversation (c : String) :
    Repository.routes.owns (getConversationKey c) = true :=
  Repository.owns_text .routes (.conversation c)

theorem members_owns : Repository.members.owns MEMBER_KEY = true :=
  Repository.owns_text .members .member

theorem keeps_scan (c : Component) (rest : String) :
    Repository.sessions.owns (getMemberSessionKey c "" ++ rest) = true := by
  rw [← getMemberSessionKey_append]
  exact sessions_owns_member c rest

theorem keeps_listing (accessKey : String) (proxies : List SessionInfo) (all : List String)
    (hall : ∀ key ∈ all, Repository.sessions.owns key = true) :
    Keeps .sessions (SessionOp.listing json accessKey proxies all) := by
  induction all generalizing proxies with
  | nil => trivial
  | cons key all ih =>
    obtain ⟨hkey, hall⟩ := List.forall_mem_cons.mp hall
    refine ⟨hkey, fun value => ?_⟩
    dsimp only
    cases (fromRedisValue json.keys value).join with
    | none => trivial
    | some k =>
      refine ⟨sessions_owns k, fun value => ?_⟩
      dsimp only
      cases (fromRedisValue json.infos value).join with
      | none => trivial
      | some session => exact ih _ hall

theorem keeps_session (op : SessionOp) : Keeps .sessions (op.program json) := by
  cases op with
  | setSession info =>
    simp only [SessionOp.program]
    cases Component.fromU8 info.componentType with
    | none => trivial
    | some c =>
      refine ⟨?_, fun _ => trivial⟩
      simp [Command.Within, Write.key, sessions_owns, sessions_owns_member]
  | getSession k =>
    refine ⟨sessions_owns k, fun value => ?_⟩
    simp only [SessionOp.renewing]
    cases fromRedisValue json.infos value with
    | none => trivial
    | some found =>
      cases found with
      | none => trivial
      | some info =>
        dsimp only
        cases Component.fromU8 info.componentType with
        | none => trivial
        | some c =>
          refine ⟨?_, fun _ => trivial⟩
          simp [Command.Within, Write.key, sessions_owns_member]
  | removeSession k => exact ⟨by simp [Command.Within, Write.key, sessions_owns], fun _ => trivial⟩
  | getProxies k =>
    refine ⟨keeps_scan .proxy, fun all => ?_⟩
    simp only [SessionOp.listed]
    split_ifs
    · trivial
    · refine keeps_listing k [] _ fun key hkey => ?_
      obtain ⟨⟨key, rest, rfl⟩, -, rfl⟩ := List.mem_map.mp hkey
      exact keeps_scan .proxy rest
  | getClient uid =>
    refine ⟨sessions_owns_member .client uid, fun value => ?_⟩
    dsimp only
    cases (fromRedisValue json.keys value).join with
    | none => trivial
    | some k => exact ⟨sessions_owns k, fun _ => trivial⟩
  | count c => exact ⟨keeps_scan c, fun _ => trivial⟩

theorem keeps_route (op : RouteOp) : Keeps .routes (op.program json) := by
  cases op with
  | setConversation v =>
    exact ⟨by simp [Command.Within, Write.key, routes_owns_conversation], fun _ => trivial⟩
  | removeConversation c =>
    exact ⟨by simp [Command.Within, Write.key, routes_owns_conversation], fun _ => trivial⟩
  | getConversation c => exact ⟨routes_owns_conversation c, fun _ => trivial⟩
  | setRoute c route =>
    refine ⟨routes_owns_conversation c, fun value => ?_⟩
    simp only [RouteOp.storing]
    cases fromRedisValue json.conversations value with
    | none => trivial
    | some found =>
      cases found with
      | none => trivial
      | some conversation =>
        refine ⟨?_, fun _ => trivial⟩
        simp [RouteOp.pipeline, Command.Within, Write.key, routes_owns, routes_owns_conversation]
  | getRoute c n => exact ⟨routes_owns c, fun _ => trivial⟩
  | removeRoute n => exact ⟨by simp [Command.Within, Write.key, routes_owns], fun _ => trivial⟩

theorem keeps_setting (members : List Member) :
    Keeps .members (MemberCall.setting json members) := by
  induction members with
  | nil => trivial
  | cons member members ih =>
    refine ⟨by simp [Command.Within, Write.key, members_owns], fun done => ?_⟩
    cases done with
    | none => trivial
    | some _ => exact ih

theorem keeps_member (call : MemberCall) : Keeps .members (call.program json) := by
  cases call with
  | seedMembersFromCsv records =>
    rw [MemberCall.program]
    cases MemberManager.readMembersFromCsv records with
    | none => trivial
    | some members => exact keeps_setting members
  | getMember uid => exact ⟨members_owns, fun _ => trivial⟩

theorem keeps_program (call : RedisCall) : Keeps call.repository (call.program json) := by
  cases call with
  | session op => exact Prog.all_map _ (keeps_session op)
  | route op => exact Prog.all_map _ (keeps_route op)
  | member call => exact Prog.all_map _ (keeps_member call)

end RedisCall

section
variable {Text : Type} (json : RedisJson Text)

/-- Each command comes some time after the last one. -/
abbrev redisCalls : System where
  Op := Command Text
  Res := Command.Res
  State := RedisRun Text
  Choice := Nat
  Job := RedisCall
  Out := RedisAnswer
  exec _ elapsed cmd r := some
    ((cmd.exec (r.now + elapsed) r.store).1,
      ⟨(cmd.exec (r.now + elapsed) r.store).2, r.now + elapsed⟩)
  prog := RedisCall.program json
  admits _ _ := True
  decAdmits _ _ := inferInstance

def Repository.Sees (r : Repository) (s s' : RedisRun Text) : Prop :=
  s'.store = s.store.part r.owns ∧ s'.now ≤ s.now

variable {json}

theorem Repository.apart (r : Repository) :
    Apart (S := redisCalls json) (fun call => call.repository = r) r.Sees where
  admits _ _ _ _ := trivial
  own call hcall := by
    refine (RedisCall.keeps_program call).imp fun cmd _ hcmd i i' elapsed s s' answer t hs ht => ?_
    obtain ⟨hstore, hnow⟩ := hs
    obtain ⟨rfl, rfl⟩ := Prod.mk.inj (Option.some.inj ht)
    subst hcall
    have htime : s'.now + (s.now + elapsed - s'.now) = s.now + elapsed := by omega
    have hexec : cmd.exec (s.now + elapsed) (s.store.part call.repository.owns) = _ :=
      Command.exec_part hcmd
    refine ⟨s.now + elapsed - s'.now,
      ⟨(cmd.exec (s.now + elapsed) s.store).2.part call.repository.owns, s.now + elapsed⟩, ?_,
      rfl, le_rfl⟩
    show some _ = some _
    rw [htime, hstore, hexec]
  others call hcall := by
    refine (RedisCall.keeps_program call).imp fun cmd _ hcmd i elapsed s s' answer t hs ht => ?_
    obtain ⟨rfl, rfl⟩ := Prod.mk.inj (Option.some.inj ht)
    refine ⟨hs.1.trans (Command.exec_part_other hcmd fun _ => owns_other hcall).symm, ?_⟩
    exact hs.2.trans (Nat.le_add_right ..)

/-- Whatever controllers do with the database at once, the calls of one repository come to what they
would come to if there were no others, and leave its part of the database as they would then. -/
theorem repositories_apart {Text : Type} {json : RedisJson Text} {p : Pool (redisCalls json)}
    (hp : Reachable RedisRun.start p) (r : Repository) :
    ∃ q : Pool (redisCalls json), Reachable RedisRun.start q ∧
      q.tasks = p.tasksOf (fun call : RedisCall => call.repository = r) ∧
      q.state.store = p.state.store.part r.owns ∧ q.state.now ≤ p.state.now := by
  obtain ⟨q, hreach, htasks, hstore, hnow⟩ := hp.apart r.apart ⟨rfl, le_rfl⟩
  exact ⟨q, hreach, htasks, hstore, hnow⟩

end

inductive PlainText where
  | key (key : String)
  | info (info : SessionInfo)
  | conversation (conversation : Conversation)
  | route (route : Route)
  | member (member : Member)
  deriving DecidableEq

namespace PlainText

def key? : PlainText → Option String
  | key k => some k
  | _ => none

def info? : PlainText → Option SessionInfo
  | info v => some v
  | _ => none

def conversation? : PlainText → Option Conversation
  | conversation v => some v
  | _ => none

def route? : PlainText → Option Route
  | route v => some v
  | _ => none

def member? : PlainText → Option Member
  | member v => some v
  | _ => none

end PlainText

def plainJson : RedisJson PlainText where
  keys := ⟨.key, PlainText.key?, fun _ => rfl⟩
  infos := ⟨.info, PlainText.info?, fun _ => rfl⟩
  conversations := ⟨.conversation, PlainText.conversation?, fun _ => rfl⟩
  routes := ⟨.route, PlainText.route?, fun _ => rfl⟩
  members := ⟨.member, PlainText.member?, fun _ => rfl⟩

abbrev PlainPool := Pool (redisCalls plainJson)

theorem repositories_apart_sample : ∃ p q : PlainPool,
    p.tasks.length = 3 ∧ p.state.now = 40 ∧ Reachable RedisRun.start q ∧
      q.tasks = p.tasksOf (fun call : RedisCall => call.repository = .members) ∧
      q.state.store = p.state.store.part Repository.members.owns := by
  obtain ⟨p, hrun, hends⟩ : ∃ p, (Pool.start RedisRun.start : PlainPool).run
      [.spawn (.member (.seedMembersFromCsv [some ["alice", "a"], some ["bob", "b"]])), .act 0 10,
        .spawn (.route (.setConversation (Conversation.new "c1" "alice" "bob" 1))), .act 1 10,
        .spawn (.session (.setSession (RedisSessionRun.bobSession "k1"))), .act 2 10,
        .act 0 10] = some p ∧ (p.tasks.length, p.state.now) = (3, 40) := exists_run (by rfl)
  obtain ⟨hlength, hnow⟩ := Prod.mk.inj hends
  obtain ⟨q, hq, htasks, hstore, -⟩ := repositories_apart (Reachable.of_run hrun) .members
  exact ⟨p, q, hlength, hnow, hq, htasks, hstore⟩

end FuzzyChat
