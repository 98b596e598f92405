import FuzzyChat.Controller.RedisShared
import FuzzyChat.Interleave.Serial
import FuzzyChat.Interleave.Wording

/-! Calls on one conversation, from any number of controllers, interleaved at the commands they send
to Redis. -/

namespace FuzzyChat
open Interleave Redis

inductive RouteCommand where
  | get
  | store (conversation : Conversation) (route : Route)
  | del

abbrev RouteCommand.Res : RouteCommand → Type
  | get => Option (Option Conversation)
  | store .. | del => Option Unit

inductive ConversationCall where
  | setRoute (route : Route)
  | removeConversation
  deriving DecidableEq

namespace ConversationCall

def stored (route : Route) : Option Unit → Prog RouteCommand.Res RouteAnswer
  | some () => .ret (.stored (some route.nonce))
  | none => .ret .panic

def storing (route : Route) : Option (Option Conversation) → Prog RouteCommand.Res RouteAnswer
  | some (some conversation) => .call (.store (conversation.pushRoute route) route) (stored route)
  | _ => .ret .panic

def program : ConversationCall → Prog RouteCommand.Res RouteAnswer
  | setRoute route => .call .get (storing route)
  | removeConversation => .call .del fun done => .ret (done.elim .panic fun () => .done)

def op (c : String) : ConversationCall → RouteOp
  | setRoute route => .setRoute c route
  | removeConversation => .removeConversation c

variable {Text : Type} (conversations : SerdeJson Text Conversation) (routes : SerdeJson Text Route)
  (c : String)

def whole (call : ConversationCall) (r : RedisRun Text) : RouteAnswer × RedisRun Text :=
  (((call.op c).inRedis conversations routes r.now r.store).1,
    { r with store := ((call.op c).inRedis conversations routes r.now r.store).2 })

end ConversationCall

namespace RedisRun
variable {Text : Type} (conversations : SerdeJson Text Conversation) (routes : SerdeJson Text Route)
  (c : String)

def wait (elapsed : Nat) (r : RedisRun Text) : RedisRun Text := { r with now := r.now + elapsed }

def Waits (r r' : RedisRun Text) : Prop := ∃ elapsed, r' = r.wait elapsed

def record (r : RedisRun Text) : Option (Option Conversation) :=
  RedisRepository.getConversation conversations r.now c r.store

def exec (r : RedisRun Text) : (cmd : RouteCommand) → cmd.Res × RedisRun Text
  | .get => (r.record conversations c, r)
  | .store conversation route =>
    ((RedisRepository.storeRoute conversations routes r.now c conversation route r.store).1,
      { r with store :=
        (RedisRepository.storeRoute conversations routes r.now c conversation route r.store).2 })
  | .del => ((RedisRepository.removeConversation c r.store).1,
      { r with store := (RedisRepository.removeConversation c r.store).2 })

/-- What a pipeline writes is the record as it is now, with the route at its end. -/
def UpToDate (r : RedisRun Text) : RouteCommand → Prop
  | .store conversation route =>
    (r.record conversations c).join.map (Conversation.pushRoute route) = some conversation
  | _ => True

instance (r : RedisRun Text) (cmd : RouteCommand) : Decidable (r.UpToDate conversations c cmd) := by
  unfold UpToDate
  cases cmd <;> infer_instance

end RedisRun

section
variable {Text : Type} (conversations : SerdeJson Text Conversation) (routes : SerdeJson Text Route)
  (c : String)

/-- Each command comes some time after the last one. -/
abbrev conversationCalls : System where
  Op := RouteCommand
  Res := RouteCommand.Res
  State := RedisRun Text
  Choice := Nat
  Job := ConversationCall
  Out := RouteAnswer
  exec _ elapsed cmd r := some ((r.wait elapsed).exec conversations routes c cmd)
  prog := ConversationCall.program
  admits _ _ := True
  decAdmits _ _ := inferInstance

/-- The conversation is, at a pipeline, what the call has read of it: none of the others has written
or removed it since, and it has not expired. -/
def FreshWrites (p : Pool (conversationCalls conversations routes c)) :
    Move (conversationCalls conversations routes c) → Prop
  | .spawn _ => True
  | .act i elapsed => ∀ t ∈ p.tasks[i]?, ∀ cmd ∈ t.2.head?,
      (p.state.wait elapsed).UpToDate conversations c cmd

instance (p : Pool (conversationCalls conversations routes c))
    (m : Move (conversationCalls conversations routes c)) :
    Decidable (FreshWrites conversations routes c p m) := by
  unfold FreshWrites
  cases m <;> infer_instance

/-- The record and the results are those of the calls made one by one; a route that is answered as
stored is in the record; and a conversation that is removed stays so. -/
structure Atomic (r₀ : RedisRun Text) (p : Pool (conversationCalls conversations routes c)) :
    Prop where
  serial : ∃ order, ∃ r : RedisRun Text, r.now = p.state.now ∧
    r.record conversations c = p.state.record conversations c ∧
    Serializes RedisRun.Waits (ConversationCall.whole conversations routes c) r₀
      { p with state := r } order
  listed : ∀ i route n, p.returned i = some (.setRoute route, .stored (some n)) →
    ∀ conversation, p.state.record conversations c = some (some conversation) →
      route ∈ conversation.routes
  gone : ∀ i a, p.returned i = some (.removeConversation, a) →
    p.state.record conversations c = some none

variable {conversations routes c}

inductive Staged : ConversationCall → Prog RouteCommand.Res RouteAnswer → Prop
  | called (call : ConversationCall) : Staged call call.program
  | read (route : Route) (conversation : Conversation) :
    Staged (.setRoute route) (ConversationCall.storing route (some (some conversation)))

theorem staged_program (call : ConversationCall) :
    call.program.All fun cmd k => Staged call (.call cmd k) := by
  cases call with
  | setRoute route =>
    refine ⟨.called _, fun read => ?_⟩
    match read with
    | some (some conversation) =>
      exact ⟨.read route conversation, fun | some () => trivial | none => trivial⟩
    | some none => trivial
    | none => trivial
  | removeConversation => exact ⟨.called _, fun _ => trivial⟩

theorem stepsWhole_read (r : RedisRun Text) (route : Route) (elapsed : Nat) :
    StepsWhole (S := conversationCalls conversations routes c) RedisRun.Waits
      (ConversationCall.whole conversations routes c) (.setRoute route) r (r.wait elapsed)
      (ConversationCall.storing route ((r.wait elapsed).record conversations c)) := by
  by_cases hread : ∃ v, (r.wait elapsed).record conversations c = some (some v)
  · obtain ⟨v, hv⟩ := hread
    rw [hv]
    exact .inl ⟨rfl, elapsed, rfl⟩
  · have hmissing := RedisRepository.setRoute_of_missing routes route
      fun v hv => hread ⟨v, hv⟩
    refine .inr ⟨.panic, r.wait elapsed, ?_, ⟨elapsed, rfl⟩, ?_⟩
    · match hv : (r.wait elapsed).record conversations c with
      | some (some v) => exact absurd ⟨v, hv⟩ hread
      | some none => rfl
      | none => rfl
    · simp only [ConversationCall.whole, ConversationCall.op, RouteOp.inRedis, hmissing,
        Option.elim_none]

theorem stepsWhole_store (r : RedisRun Text) (route : Route) (elapsed : Nat)
    {conversation : Conversation}
    (h : (r.wait elapsed).UpToDate conversations c (.store (conversation.pushRoute route) route)) :
    StepsWhole (S := conversationCalls conversations routes c) RedisRun.Waits
      (ConversationCall.whole conversations routes c) (.setRoute route) r
      ((r.wait elapsed).exec conversations routes c
        (.store (conversation.pushRoute route) route)).2
      (ConversationCall.stored route ((r.wait elapsed).exec conversations routes c
        (.store (conversation.pushRoute route) route)).1) := by
  obtain ⟨v, hv, hpushed⟩ := Option.map_eq_some_iff.mp h
  have hread := RedisRepository.setRoute_of_read routes route
    (Option.join_eq_some_iff.mp hv)
  rw [hpushed] at hread
  have hwhole : ConversationCall.whole conversations routes c (.setRoute route) (r.wait elapsed) =
      (((((r.wait elapsed).exec conversations routes c
          (.store (conversation.pushRoute route) route)).1.map fun _ => some route.nonce).elim
            .panic .stored),
        ((r.wait elapsed).exec conversations routes c
          (.store (conversation.pushRoute route) route)).2) := by
    simp only [ConversationCall.whole, ConversationCall.op, RouteOp.inRedis, hread]
    rfl
  refine .inr ⟨_, r.wait elapsed, ?_, ⟨elapsed, rfl⟩, hwhole⟩
  cases ((r.wait elapsed).exec conversations routes c
    (.store (conversation.pushRoute route) route)).1 <;> rfl

theorem serializes_of_freshWrites {r₀ : RedisRun Text}
    {p : Pool (conversationCalls conversations routes c)}
    (hp : Reach (FreshWrites conversations routes c) r₀ p) :
    ∃ order, Serializes RedisRun.Waits (ConversationCall.whole conversations routes c) r₀ p
      order := by
  have hprog : ∀ call : ConversationCall, call.program.result? = none := by
    intro call
    cases call <;> rfl
  refine serializable hprog (fun p i elapsed call cmd k res r hp hc ht hexec => ?_) hp
  have hstaged := (hp.all staged_program i call _ ht).1
  have hstep : (p.state.wait elapsed).exec conversations routes c cmd = (res, r) :=
    Option.some.inj hexec
  obtain rfl : ((p.state.wait elapsed).exec conversations routes c cmd).1 = res := by rw [hstep]
  obtain rfl : ((p.state.wait elapsed).exec conversations routes c cmd).2 = r := by rw [hstep]
  -- a read is a wait, a pipeline or a removal the call as a whole
  generalize hpr : Prog.call cmd k = pr at hstaged
  cases hstaged with
  | called call =>
    cases call with
    | setRoute route =>
      cases hpr
      exact stepsWhole_read p.state route elapsed
    | removeConversation =>
      cases hpr
      exact .inr ⟨.done, p.state.wait elapsed, rfl, ⟨elapsed, rfl⟩, rfl⟩
  | read route conversation =>
    cases hpr
    exact stepsWhole_store p.state route elapsed (hc _ ht _ rfl)

/-! What serial orders of the calls have in common. -/

section serial
variable {r₀ r : RedisRun Text} {order : List (Nat × ConversationCall × RouteAnswer)}

theorem record_of_missing (h : r.store.lookup (RedisRepository.getConversationKey c) = none) :
    r.record conversations c = some none := by
  rw [RedisRun.record, RedisRepository.getConversation, Store.get, Store.live_of_lookup_none h]
  rfl

theorem exists_of_record {v : Conversation} (h : r.record conversations c = some (some v)) :
    ∃ e, r.store.lookup (RedisRepository.getConversationKey c) = some e := by
  apply Option.ne_none_iff_exists'.mp
  intro hmissing
  rw [record_of_missing hmissing] at h
  cases h

theorem eq_of_record {e : Entry Text} {v v' : Conversation}
    (he : r.store.lookup (RedisRepository.getConversationKey c) = some e)
    (hv : e.value = .string (conversations.toString v))
    (h : r.record conversations c = some (some v')) : v = v' := by
  obtain ⟨w, t⟩ := e
  cases hv
  rw [RedisRun.record, RedisRepository.getConversation, Store.get, Store.live, he,
    Option.filter_some] at h
  split_ifs at h
  · rw [RedisRepository.fromRedisValue, conversations.fromStr_toString] at h
    exact Option.some.inj (Option.some.inj h)
  · cases h

theorem whole_setRoute_cases (conversations : SerdeJson Text Conversation)
    (routes : SerdeJson Text Route) (c : String) (r : RedisRun Text) (route : Route) :
    ConversationCall.whole conversations routes c (.setRoute route) r = (.panic, r) ∨
      ∃ v e e', r.store.lookup (RedisRepository.getConversationKey c) = some e ∧
        r.record conversations c = some (some v) ∧
        (ConversationCall.whole conversations routes c (.setRoute route) r).2.store.lookup
          (RedisRepository.getConversationKey c) = some e' ∧
        e'.value = .string (conversations.toString (v.pushRoute route)) := by
  by_cases hread : ∃ v, r.record conversations c = some (some v)
  · obtain ⟨v, hv⟩ := hread
    obtain ⟨e, he⟩ := exists_of_record hv
    refine .inr ⟨v, e, ⟨.string (conversations.toString (v.pushRoute route)),
      some (r.now + 1000 * (CONVERSATIONS_EXPIRATION_TIME / 1000))⟩, he, hv, ?_, rfl⟩
    simp only [ConversationCall.whole, ConversationCall.op, RouteOp.inRedis,
      RedisRepository.setRoute_of_read routes route hv]
    exact AList.lookup_insert ..
  · have hmissing := RedisRepository.setRoute_of_missing routes route
      fun v hv => hread ⟨v, hv⟩
    refine .inl ?_
    simp only [ConversationCall.whole, ConversationCall.op, RouteOp.inRedis, hmissing,
      Option.elim_none]

theorem serial_removed (h : Serial (S := conversationCalls conversations routes c) RedisRun.Waits
    (ConversationCall.whole conversations routes c) r₀ order r) :
    ∀ i a, (i, .removeConversation, a) ∈ order →
      r.store.lookup (RedisRepository.getConversationKey c) = none := by
  refine h.holds (P := fun (order : List (Nat × ConversationCall × RouteAnswer))
    (r : RedisRun Text) => ∀ i a, (i, .removeConversation, a) ∈ order →
      r.store.lookup (RedisRepository.getConversationKey c) = none) ?_ ?_ ?_
  · exact fun i a hi => nomatch hi
  · rintro order r _ ih ⟨elapsed, rfl⟩
    exact ih
  · intro order r i' call ih i a hi
    cases call with
    | setRoute route =>
      -- a route is stored over what is there only, and nothing is
      have hgone := ih i a ((List.mem_cons.mp hi).resolve_left fun he => by cases he)
      rcases whole_setRoute_cases conversations routes c r route with hsame | ⟨v, e, -, he, -⟩
      · rw [hsame]
        exact hgone
      · rw [hgone] at he
        nomatch he
    | removeConversation => exact AList.lookup_erase ..

theorem serial_listed (h : Serial (S := conversationCalls conversations routes c) RedisRun.Waits
    (ConversationCall.whole conversations routes c) r₀ order r) :
    ∀ i route n, (i, .setRoute route, .stored n) ∈ order →
      ∀ e, r.store.lookup (RedisRepository.getConversationKey c) = some e →
        ∃ v, e.value = .string (conversations.toString v) ∧ route ∈ v.routes := by
  refine h.holds (P := fun (order : List (Nat × ConversationCall × RouteAnswer))
    (r : RedisRun Text) => ∀ i route n, (i, .setRoute route, .stored n) ∈ order →
      ∀ e, r.store.lookup (RedisRepository.getConversationKey c) = some e →
        ∃ v, e.value = .string (conversations.toString v) ∧ route ∈ v.routes) ?_ ?_ ?_
  · exact fun i route n hi => nomatch hi
  · rintro order r _ ih ⟨elapsed, rfl⟩
    exact ih
  · intro order r i' call ih i route n hi e he
    cases call with
    | setRoute route' =>
      have hcases := whole_setRoute_cases conversations routes c r route'
      rcases hcases with hsame | ⟨v, e₀, e', he₀, hv, he', hvalue⟩
      · rw [hsame] at hi he
        rcases List.mem_cons.mp hi with hnew | hold
        · nomatch hnew
        · exact ih i route n hold e he
      · rw [he'] at he
        cases he
        refine ⟨v.pushRoute route', hvalue, List.mem_append.mpr ?_⟩
        -- the route is the one that has come, or one of those listed before
        rcases List.mem_cons.mp hi with hnew | hold
        · obtain ⟨hroute, -⟩ := Prod.mk.inj (Prod.mk.inj hnew).2
          cases hroute
          exact .inr (List.mem_singleton.mpr rfl)
        · obtain ⟨v₀, hv₀, hmem⟩ := ih i route n hold e₀ he₀
          rw [eq_of_record he₀ hv₀ hv] at hmem
          exact .inl hmem
    | removeConversation =>
      have hgone : (ConversationCall.whole conversations routes c .removeConversation
        r).2.store.lookup (RedisRepository.getConversationKey c) = none := AList.lookup_erase ..
      rw [hgone] at he
      nomatch he

end serial

/-- Where no pipeline writes over a change it has not read, the calls on a conversation are atomic,
from whatever the database holds. -/
theorem atomic_of_freshWrites {r₀ : RedisRun Text}
    {p : Pool (conversationCalls conversations routes c)}
    (hp : Reach (FreshWrites conversations routes c) r₀ p) : Atomic conversations routes c r₀ p := by
  obtain ⟨order, h⟩ := serializes_of_freshWrites hp
  constructor
  case serial => exact ⟨order, p.state, rfl, rfl, h⟩
  case listed =>
    intro i route n hret v hv
    obtain ⟨e, he⟩ := exists_of_record hv
    have hdone := (h.returned i _ _).mpr hret
    obtain ⟨v₀, hv₀, hmem⟩ := serial_listed h.serial i route (some n) hdone e he
    rw [eq_of_record he hv₀ hv] at hmem
    exact hmem
  case gone =>
    intro i a hret
    have hdone := (h.returned i _ _).mpr hret
    exact record_of_missing (serial_removed h.serial i a hdone)

end

/-! The calls as they are among all that is done with a database. -/

section shared
open RedisRepository
variable {Text : Type} (json : RedisJson Text) (c : String)

def asSent : Wording (conversationCalls json.conversations json.routes c) (redisCalls json) where
  op
    | .get => .get (getConversationKey c)
    | .store conversation route => .write (RouteOp.pipeline json c conversation route)
    | .del => .write [.del (getConversationKey c)]
  read
    | .get, value => fromRedisValue json.conversations value
    | .store .., done => done
    | .del, done => done
  job call := .route (call.op c)
  out := .route
  state := id
  choice := id

variable {json c}

theorem asSent_prog (call : ConversationCall) :
    RedisCall.program json (.route (call.op c)) = (asSent json c).program call.program := by
  cases call with
  | setRoute route =>
    apply Prog.call_congr
    intro value
    show RedisAnswer.route <$> RouteOp.storing json c route value =
      (asSent json c).program (ConversationCall.storing route
        (fromRedisValue json.conversations value))
    unfold RouteOp.storing
    cases fromRedisValue json.conversations value with
    | none => rfl
    | some found =>
      cases found with
      | none => rfl
      | some conversation =>
        apply Prog.call_congr
        intro done
        cases done <;> rfl
  | removeConversation =>
    apply Prog.call_congr
    intro done
    cases done <;> rfl

theorem asSent_faithful : (asSent json c).Faithful where
  prog := asSent_prog
  exec i elapsed cmd r := by
    cases cmd with
    | get => rfl
    | store conversation route =>
      simp only [asSent, RouteOp.exec_pipeline, Option.map_some, id]
      rfl
    | del => rfl
  admits _ _ _ := trivial

/-- Whatever controllers do with one conversation of a database, as long as they do nothing else, is
a run of these calls. -/
theorem conversationCalls_of_shared {r₀ : RedisRun Text} {q : Pool (redisCalls json)}
    (hq : Reachable r₀ q) (hcalls : ∀ call ∈ q.tasks.map Prod.fst,
      ∃ call' : ConversationCall, RedisCall.route (call'.op c) = call) :
    ∃ p : Pool (conversationCalls json.conversations json.routes c),
      Reachable r₀ p ∧ (asSent json c).Renders p q :=
  Wording.exists_rendered asSent_faithful hq hcalls

end shared

namespace RedisRun

def opened : List RouteCall := [.initializeConversation ⟨"c-1", by decide⟩ "alice" "bob"]

def hopTo (nonce : String) : Route :=
  RouteManager.storedRoute nonce ⟨"10.0.0.1", 50051, "north", [1]⟩ false

end RedisRun

abbrev SamplePool := Pool (conversationCalls RedisRun.plainConversation RedisRun.plainRoute "c1")

theorem atomic_of_freshWrites_sample : ∃ p : SamplePool,
    p.returned 1 = some (.setRoute (RedisRun.hopTo "n-2"), .stored (some "n-2")) ∧
    p.state.record RedisRun.plainConversation "c1" = some none ∧
    Atomic RedisRun.plainConversation RedisRun.plainRoute "c1"
      (RedisRun.start.run RedisRun.plainConversation RedisRun.plainRoute RedisRun.opened) p := by
  obtain ⟨p, hrun, hends⟩ : ∃ p, (Pool.start (RedisRun.start.run RedisRun.plainConversation
      RedisRun.plainRoute RedisRun.opened) : SamplePool).run
        [.spawn (.setRoute (RedisRun.hopTo "n-1")), .spawn (.setRoute (RedisRun.hopTo "n-2")),
          .act 0 10, .act 0 10, .act 1 10, .act 1 10, .spawn .removeConversation, .act 2 10] =
        some p ∧ (p.returned 1, p.state.record RedisRun.plainConversation "c1") =
          (some (.setRoute (RedisRun.hopTo "n-2"), .stored (some "n-2")), some none) :=
    exists_run (by decide)
  obtain ⟨hstored, hgone⟩ := Prod.mk.inj hends
  have hp := Reach.start.run
    (C := FreshWrites RedisRun.plainConversation RedisRun.plainRoute "c1") (by decide) hrun
  exact ⟨p, hstored, hgone, atomic_of_freshWrites hp⟩

/-- Both calls read the conversation before either writes it: the first route is answered as stored
and is lost. -/
theorem lost_update : ¬ ∀ (calls : List RouteCall) (p : SamplePool),
    Reachable (RedisRun.start.run RedisRun.plainConversation RedisRun.plainRoute calls) p →
      Atomic RedisRun.plainConversation RedisRun.plainRoute "c1"
        (RedisRun.start.run RedisRun.plainConversation RedisRun.plainRoute calls) p := by
  intro hall
  obtain ⟨p, hrun, hends⟩ : ∃ p, (Pool.start (RedisRun.start.run RedisRun.plainConversation
      RedisRun.plainRoute RedisRun.opened) : SamplePool).run
        [.spawn (.setRoute (RedisRun.hopTo "n-1")), .spawn (.setRoute (RedisRun.hopTo "n-2")),
          .act 0 10, .act 1 10, .act 0 10, .act 1 10] =
        some p ∧ (p.returned 0, p.state.record RedisRun.plainConversation "c1") =
          (some (.setRoute (RedisRun.hopTo "n-1"), .stored (some "n-1")),
            some (some ((Conversation.new "c1" "alice" "bob" 1).pushRoute (RedisRun.hopTo "n-2")))) :=
    exists_run (by decide)
  obtain ⟨hstored, hrecord⟩ := Prod.mk.inj hends
  have hlisted := (hall _ p (Reachable.of_run hrun)).listed 0 _ _ hstored _ hrecord
  exact absurd hlisted (by decide)

end FuzzyChat
