import FuzzyChat.Controller.Programs

/-! What the programs of the handlers have in common: what an answer may lead to next. -/

namespace FuzzyChat
open Interleave

def affirms : (op : RepoOp) → op.Res → Bool
  | .getSession _, info => Option.isSome info
  | .getConversation _, conversation => Option.isSome conversation
  | _, _ => false

def finds : (op : RepoOp) → op.Res → Option String
  | .getRoute _ n, some _ => some n
  | _, _ => none

/-- Of the routes it may find, a redemption fetches the conversation for an end route only. -/
def ends : (op : RepoOp) → op.Res → Bool
  | .getRoute _ _, route => Option.any Route.endRoute route
  | _, _ => true

/-- Programs rely on what they have been shown, remove what they have found, and end when they have
stored the route under their own nonce. -/
structure Shape (j : Job) (op : RepoOp) (k : op.Res → Program) : Prop where
  relies : ∀ r, ∀ op' ∈ relies (k r),
    op' ∈ relies (.call op k) ∧ ends op r = true ∨ op' = op ∧ affirms op r = true
  removes : ∀ r n, (k r).head? = some (.removeRoute n) → finds op r = some n
  stores : ∀ c route, op = .setRoute c route →
    j.request.draws = some .nonce ∧ j.id = route.nonce ∧ ∀ r, (k r).head? = none

structure Quiet (pr : Program) : Prop where
  relies : relies pr = []
  head : ∀ n, pr.head? ≠ some (.removeRoute n)

@[simp] theorem quiet_ret (a : Except Abort Reply) : Quiet (.ret a) := ⟨rfl, fun _ h => nomatch h⟩

@[simp] theorem quiet_reply (r : Reply) : Quiet (reply r) := quiet_ret _

@[simp] theorem quiet_refuse (s : Status) : Quiet (refuse s) := quiet_ret _

@[simp] theorem quiet_crash : Quiet crash := quiet_ret _

section
variable {j : Job}

theorem all_call {op : RepoOp} {k : op.Res → Program} (hop : ∀ c route, op ≠ .setRoute c route)
    (hq : ∀ r, Quiet (k r)) (hk : ∀ r, (k r).All (Shape j)) : Prog.All (Shape j) (.call op k) :=
  ⟨⟨fun r op' hm => by simp [(hq r).relies] at hm, fun r n hn => absurd hn ((hq r).head n),
    fun c route ho => absurd ho (hop c route)⟩, hk⟩

theorem all_checkedSession {k : String} {f : SessionInfo → Program}
    (hr : ∀ info, ∀ op ∈ relies (f info), op = .getSession k)
    (hh : ∀ info n, (f info).head? ≠ some (.removeRoute n)) (hf : ∀ info, (f info).All (Shape j)) :
    (checkedSession k f).All (Shape j) := by
  refine ⟨⟨fun r op hm => ?_, fun r n hn => ?_, fun c route ho => nomatch ho⟩, fun r => ?_⟩ <;>
    cases r with
    | none => trivial
    | some info => ?_
  · exact .inr ⟨hr info op hm, rfl⟩
  · exact absurd hn (hh info n)
  · exact hf info

theorem all_checkedConversation {c : String} {f : Conversation → Program}
    (hr : ∀ v, ∀ op ∈ relies (f v), op = .getConversation c)
    (hh : ∀ v n, (f v).head? ≠ some (.removeRoute n)) (hf : ∀ v, (f v).All (Shape j)) :
    (checkedConversation c f).All (Shape j) := by
  refine ⟨⟨fun r op hm => ?_, fun r n hn => ?_, fun c route ho => nomatch ho⟩, fun r => ?_⟩ <;>
    cases r with
    | none => trivial
    | some v => ?_
  · exact .inr ⟨hr v op hm, rfl⟩
  · exact absurd hn (hh v n)
  · exact hf v

theorem all_fetchedSession {k : String} {f : SessionInfo → Program} (hq : ∀ info, Quiet (f info))
    (hf : ∀ info, (f info).All (Shape j)) : (fetchedSession k f).All (Shape j) :=
  all_call (fun _ _ h => nomatch h) (fun | none => quiet_crash | some info => hq info)
    fun | none => trivial | some info => hf info

theorem all_fetchedConversation {c : String} {f : Conversation → Program} (hq : ∀ v, Quiet (f v))
    (hf : ∀ v, (f v).All (Shape j)) : (fetchedConversation c f).All (Shape j) :=
  all_call (fun _ _ h => nomatch h) (fun | none => quiet_crash | some v => hq v)
    fun | none => trivial | some v => hf v

theorem quiet_call {op : RepoOp} {k : op.Res → Program} (hr : relies (.call op k) = [])
    (hop : ∀ n, op ≠ .removeRoute n) : Quiet (.call op k) :=
  ⟨hr, fun n hn => hop n (Option.some.inj hn)⟩

section route
variable {nonce : String} {r : RouteRequest}

theorem quiet_storeProgram (c : String) (info : SessionInfo) (endRoute : Bool) :
    Quiet (storeProgram nonce c info endRoute) := quiet_call rfl fun _ h => nomatch h

theorem all_storeProgram (c : String) (info : SessionInfo) (endRoute : Bool) :
    (storeProgram nonce c info endRoute).All (Shape ⟨.route r, nonce⟩) := by
  constructor
  case left =>
    constructor
    case relies =>
      intro stored op hm
      cases stored <;> nomatch hm
    case removes =>
      intro stored n hn
      cases stored <;> nomatch hn
    case stores =>
      rintro c route ⟨rfl, rfl⟩
      exact ⟨rfl, rfl, fun | none => rfl | some _ => rfl⟩
  case right =>
    intro stored
    cases stored <;> trivial

theorem all_finalProgram (conversation : Conversation) :
    (finalProgram nonce r conversation).All (Shape ⟨.route r, nonce⟩) := by
  refine all_call (fun _ _ h => nomatch h) (fun | none => quiet_refuse _ | some key => ?_)
    fun | none => trivial | some key => ?_
  · exact quiet_call rfl fun _ h => nomatch h
  · exact all_call (fun _ _ h => nomatch h)
      (fun | none => quiet_refuse _ | some info => quiet_storeProgram _ _ _)
      fun | none => trivial | some info => all_storeProgram _ _ _

theorem all_hopProgram : (hopProgram nonce r).All (Shape ⟨.route r, nonce⟩) := by
  refine all_call (fun _ _ h => nomatch h) (fun | none => quiet_refuse _ | some proxies => ?_)
    fun | none => trivial | some proxies => ?_
  · dsimp only
    split_ifs
    · exact quiet_crash
    · exact quiet_call rfl fun _ h => nomatch h
  · dsimp only
    split_ifs
    · trivial
    · refine all_call (fun _ _ h => nomatch h) (fun index => ?_) fun index => ?_ <;> split
      · exact quiet_refuse _
      · exact quiet_storeProgram _ _ _
      · trivial
      · exact all_storeProgram _ _ _

end route

theorem all_storeSession {info : SessionInfo} {t : Component} {next : Program} (hq : Quiet next)
    (hn : next.All (Shape j)) : (storeSession info t next).All (Shape j) :=
  all_call (fun _ _ h => nomatch h) (fun _ => quiet_call rfl fun _ h => nomatch h) fun _ =>
    all_call (fun _ _ h => nomatch h) (fun _ => hq) fun _ => hn

end

theorem all_redeem (r : RedeemRequest) (id : String) :
    (Job.handler ⟨.redeem r, id⟩).All (Shape ⟨.redeem r, id⟩) := by
  rw [handler_redeem]
  refine all_checkedSession (fun _ op hm => nomatch hm) (fun _ n h => nomatch h) fun _ => ?_
  refine all_checkedConversation (fun _ op hm => List.mem_singleton.mp hm) (fun _ n h => nomatch h)
    fun _ => ?_
  refine ⟨⟨fun route op hm => ?_, fun route n hn => ?_, fun c route ho => nomatch ho⟩,
    fun route => ?_⟩ <;> cases route with
    | none => trivial
    | some route => ?_
  · left
    change op ∈ relies (if route.endRoute = true then _ else _) at hm
    split_ifs at hm with hend
    · exact ⟨hm, hend⟩
    · simp [reply, relies] at hm
  · obtain rfl : r.nonce = n := by simpa [Prog.head?] using hn
    rfl
  · refine ⟨⟨fun _ op hm => .inl ⟨hm, rfl⟩, fun _ n hn => ?_, fun c route ho => nomatch ho⟩,
      fun _ => ?_⟩
    · split_ifs at hn <;> nomatch hn
    · split_ifs
      · refine all_fetchedConversation (fun _ => quiet_call rfl fun _ h => nomatch h) fun _ => ?_
        exact all_call (fun _ _ h => nomatch h) (fun _ => quiet_reply _) fun _ => trivial
      · trivial

theorem all_handler (j : Job) : j.handler.All (Shape j) := by
  obtain ⟨request, id⟩ := j
  cases request with
  | login remoteAddr r =>
    rw [handler_login]
    cases remoteAddr with
    | none => trivial
    | some clientIp =>
      dsimp only
      split_ifs
      · trivial
      · cases Component.fromI32 r.componentType with
        | none => trivial
        | some componentType =>
          dsimp only
          split_ifs
          · trivial
          · refine all_call (fun _ _ h => nomatch h) (fun member => ?_) fun member => ?_ <;>
              split_ifs
            · exact quiet_call rfl fun _ h => nomatch h
            · exact quiet_refuse _
            · exact all_storeSession (quiet_reply _) trivial
            · trivial
  | logout r =>
    rw [handler_logout]
    refine all_checkedSession (fun _ op hm => nomatch hm) (fun _ n h => nomatch h) fun _ => ?_
    refine all_call (fun _ _ h => nomatch h) (fun | none => quiet_reply _ | some w => ?_)
      fun | none => trivial | some w => ?_
    · exact quiet_call rfl fun _ h => nomatch h
    · exact all_call (fun _ _ h => nomatch h) (fun _ => quiet_reply _) fun _ => trivial
  | ping remoteAddr r =>
    rw [handler_ping]
    cases remoteAddr with
    | none => trivial
    | some clientIp =>
      refine all_checkedSession (fun _ op hm => List.mem_singleton.mp hm) (fun _ n h => nomatch h)
        fun _ => ?_
      refine all_fetchedSession (fun info => ?_) fun info => ?_ <;> split_ifs
      · exact quiet_call rfl fun _ h => nomatch h
      · exact quiet_refuse _
      · exact all_call (fun _ _ h => nomatch h) (fun _ => quiet_reply _) fun _ => trivial
      · trivial
  | init r =>
    rw [handler_init]
    refine all_checkedSession (fun _ op hm => List.mem_singleton.mp hm) (fun _ n h => nomatch h)
      fun _ => ?_
    refine all_fetchedSession (fun info => quiet_call rfl fun _ h => nomatch h) fun info => ?_
    exact all_call (fun _ _ h => nomatch h) (fun | none => quiet_refuse _ | some _ => quiet_reply _)
      fun | none => trivial | some _ => trivial
  | route r =>
    rw [handler_route]
    refine all_checkedSession (fun _ op hm => nomatch hm) (fun _ n h => nomatch h) fun _ => ?_
    refine all_checkedConversation (fun _ op hm => List.mem_singleton.mp hm)
      (fun _ n h => nomatch h) fun _ => ?_
    refine all_fetchedConversation (fun v => ?_) fun v => ?_ <;> split_ifs
    · exact quiet_call rfl fun _ h => nomatch h
    · exact quiet_call rfl fun _ h => nomatch h
    · exact quiet_crash
    · exact all_finalProgram _
    · exact all_hopProgram
    · trivial
  | redeem r => exact all_redeem r id
  | status version r =>
    rw [handler_status]
    refine all_checkedSession (fun _ op hm => nomatch hm) (fun _ n h => nomatch h) fun _ => ?_
    refine all_call (fun _ _ h => nomatch h)
      (fun _ => quiet_call rfl fun _ h => nomatch h) fun _ => ?_
    refine all_call (fun _ _ h => nomatch h)
      (fun _ => quiet_call rfl fun _ h => nomatch h) fun _ => ?_
    exact all_call (fun _ _ h => nomatch h) (fun _ => quiet_reply _) fun _ => trivial
  | register uid clientIp settings => exact all_storeSession (quiet_reply _) trivial
  | sweepSessions => exact all_call (fun _ _ h => nomatch h) (fun _ => quiet_reply _) fun _ => trivial
  | sweepRoutes => exact all_call (fun _ _ h => nomatch h) (fun _ => quiet_reply _) fun _ => trivial

theorem quiet_handler (j : Job) : Quiet j.handler := by
  obtain ⟨request, id⟩ := j
  cases request with
  | login remoteAddr r =>
    rw [handler_login]
    cases remoteAddr with
    | none => exact quiet_refuse _
    | some clientIp =>
      dsimp only
      split_ifs
      · exact quiet_refuse _
      · cases Component.fromI32 r.componentType with
        | none => exact quiet_crash
        | some componentType =>
          dsimp only
          split_ifs
          · exact quiet_refuse _
          · exact quiet_call rfl fun _ h => nomatch h
  | ping remoteAddr r =>
    cases remoteAddr with
    | none => exact quiet_refuse _
    | some clientIp => exact quiet_call rfl fun _ h => nomatch h
  | _ => exact quiet_call rfl fun _ h => nomatch h

end FuzzyChat
