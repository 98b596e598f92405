import FuzzyChat.Controller.Admission
import FuzzyChat.Controller.Expiry
import FuzzyChat.Interleave.Lasting

/-! How long the session of a key is upheld, one step of the controller after the other, and what a
login and a ping find meanwhile. -/

namespace FuzzyChat
open Interleave

def Takes (j : Job) : RepoOp → Prop
  | .takeSession k => j.request = .logout ⟨k⟩
  | _ => True

theorem takes_handler (j : Job) : j.handler.All fun op _ => Takes j op := by
  obtain ⟨request, id⟩ := j
  cases request with
  | login remoteAddr r =>
    rw [handler_login]
    cases remoteAddr with
    | none => trivial
    | some clientIp =>
      dsimp only
      split_ifs
      · trivial
      · cases Component.fromI32 r.componentType with
        | none => trivial
        | some componentType =>
          dsimp only
          split_ifs
          · trivial
          · refine ⟨trivial, fun member => ?_⟩
            dsimp only
            split_ifs
            · exact ⟨trivial, fun _ => ⟨trivial, fun _ => trivial⟩⟩
            · trivial
  | logout r =>
    rw [handler_logout]
    refine ⟨trivial, fun | none => trivial | some _ => ⟨rfl, ?_⟩⟩
    exact fun | none => trivial | some _ => ⟨trivial, fun _ => trivial⟩
  | ping remoteAddr r =>
    rw [handler_ping]
    cases remoteAddr with
    | none => trivial
    | some clientIp =>
      refine ⟨trivial, fun | none => trivial | some _ => ⟨trivial, ?_⟩⟩
      refine fun | none => trivial | some session => ?_
      dsimp only
      split_ifs
      · exact ⟨trivial, fun _ => trivial⟩
      · trivial
  | init r =>
    rw [handler_init]
    refine ⟨trivial, fun | none => trivial | some _ => ⟨trivial, ?_⟩⟩
    refine fun | none => trivial | some info => ⟨trivial, ?_⟩
    exact fun | none => trivial | some _ => trivial
  | route r =>
    rw [handler_route]
    refine ⟨trivial, fun | none => trivial | some _ => ⟨trivial, ?_⟩⟩
    refine fun | none => trivial | some _ => ⟨trivial, fun | none => trivial | some v => ?_⟩
    dsimp only
    split_ifs
    · refine ⟨trivial, fun | none => trivial | some key => ⟨trivial, ?_⟩⟩
      exact fun
        | none => trivial
        | some info => ⟨trivial, fun | none => trivial | some _ => trivial⟩
    · refine ⟨trivial, fun | none => trivial | some proxies => ?_⟩
      dsimp only
      split_ifs
      · trivial
      · refine ⟨trivial, fun index => ?_⟩
        dsimp only
        split
        · trivial
        · exact ⟨trivial, fun | none => trivial | some _ => trivial⟩
    · trivial
  | redeem r =>
    rw [handler_redeem]
    refine ⟨trivial, fun | none => trivial | some _ => ⟨trivial, ?_⟩⟩
    refine fun | none => trivial | some _ => ⟨trivial, fun | none => trivial | some route => ?_⟩
    refine ⟨trivial, fun _ => ?_⟩
    dsimp only
    split_ifs
    · exact ⟨trivial, fun | none => trivial | some _ => ⟨trivial, fun _ => trivial⟩⟩
    · trivial
  | status version r =>
    rw [handler_status]
    refine ⟨trivial, fun | none => trivial | some _ => ⟨trivial, ?_⟩⟩
    exact fun _ => ⟨trivial, fun _ => ⟨trivial, fun _ => trivial⟩⟩
  | register uid clientIp settings => exact ⟨trivial, fun _ => ⟨trivial, fun _ => trivial⟩⟩
  | sweepSessions => exact ⟨trivial, fun _ => trivial⟩
  | sweepRoutes => exact ⟨trivial, fun _ => trivial⟩

def LogoutSent (p : ControllerPool) (k : String) : Prop :=
  ∃ j ∈ p.hist.jobs, j.request = .logout ⟨k⟩

theorem LogoutSent.step {p q : ControllerPool} {m : ControllerMove} {k : String}
    (h : LogoutSent p k) (hq : p.step m = some q) : LogoutSent q k := by
  obtain ⟨j, hj, hlogout⟩ := h
  exact ⟨j, (Pool.before_step hq).jobs.subset hj, hlogout⟩

/-- The session is stored as at its login, and was in use at some time from `since` on. -/
def Upheld (p : ControllerPool) (info : SessionInfo) (since : Nat) : Prop :=
  ∃ last, since ≤ last ∧ last ≤ p.state.now ∧ Renewed p.state info last

theorem Upheld.mono {p : ControllerPool} {info : SessionInfo} {since since' : Nat}
    (h : Upheld p info since) (hle : since' ≤ since) : Upheld p info since' := by
  obtain ⟨last, hlast, hnow, hr⟩ := h
  exact ⟨last, hle.trans hlast, hnow, hr⟩

theorem Upheld.sessionOf {p : ControllerPool} {info : SessionInfo} {since : Nat}
    (h : Upheld p info since) : p.state.sessions.sessionOf info.accessKey = some info := by
  obtain ⟨last, -, -, hr⟩ := h
  rw [SessionStore.sessionOf, hr]
  rfl

theorem Upheld.lodged {members : Table String Member} {p : ControllerPool}
    (hp : Reachable (Storage.start members) p) {info : SessionInfo} {since : Nat}
    (h : Upheld p info since) :
    ∃ e ∈ p.log, e.op.lodges = some (.accessKey, info.accessKey) := by
  obtain ⟨last, -, -, hr⟩ := h
  apply lodged_of_keeps hp
  show p.state.sessions.sessions.lookup info.accessKey ≠ none
  rw [hr]
  exact Option.some_ne_none _

theorem upheld_lookup {p : ControllerPool} {i : Nat} {j : Job} {info : SessionInfo} {since : Nat}
    {k : Option SessionInfo → Program} (c : Choice) (h : Upheld p info since) :
    Upheld (p.advance (S := controller) i j (.getSession info.accessKey) k
      (p.state.step c (.getSession info.accessKey)).1
      (p.state.step c (.getSession info.accessKey)).2) info p.state.now := by
  obtain ⟨last, -, -, hr⟩ := h
  refine ⟨p.state.now + c.elapsed, Nat.le_add_right _ _, ?_, renewed_lookup hr c⟩
  exact (Storage.now_step p.state c _).ge

theorem Upheld.step {members : Table String Member} {p q : ControllerPool}
    (hp : Reachable (Storage.start members) p) {m : ControllerMove} (hq : p.step m = some q)
    {info : SessionInfo} {since : Nat} (h : Upheld p info since)
    (hout : ¬ LogoutSent q info.accessKey)
    (htime : q.state.now ≤ since + SESSIONS_EXPIRATION_TIME) : Upheld q info since := by
  rcases controller_step hq with ⟨j, -, rfl⟩ | ⟨i, c, j, op, k, -, ht, rfl⟩
  · exact h
  · have hsince : since ≤ p.state.now := by
      obtain ⟨last, hlast, hnow, -⟩ := h
      exact hlast.trans hnow
    by_cases hget : op = .getSession info.accessKey
    · subst hget
      exact (upheld_lookup c h).mono hsince
    · have hlodges : op.lodges ≠ some (.accessKey, info.accessKey) := fun hl => by
        obtain ⟨e, he, hel⟩ := h.lodged hp
        exact lodged_once hp ht hl e he hel
      have htakes : op ≠ .takeSession info.accessKey := by
        rintro rfl
        have hjob : j ∈ p.hist.jobs := List.mem_map_of_mem (List.mem_of_getElem? ht)
        refine hout ⟨j, ?_, (hp.all takes_handler i j _ ht).1⟩
        rw [Pool.hist_advance ht]
        exact hjob
      have hown : ∀ k w, p.state.sessions.sessions.lookup k = some w → w.value.accessKey = k :=
        fun k w hw => ((coherent_of_reach hp).sessions k w hw).1
      obtain ⟨last, hlast, hnow, hr⟩ := h
      have htime' : p.state.now + c.elapsed ≤ since + SESSIONS_EXPIRATION_TIME := by
        rw [← Storage.now_step p.state c op]
        exact htime
      have hstep := renewed_step hown hlodges hget htakes hr
        (htime'.trans (Nat.add_le_add_right hlast _))
      refine ⟨last, hlast, ?_, hstep⟩
      show last ≤ (p.state.step c op).2.now
      rw [Storage.now_step]
      omega

/-! A login. -/

def Guarded (p : ControllerPool) (info : SessionInfo) (since : Nat) : Prop :=
  (∃ e ∈ p.log, e.op.lodges = some (.accessKey, info.accessKey)) →
    LogoutSent p info.accessKey ∨ Upheld p info since

theorem Guarded.step {members : Table String Member} {p q : ControllerPool}
    (hp : Reachable (Storage.start members) p) {m : ControllerMove} (hq : p.step m = some q)
    {info : SessionInfo} (hinfo : Enrolled p.hist.jobs info) {since : Nat}
    (h : Guarded p info since) (hsince : since ≤ p.state.now)
    (htime : q.state.now ≤ since + SESSIONS_EXPIRATION_TIME) : Guarded q info since := by
  intro hlodged
  by_cases hout : LogoutSent q info.accessKey
  · exact .inl hout
  · right
    have hold : (∃ e ∈ p.log, e.op.lodges = some (.accessKey, info.accessKey)) →
        Upheld q info since := fun hold => by
      rcases h hold with hsent | hupheld
      · exact absurd (hsent.step hq) hout
      · exact hupheld.step hp hq hout htime
    rcases controller_step hq with ⟨j, -, rfl⟩ | ⟨i, c, j, op, k, -, ht, rfl⟩
    · exact hold hlodged
    · obtain ⟨e, he, hl⟩ := hlodged
      rcases List.mem_cons.mp he with rfl | he
      · -- the session of the key that is put in is this one
        cases op with
        | insertSession info' =>
          have hkey : info'.accessKey = info.accessKey :=
            (Prod.mk.inj (Option.some.inj hl)).2
          have hq' := hp.step (m := m) trivial hq
          have henrolled := (coherent_of_reach hq').steps i p.state (.insertSession info') () he
          have hsame : info' = info :=
            (coherent_of_reach hq').enrolled_eq henrolled
              (hinfo.mono (Pool.before_step hq).jobs) hkey
          subst hsame
          refine ⟨p.state.now + c.elapsed, by omega, ?_, AList.lookup_insert _⟩
          exact (Storage.now_step p.state c _).ge
        | _ => cases hl
      · exact hold ⟨e, he, hl⟩

theorem guarded_accept {members : Table String Member} {p : ControllerPool}
    (hp : Reachable (Storage.start members) p) {j : Job} {info : SessionInfo}
    (hj : controller.admits p.hist.jobs j) (hinfo : j.session? = some info) (since : Nat) :
    Guarded (p.accept j) info since := by
  rintro ⟨e, he, hl⟩
  obtain ⟨t, ht, hdraws, hid, -⟩ := lodger_done hp e he _ _ hl
  obtain ⟨hdraws', hid', -⟩ := Job.session?_eq_some hinfo
  have hmem : t.1 ∈ p.hist.jobs := List.mem_map_of_mem (List.mem_of_getElem? ht)
  have hapart := hj t.1 hmem (by simp [hdraws']) (hdraws'.trans hdraws.symm)
  exact absurd (hid'.symm.trans hid.symm) hapart

theorem lodged_of_login {members : Table String Member} {p : ControllerPool}
    (hp : Reachable (Storage.start members) p) {i : Nat} {addr : SocketAddr} {r : LoginRequest}
    {accessKey : String} {response : LoginResponse}
    (ht : p.tasks[i]? = some (⟨.login (some addr) r, accessKey⟩, .ret (.ok (.login response)))) :
    response.accessKey = accessKey ∧
      (∃ info, (⟨.login (some addr) r, accessKey⟩ : Job).session? = some info) ∧
      ∃ e ∈ p.log, e.op.lodges = some (.accessKey, accessKey) := by
  cases login_outcome hp ht with
  | panic _ ha => cases ha
  | turnedAway _ _ ha =>
    obtain ⟨status, hstatus⟩ := ha.result
    cases hstatus
  | letIn hlets ha =>
    obtain ⟨-, huid, -⟩ := hlets
    obtain ⟨c, info, hc, hops, hkey, -⟩ := ha.session
    have hempty : r.uid.isEmpty = false :=
      Bool.eq_false_iff.mpr fun h => huid (String.isEmpty_iff.mp h)
    have hmem : RepoOp.insertSession info ∈ (p.hist.own i).map Event.op := by
      rw [hops]
      simp
    obtain ⟨e, he, hop⟩ := List.mem_map.mp hmem
    refine ⟨?_, ?_, e, (Hist.mem_own.mp he).1, ?_⟩
    · have hresult := ha.result
      cases hresult
      rfl
    · simp [Job.session?, hempty, hc]
    · rw [hop, ← hkey]
      rfl

/-! A ping. -/

def Finds (info : SessionInfo) : (op : RepoOp) → op.Res → Prop
  | .getSession k, r => k = info.accessKey → r = some info
  | _, _ => True

theorem Upheld.finds {p : ControllerPool} {info : SessionInfo} {since : Nat}
    (h : Upheld p info since) (c : Choice) (op : RepoOp) : Finds info op (p.state.step c op).1 := by
  cases op with
  | getSession k =>
    rintro rfl
    rw [Storage.step_getSession]
    exact h.sessionOf
  | _ => trivial

def Ponged (a : Except Abort Reply) : Prop := ∃ r, a = .ok (.ping r)

theorem within_ping {info : SessionInfo} (id : String) :
    (Job.handler ⟨.ping (some info.clientIp) ⟨info.accessKey⟩, id⟩).Within (Finds info)
      (fun _ => True) Ponged := by
  rw [handler_ping]
  refine ⟨trivial, fun found hfound => ?_⟩
  rw [hfound rfl]
  refine ⟨trivial, fun found hfound => ?_⟩
  rw [hfound rfl]
  show Prog.Within _ _ _ (if info.clientIp = info.clientIp then _ else _)
  rw [if_pos rfl]
  exact ⟨trivial, fun timestamp _ => ⟨_, rfl⟩⟩

structure Pings (p : ControllerPool) (info : SessionInfo) (due i : Nat) (pr : Program) : Prop where
  task : ∃ id, p.tasks[i]? = some (⟨.ping (some info.clientIp) ⟨info.accessKey⟩, id⟩, pr)
  accepted : pr.Within (Finds info) (fun _ => True) Ponged
  used : pr.head? = some (.getSession info.accessKey) ∨ Upheld p info due

theorem pings_accept {p : ControllerPool} {info : SessionInfo} (due : Nat) (id : String) :
    ∃ pr, Pings (p.accept ⟨.ping (some info.clientIp) ⟨info.accessKey⟩, id⟩) info due
      p.tasks.length pr := by
  refine ⟨_, ⟨id, Pool.tasks_accept.mpr (.inr ⟨rfl, rfl⟩)⟩, within_ping id, .inl ?_⟩
  show (Job.handler ⟨.ping (some info.clientIp) ⟨info.accessKey⟩, id⟩).head? =
    some (.getSession info.accessKey)
  rw [handler_ping]
  rfl

theorem Pings.step {members : Table String Member} {p q : ControllerPool}
    (hp : Reachable (Storage.start members) p) {m : ControllerMove} (hq : p.step m = some q)
    {info : SessionInfo} {due i : Nat} {pr : Program} (h : Pings p info due i pr) {since : Nat}
    (hu : Upheld p info since) (hdue : due ≤ p.state.now)
    (hout : ¬ LogoutSent q info.accessKey)
    (htime : q.state.now ≤ due + SESSIONS_EXPIRATION_TIME) : ∃ pr', Pings q info due i pr' := by
  have hused : Upheld p info due → Upheld q info due := fun hd => hd.step hp hq hout htime
  obtain ⟨⟨id, ht⟩, haccepted, hstarted⟩ := h
  rcases controller_step hq with ⟨j, -, rfl⟩ | ⟨i', c, j, op, k, -, ht', rfl⟩
  · exact ⟨pr, ⟨id, Pool.tasks_accept.mpr (.inl ht)⟩, haccepted, hstarted.imp_right hused⟩
  · by_cases hi : i = i'
    · subst hi
      cases ht.symm.trans ht'
      refine ⟨_, ⟨id, (Pool.tasks_advance ht).mpr (.inl ⟨rfl, rfl⟩)⟩,
        haccepted.2 _ (hu.finds c op), .inr ?_⟩
      rcases hstarted with hhead | hd
      · cases hhead
        exact (upheld_lookup c hu).mono hdue
      · exact hused hd
    · exact ⟨pr, ⟨id, (Pool.tasks_advance ht').mpr (.inr ⟨hi, ht⟩)⟩, haccepted,
        hstarted.imp_right hused⟩

theorem Pings.returned {p : ControllerPool} {info : SessionInfo} {due i : Nat} {pr : Program}
    (h : Pings p info due i pr) {j : Job} {a : Except Abort Reply}
    (ha : p.returned i = some (j, a)) : Ponged a ∧ Upheld p info due := by
  obtain ⟨⟨id, ht⟩, haccepted, hused⟩ := h
  cases ht.symm.trans (Pool.returned_eq_some.mp ha)
  refine ⟨haccepted, hused.resolve_left ?_⟩
  exact Option.some_ne_none _ ∘ Eq.symm

end FuzzyChat
