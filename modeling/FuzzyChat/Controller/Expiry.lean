import FuzzyChat.Controller.Records

/-! Records and time: what has expired is rejected from the next sweep on, and what is used in time
stays. -/

namespace FuzzyChat
open Interleave

namespace Storage

def expiry? (s : Storage) : IdKind → String → Option Nat
  | .accessKey, k => (s.sessions.sessions.lookup k).map ExpirationWrapper.expiresAt
  | .conversationId, c => (s.routes.conversations.lookup c).map ExpirationWrapper.expiresAt
  | .nonce, n => (s.routes.routes.lookup n).map ExpirationWrapper.expiresAt

theorem keeps_iff {s : Storage} {kind : IdKind} {id : String} :
    s.Keeps kind id ↔ s.expiry? kind id ≠ none := by
  cases kind <;> simp [Keeps, expiry?]

/-- The lookups of a session, `get_client` in the last of its two sections, do not answer with it,
and do not renew it. -/
structure RejectsKey (s : Storage) (c : Choice) (k : String) : Prop where
  session : (s.step c (.getSession k)).1 = none
  proxies : ∀ k' infos, (s.step c (.getProxies k')).1 = some infos →
    ∀ info ∈ infos, info.accessKey ≠ k
  client : ∀ k' info, (s.step c (.sessionOf k')).1 = some info → info.accessKey ≠ k
  renewed : (s.step c (.getSession k)).2.expiry? .accessKey k = s.expiry? .accessKey k

/-- A request that presents the identifier when the choice says is not honoured. -/
def Rejects (s : Storage) (c : Choice) : IdKind → String → Prop
  | .accessKey, k => s.RejectsKey c k
  | .conversationId, id => (s.step c (.getConversation id)).1 = none
  | .nonce, n => ∀ id, (s.step c (.getRoute id n)).1 = none

end Storage

def IdKind.sweep : IdKind → RepoOp
  | .accessKey => .killExpiredSessions
  | .conversationId | .nonce => .killExpiredRoutes

theorem lookup_unexpired {α : Type} {t : Table String (ExpirationWrapper α)} {id : String}
    {w : ExpirationWrapper α} {now : Nat} (hw : t.lookup id = some w) (hx : w.isExpired now = true) :
    (t.retain fun _ w => !w.isExpired now).lookup id = none := by
  have hstale : (!w.isExpired now) = false := by rw [hx, Bool.not_true]
  rw [AList.lookup_retain, hw, Option.filter_some, hstale]
  exact if_neg nofun

theorem Storage.not_keeps_sweep {s : Storage} {c : Choice} {kind : IdKind} {id : String} {t : Nat}
    (hown : ∀ k w, s.sessions.sessions.lookup k = some w → w.value.accessKey = k)
    (hx : s.expiry? kind id = some t) (hlt : t < s.now + c.elapsed) :
    ¬ (s.step c kind.sweep).2.Keeps kind id := by
  have hexpired : ∀ {α : Type} (w : ExpirationWrapper α), w.expiresAt = t →
      w.isExpired (s.now + c.elapsed) = true := by
    rintro α w rfl
    exact decide_eq_true hlt
  intro hk
  cases kind with
  | accessKey =>
    obtain ⟨w, hw, ht⟩ := Option.map_eq_some_iff.mp hx
    obtain ⟨w', hw'⟩ := Option.ne_none_iff_exists'.mp hk
    obtain ⟨-, hno⟩ := (SessionStore.lookup_foldl_removeExpired _ _ id w').mp hw'
    -- the sweep removes by the key inside the session, which is the one it is stored under
    apply hno (w.value.accessKey, w.value.uid)
    · exact SessionStore.mem_expiredSessions.mpr ⟨id, w, hw, hexpired w ht, rfl⟩
    · exact hown id w hw
  | conversationId =>
    obtain ⟨w, hw, ht⟩ := Option.map_eq_some_iff.mp hx
    exact hk (lookup_unexpired hw (hexpired w ht))
  | nonce =>
    obtain ⟨w, hw, ht⟩ := Option.map_eq_some_iff.mp hx
    exact hk (lookup_unexpired hw (hexpired w ht))

theorem Storage.rejects_of_gone {s : Storage} {kind : IdKind} {id : String}
    (hown : ∀ k w, s.sessions.sessions.lookup k = some w → w.value.accessKey = k)
    (hgone : ¬ s.Keeps kind id) (c : Choice) : s.Rejects c kind id := by
  cases kind with
  | accessKey =>
    have hnone : s.sessions.sessions.lookup id = none := not_not.mp hgone
    have hsession : s.sessions.sessionOf id = none := by
      rw [SessionStore.sessionOf, hnone, Option.map_none]
    have howner : ∀ k info, s.sessions.sessionOf k = some info → info.accessKey ≠ id := by
      rintro k info hs rfl
      obtain ⟨w, hw, rfl⟩ := Option.map_eq_some_iff.mp hs
      rw [hown k w hw, hs] at hsession
      cases hsession
    refine ⟨?_, fun k' infos hp info hm => ?_, fun k' info hs => howner k' info hs, ?_⟩
    · rw [step_getSession, hsession]
    · rw [step_getProxies] at hp
      obtain ⟨listed, hl, rfl⟩ := Option.map_eq_some_iff.mp hp
      obtain ⟨uid, k, -, -, hs⟩ :=
        (SessionStore.mem_getProxies hl).mp ((reorder_perm c.index listed).mem_iff.mp hm)
      exact howner k info hs
    · change ((s.sessions.sessions.modify id _).lookup id).map _ = _
      rw [AList.lookup_modify, if_pos rfl, hnone]
      rw [expiry?, hnone]
      rfl
  | conversationId =>
    have hnone : s.routes.conversations.lookup id = none := not_not.mp hgone
    rw [Rejects, step_getConversation, RouteStore.getConversation, hnone, Option.map_none]
  | nonce =>
    have hnone : s.routes.routes.lookup id = none := not_not.mp hgone
    intro c'
    rw [step_getRoute, RouteStore.getRoute, hnone, Option.map_none]

/-- A record that has expired is rejected from the next pass of its sweep on, whatever comes
after. -/
theorem rejected_once_swept {members : Table String Member} {p q q' : ControllerPool}
    (hp : Reachable (Storage.start members) p) {kind : IdKind} {id : String} {t i : Nat} {c : Choice}
    {ms : List ControllerMove} (hx : p.state.expiry? kind id = some t)
    (hsweep : (p.tasks[i]?.bind fun t => t.2.head?) = some kind.sweep)
    (hlt : t < p.state.now + c.elapsed) (hq : p.step (.act i c) = some q)
    (hq' : q.run ms = some q') (c' : Choice) : q'.state.Rejects c' kind id := by
  have hown : ∀ {p : ControllerPool}, Reachable (Storage.start members) p →
      ∀ k w, p.state.sessions.sessions.lookup k = some w → w.value.accessKey = k :=
    fun hp k w hw => ((coherent_of_reach hp).sessions k w hw).1
  have hq₁ : Reachable (Storage.start members) q := hp.step trivial hq
  have hq₂ : Reachable (Storage.start members) q' := hq₁.run (Pool.obeys_true _ ms) hq'
  have hstored : p.state.Keeps kind id := Storage.keeps_iff.mpr (by rw [hx]; exact nofun)
  have hgone : ¬ q.state.Keeps kind id := by
    rcases controller_step hq with ⟨j, hm, -⟩ | ⟨i', c', j, op, k, hm, ht, rfl⟩
    · nomatch hm
    · cases hm
      rw [ht] at hsweep
      obtain rfl : op = kind.sweep := Option.some.inj hsweep
      exact Storage.not_keeps_sweep (hown hp) hx hlt
  apply Storage.rejects_of_gone (hown hq₂)
  have hrun : p.run [.act i c] = some q := by
    rw [Pool.run, hq]
    rfl
  exact gone_for_good hp hrun hq' hstored hgone

def signInThenSweep : List ControllerMove :=
  inTurn [(signIn "alice" 2 "k-alice", 3)] ++ [.spawn ⟨.sweepSessions, ""⟩]

theorem rejected_once_swept_sample : ∃ q : ControllerPool,
    Reachable (Storage.start sampleMembers) q ∧ q.state.Rejects ⟨0, 0⟩ .accessKey "k-alice" := by
  obtain ⟨p, hrun, h⟩ : ∃ p, (Pool.start (Storage.start sampleMembers) : ControllerPool).run
      signInThenSweep = some p ∧ (p.state.expiry? .accessKey "k-alice",
        p.tasks[1]?.bind fun t => t.2.head?, p.state.now, (p.step (.act 1 ⟨10001, 0⟩)).isSome) =
          (some 10000, some .killExpiredSessions, 0, true) := exists_run (by decide)
  simp only [Prod.mk.injEq] at h
  obtain ⟨hx, hsweep, hnow, hsome⟩ := h
  obtain ⟨q, hq⟩ := Option.isSome_iff_exists.mp hsome
  have hp := Reachable.of_run hrun
  have hlt : 10000 < p.state.now + 10001 := by omega
  have hend : q.run [] = some q := rfl
  exact ⟨q, hp.step trivial hq, rejected_once_swept hp hx hsweep hlt hq hend ⟨0, 0⟩⟩

/-- Without a sweep, Alice's session is answered with twelve seconds after she signed in. -/
theorem expired_honoured : ¬ ∀ (members : Table String Member) (p : ControllerPool),
    Reachable (Storage.start members) p → ∀ kind id t (c : Choice),
      p.state.expiry? kind id = some t → t < p.state.now + c.elapsed → p.state.Rejects c kind id := by
  intro hall
  obtain ⟨p, hrun, h⟩ : ∃ p, (Pool.start (Storage.start sampleMembers) : ControllerPool).run
      (inTurn [(signIn "alice" 2 "k-alice", 3)]) = some p ∧
        (p.state.expiry? .accessKey "k-alice", p.state.now,
          (p.state.step ⟨12000, 0⟩ (.getSession "k-alice")).1.isSome) = (some 10000, 0, true) :=
    exists_run (by decide)
  simp only [Prod.mk.injEq] at h
  obtain ⟨hx, hnow, hsome⟩ := h
  have hlt : 10000 < p.state.now + 12000 := by omega
  have hrejects : p.state.RejectsKey ⟨12000, 0⟩ "k-alice" :=
    hall _ p (Reachable.of_run hrun) .accessKey _ _ ⟨12000, 0⟩ hx hlt
  rw [hrejects.session] at hsome
  nomatch hsome

/-- A sweep takes out the expired sessions and no others, though it goes by the key inside each. -/
theorem sweep_exact {members : Table String Member} {p : ControllerPool}
    (hp : Reachable (Storage.start members) p) (t : Nat) (k : String)
    (w : ExpirationWrapper SessionInfo) :
    (p.state.sessions.killExpiredSessions t).sessions.lookup k = some w ↔
      p.state.sessions.sessions.lookup k = some w ∧ t ≤ w.expiresAt := by
  have hc := coherent_of_reach hp
  unfold SessionStore.killExpiredSessions
  rw [SessionStore.lookup_foldl_removeExpired]
  apply and_congr_right
  intro hw
  constructor
  · intro hkept
    by_contra hlt
    have hx : w.isExpired t = true := decide_eq_true (Nat.lt_of_not_le hlt)
    exact hkept _ (SessionStore.mem_expiredSessions.mpr ⟨k, w, hw, hx, rfl⟩) (hc.sessions k w hw).1
  · rintro hle e he rfl
    obtain ⟨k', w', hw', hx, rfl⟩ := SessionStore.mem_expiredSessions.mp he
    rw [(hc.sessions k' w' hw').1, hw'] at hw
    cases hw
    exact absurd (of_decide_eq_true hx) (Nat.not_lt.mpr hle)

theorem sweep_exact_sample : ∃ (p : ControllerPool) (w : ExpirationWrapper SessionInfo),
    Reachable (Storage.start sampleMembers) p ∧ w.value.uid = "alice" ∧
    (p.state.sessions.killExpiredSessions 10000).sessions.lookup "k-alice" = some w := by
  obtain ⟨p, hrun, h⟩ : ∃ p, (Pool.start (Storage.start sampleMembers) : ControllerPool).run
      (inTurn [(signIn "alice" 2 "k-alice", 3)]) = some p ∧
        (p.state.sessions.sessions.lookup "k-alice").map (fun w => (w.value.uid, w.expiresAt)) =
          some ("alice", 10000) := exists_run (by decide)
  obtain ⟨w, hw, h⟩ := Option.map_eq_some_iff.mp h
  obtain ⟨huid, hend⟩ := Prod.mk.inj h
  exact ⟨p, w, Reachable.of_run hrun, huid,
    (sweep_exact (Reachable.of_run hrun) 10000 "k-alice" w).mpr ⟨hw, Nat.le_of_eq hend.symm⟩⟩

/-! A key in use: the times at which it is accessed, and how long its session stays. -/

/-- When the events that access the key took place, back to the insertion of its session; `now` is
the time of the newest event, and each event's state that of the one before. -/
def accesses (k : String) (now : Nat) : List (Event controller) → List Nat
  | [] => []
  | e :: es =>
    if e.op.lodges = some (.accessKey, k) then [now]
    else if e.op = .getSession k then now :: accesses k e.pre.now es
    else accesses k e.pre.now es

def InTime (later earlier : Nat) : Prop := later ≤ earlier + SESSIONS_EXPIRATION_TIME

instance (later earlier : Nat) : Decidable (InTime later earlier) := by
  unfold InTime
  infer_instance

def TakenOut (h : ControllerHist) (k : String) : Prop :=
  ∃ i pre w, h.Did i pre (.takeSession k) (some w)

/-- The session is stored as at its login, to end as long after the last access as sessions last. -/
def Renewed (s : Storage) (info : SessionInfo) (last : Nat) : Prop :=
  s.sessions.sessions.lookup info.accessKey =
    some ⟨info, last + SESSIONS_EXPIRATION_TIME, SESSIONS_EXPIRATION_TIME⟩

theorem renewed_step {s : Storage} {c : Choice} {op : RepoOp} {info : SessionInfo} {last : Nat}
    (hown : ∀ k w, s.sessions.sessions.lookup k = some w → w.value.accessKey = k)
    (hl : op.lodges ≠ some (.accessKey, info.accessKey)) (hg : op ≠ .getSession info.accessKey)
    (ht : op ≠ .takeSession info.accessKey) (hr : Renewed s info last)
    (htime : InTime (s.now + c.elapsed) last) : Renewed (s.step c op).2 info last := by
  cases op with
  | insertIndex t uid k =>
    rw [Renewed, show (s.step c (.insertIndex t uid k)).2.sessions.sessions = s.sessions.sessions from
      SessionStore.sessions_insertIndex _ _ _ _]
    exact hr
  | insertSession info' =>
    have hne : info.accessKey ≠ info'.accessKey := fun he => hl (by rw [he]; rfl)
    exact (AList.lookup_insert_ne hne).trans hr
  | getSession k =>
    have hne : info.accessKey ≠ k := fun he => hg (by rw [he])
    change (s.sessions.sessions.modify k _).lookup info.accessKey = _
    rw [AList.lookup_modify, if_neg hne]
    exact hr
  | takeSession k =>
    have hne : info.accessKey ≠ k := fun he => ht (by rw [he])
    exact (AList.lookup_erase_ne hne).trans hr
  | killExpiredSessions =>
    refine (SessionStore.lookup_foldl_removeExpired _ _ _ _).mpr ⟨hr, ?_⟩
    -- what the sweep removes under this key is this session, and it is not stale
    intro e he hkey
    obtain ⟨k, w, hw, hstale, rfl⟩ := SessionStore.mem_expiredSessions.mp he
    have hk : k = info.accessKey := (hown k w hw).symm.trans hkey
    subst hk
    cases hw.symm.trans hr
    have hover : last + SESSIONS_EXPIRATION_TIME < s.now + c.elapsed := of_decide_eq_true hstale
    exact absurd htime (Nat.not_le_of_lt hover)
  | _ => exact hr

theorem renewed_lookup {s : Storage} {info : SessionInfo} {last : Nat} (hr : Renewed s info last)
    (c : Choice) :
    Renewed (s.step c (.getSession info.accessKey)).2 info (s.now + c.elapsed) := by
  change (s.sessions.sessions.modify _ _).lookup _ = _
  rw [AList.lookup_modify, if_pos rfl, hr]
  rfl

theorem Storage.now_step (s : Storage) (c : Choice) (op : RepoOp) :
    (s.step c op).2.now = s.now + c.elapsed := by cases op <;> rfl

theorem InTime.mono {now now' last : Nat} (hle : now ≤ now') (h : InTime now' last) :
    InTime now last := hle.trans h

theorem accesses_cons {k : String} {now i : Nat} {s : Storage} {op : RepoOp} {r : op.Res}
    {log : List (Event controller)} :
    accesses k now (⟨i, s, op, r⟩ :: log) =
      if op.lodges = some (.accessKey, k) then [now]
      else if op = .getSession k then now :: accesses k s.now log
      else accesses k s.now log := rfl

theorem accesses_ne_nil {k : String} (now : Nat) {log : List (Event controller)}
    (h : ∃ e ∈ log, e.op.lodges = some (.accessKey, k)) : accesses k now log ≠ [] := by
  induction log generalizing now with
  | nil =>
    obtain ⟨e, he, -⟩ := h
    nomatch he
  | cons e es ih =>
    unfold accesses
    split_ifs with hl hg
    · exact List.cons_ne_nil _ _
    · exact List.cons_ne_nil _ _
    · obtain ⟨e', he', hl'⟩ := h
      rcases List.mem_cons.mp he' with rfl | hes
      · exact absurd hl' hl
      · exact ih _ ⟨e', hes, hl'⟩

theorem renewed_of_reach {C : ControllerPool → ControllerMove → Prop} {members : Table String Member}
    {p : ControllerPool} (hp : Reach C (Storage.start members) p) {info : SessionInfo}
    (hins : ∃ i pre, p.hist.Did i pre (.insertSession info) ())
    (hout : ¬ TakenOut p.hist info.accessKey)
    (hchain : (accesses info.accessKey p.state.now p.log).IsChain InTime) :
    ∀ last ∈ (accesses info.accessKey p.state.now p.log).head?, InTime p.state.now last →
      Renewed p.state info last := by
  induction hp with
  | start =>
    obtain ⟨i, pre, hd⟩ := hins
    nomatch hd
  | @step p q m hp hc hq ih =>
    rcases controller_step hq with ⟨j, rfl, rfl⟩ | ⟨i, c, j, op, k, rfl, ht, rfl⟩
    · rw [Pool.hist_accept] at hins hout
      exact ih hins hout hchain
    · rw [Pool.hist_advance ht] at hins hout
      have hnow : p.state.now ≤ p.state.now + c.elapsed := Nat.le_add_right _ _
      have hown : ∀ k w, p.state.sessions.sessions.lookup k = some w → w.value.accessKey = k :=
        fun k w hw => ((coherent_of_reach hp).sessions k w hw).1
      have hout₀ : ¬ TakenOut p.hist info.accessKey := fun ⟨i', pre, w, hd⟩ =>
        hout ⟨i', pre, w, List.mem_cons_of_mem _ hd⟩
      -- whichever event put the session in, no other has
      have hins₀ : op = .insertSession info ∨ op.lodges ≠ some (.accessKey, info.accessKey) ∧
          ∃ i pre, p.hist.Did i pre (.insertSession info) () := by
        obtain ⟨i', pre, hd⟩ := hins
        rcases List.mem_cons.mp hd with he | hold
        · cases he
          exact .inl rfl
        · exact .inr ⟨fun hl => lodged_once hp ht hl _ hold rfl, i', pre, hold⟩
      change (accesses _ (p.state.step c op).2.now (⟨i, p.state, op, _⟩ :: p.log)).IsChain _ at hchain
      change ∀ last ∈ (accesses _ (p.state.step c op).2.now (⟨i, p.state, op, _⟩ :: p.log)).head?,
        InTime (p.state.step c op).2.now last → Renewed (p.state.step c op).2 info last
      rw [Storage.now_step] at hchain ⊢
      rcases hins₀ with rfl | ⟨hl, hold⟩
      · intro last hlast htime
        have hlodges : (RepoOp.insertSession info).lodges = some (.accessKey, info.accessKey) := rfl
        rw [accesses_cons, if_pos hlodges] at hlast
        obtain rfl : p.state.now + c.elapsed = last := Option.some.inj hlast
        exact AList.lookup_insert _
      · rw [accesses_cons, if_neg hl] at hchain ⊢
        split_ifs at hchain ⊢ with hg
        · subst hg
          obtain ⟨hnext, htail⟩ := List.isChain_cons.mp hchain
          intro last hlast htime
          obtain rfl : p.state.now + c.elapsed = last := Option.some.inj hlast
          obtain ⟨i', pre, hd⟩ := hold
          have hne := accesses_ne_nil p.state.now ⟨_, hd, rfl⟩
          have hhead := List.head?_eq_some_head hne
          have hrenewed := ih ⟨i', pre, hd⟩ hout₀ htail _ hhead (.mono hnow (hnext _ hhead))
          exact renewed_lookup hrenewed c
        · intro last hlast htime
          have hrenewed := ih hold hout₀ hchain last hlast (htime.mono hnow)
          apply renewed_step hown hl hg _ hrenewed htime
          rintro rfl
          obtain ⟨w, hres⟩ : ∃ w, (p.state.step c (.takeSession info.accessKey)).1 = some w :=
            ⟨_, hrenewed⟩
          exact hout ⟨i, p.state, w, hres ▸ p.hist.did_record i _ _ _⟩

/-- A session that is in use is answered as it was stored at login, until it is removed; and once it
has been taken out, by its removal or by a sweep, it is never answered again. -/
theorem access_key_life {members : Table String Member} {p : ControllerPool}
    (hp : Reachable (Storage.start members) p) (k : String) :
    (∀ i pre info, p.hist.Did i pre (.insertSession info) () → info.accessKey = k →
      ¬ TakenOut p.hist k → ∀ c : Choice,
        ((p.state.now + c.elapsed) :: accesses k p.state.now p.log).IsChain InTime →
          (p.state.step c (.getSession k)).1 = some info) ∧
    ∀ (ms ms' : List ControllerMove) (q q' : ControllerPool), p.state.Keeps .accessKey k →
      p.run ms = some q → ¬ q.state.Keeps .accessKey k → q.run ms' = some q' →
        ∀ c : Choice, (q'.state.step c (.getSession k)).1 = none := by
  constructor
  · rintro i pre info hd rfl hout c hchain
    obtain ⟨hnext, htail⟩ := List.isChain_cons.mp hchain
    have hne := accesses_ne_nil p.state.now ⟨_, hd, rfl⟩
    have hhead := List.head?_eq_some_head hne
    have htime : InTime p.state.now _ := (hnext _ hhead).mono (Nat.le_add_right _ c.elapsed)
    have hrenewed := renewed_of_reach hp ⟨i, pre, hd⟩ hout htail _ hhead htime
    rw [Storage.step_getSession, SessionStore.sessionOf, hrenewed]
    rfl
  · intro ms ms' q q' hk hq hgone hq' c
    have hnone := gone_for_good hp hq hq' hk hgone
    have hlookup : q'.state.sessions.sessions.lookup k = none := not_not.mp hnone
    rw [Storage.step_getSession, SessionStore.sessionOf, hlookup, Option.map_none]

def aliceSession : SessionInfo :=
  SessionManager.sessionInfo "k-alice" "alice" .client ⟨"10.0.0.1", 40000⟩
    ⟨"10.0.0.1", 50051, "alice", [1]⟩

theorem access_key_life_sample : ∃ p q : ControllerPool,
    Reachable (Storage.start sampleMembers) p ∧
    (p.state.step ⟨10000, 0⟩ (.getSession "k-alice")).1 = some aliceSession ∧
    p.run ((⟨.logout ⟨"k-alice"⟩, ""⟩ : Job).alone 1 3) = some q ∧
    (q.state.step ⟨0, 0⟩ (.getSession "k-alice")).1 = none := by
  have hsample : ∃ p, (Pool.start (Storage.start sampleMembers) : ControllerPool).run
      (inTurn [(signIn "alice" 2 "k-alice", 3)]) = some p ∧
      (p.log.head?.any (fun e => decide (e.op = RepoOp.insertSession aliceSession)) &&
          p.log.all fun e => e.op ≠ RepoOp.takeSession "k-alice",
        p.state.now :: accesses "k-alice" p.state.now p.log,
        (p.run ((⟨.logout ⟨"k-alice"⟩, ""⟩ : Job).alone 1 3)).map fun q =>
          (p.state.expiry? .accessKey "k-alice", q.state.expiry? .accessKey "k-alice")) =
        (true, [0, 0], some (some 10000, none)) :=
    exists_run (by decide)
  obtain ⟨p, hrun, h⟩ := hsample
  simp only [Prod.mk.injEq, Bool.and_eq_true] at h
  obtain ⟨⟨hop, hout⟩, haccesses, hlogout⟩ := h
  have hp := Reachable.of_run hrun
  obtain ⟨q, hq, hexpiry⟩ := Option.map_eq_some_iff.mp hlogout
  obtain ⟨hstored, hgone⟩ := Prod.mk.inj hexpiry
  obtain ⟨⟨i, pre, op, r⟩, he, hop⟩ := (Option.any_eq_true _ _).mp hop
  obtain rfl : op = .insertSession aliceSession := of_decide_eq_true hop
  have hd : p.hist.Did i pre (.insertSession aliceSession) () := List.mem_of_head? he
  have htaken : ¬ TakenOut p.hist "k-alice" := by
    rintro ⟨i', pre', w, hd'⟩
    simpa using List.all_eq_true.mp hout _ hd'
  obtain ⟨hnow, hlist⟩ := List.cons.inj haccesses
  have hlife := access_key_life hp "k-alice"
  refine ⟨p, q, hp, hlife.1 i pre aliceSession hd rfl htaken ⟨10000, 0⟩ ?_, hq,
    hlife.2 _ [] q q ?_ hq ?_ rfl ⟨0, 0⟩⟩
  · rw [hlist, hnow]
    decide
  · exact Storage.keeps_iff.mpr (by rw [hstored]; exact nofun)
  · exact fun hk => Storage.keeps_iff.mp hk hgone

end FuzzyChat
