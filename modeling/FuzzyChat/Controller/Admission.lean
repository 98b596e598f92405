import FuzzyChat.Controller.Records
import FuzzyChat.Interleave.Trace

/-! Which login requests are let in, and what a login does to the sessions. -/

namespace FuzzyChat
open Interleave

namespace MemberManager

/-- A record of fewer than two fields is a panic. -/
def readRecord (item : List String) : Option Member := do
  let uid ← item[0]?
  let pwd ← item[1]?
  some ⟨uid, pwd⟩

/-- The fields of each record, and `none` for one that the reader of the file has rejected. -/
def readMembersFromCsv (records : List (Option (List String))) : Option (List Member) :=
  (records.filterMap id).mapM readRecord

def setMember (member : Member) (members : Table String Member) : Table String Member :=
  members.insert member.uid member

def setMembers (seeded : List Member) (members : Table String Member) : Table String Member :=
  seeded.foldl (fun t m => setMember m t) members

def seedMembersFromCsv (records : List (Option (List String))) (members : Table String Member) :
    Option (Table String Member) :=
  (readMembersFromCsv records).map fun seeded => setMembers seeded members

def passwordOf (records : List (Option (List String))) (uid : String) : Option String :=
  ((records.filterMap id).reverse.find? fun item => item[0]? == some uid).bind fun item => item[1]?

theorem readRecord_eq_some {item : List String} {m : Member} :
    readRecord item = some m ↔ item[0]? = some m.uid ∧ item[1]? = some m.pwd := by
  obtain ⟨uid, pwd⟩ := m
  match item with
  | [] => simp [readRecord]
  | [x] => simp [readRecord]
  | x :: y :: _ => simp [readRecord]

theorem mapM_readRecord_cons {item : List String} {items : List (List String)}
    {seeded : List Member} (h : (item :: items).mapM readRecord = some seeded) :
    ∃ m rest, readRecord item = some m ∧ items.mapM readRecord = some rest ∧
      seeded = m :: rest := by
  rw [List.mapM_cons] at h
  obtain ⟨m, hm, h⟩ := Option.bind_eq_some_iff.mp h
  obtain ⟨rest, hrest, h⟩ := Option.bind_eq_some_iff.mp h
  cases h
  exact ⟨m, rest, hm, hrest, rfl⟩

theorem readRecord_of_mem {items : List (List String)} {seeded : List Member}
    (h : items.mapM readRecord = some seeded) : ∀ item ∈ items, ∃ m, readRecord item = some m := by
  induction items generalizing seeded with
  | nil => exact nofun
  | cons item items ih =>
    obtain ⟨m, rest, hm, hrest, rfl⟩ := mapM_readRecord_cons h
    exact List.forall_mem_cons.mpr ⟨⟨m, hm⟩, ih hrest⟩

theorem lookup_setMembers {items : List (List String)} {seeded : List Member}
    (h : items.mapM readRecord = some seeded) (members : Table String Member) (uid : String) :
    ((setMembers seeded members).lookup uid).map Member.pwd =
      ((items.reverse.find? fun item => item[0]? == some uid).bind fun item => item[1]?).or
        ((members.lookup uid).map Member.pwd) := by
  induction items generalizing seeded members with
  | nil =>
    cases h
    rfl
  | cons item items ih =>
    obtain ⟨m, rest, hm, hrest, rfl⟩ := mapM_readRecord_cons h
    obtain ⟨huid, hpwd⟩ := readRecord_eq_some.mp hm
    have hset : setMembers (m :: rest) members = setMembers rest (setMember m members) := rfl
    rw [hset, ih hrest, List.reverse_cons, List.find?_append]
    cases hfind : items.reverse.find? fun item => item[0]? == some uid with
    | some found =>
      -- a later record of the uid, which is a complete one
      have hmem : found ∈ items := List.mem_reverse.mp (List.mem_of_find?_eq_some hfind)
      obtain ⟨m', hm'⟩ := readRecord_of_mem hrest found hmem
      simp [(readRecord_eq_some.mp hm').2]
    | none =>
      rw [setMember, AList.lookup_insert_eq_ite]
      by_cases h : uid = m.uid
      · simp [h, huid, hpwd]
      · simp [h, huid, Ne.symm h]

theorem readRecord_eq_none {item : List String} : readRecord item = none ↔ item.length < 2 := by
  match item with
  | [] => simp [readRecord]
  | [x] => simp [readRecord]
  | x :: y :: _ => simp [readRecord]

theorem readMembersFromCsv_eq_none {records : List (Option (List String))} :
    readMembersFromCsv records = none ↔ ∃ item, some item ∈ records ∧ item.length < 2 := by
  have hmapM : ∀ items : List (List String),
      items.mapM readRecord = none ↔ ∃ item ∈ items, item.length < 2 := by
    intro items
    induction items with
    | nil => simp
    | cons item items ih =>
      rw [List.mapM_cons, List.exists_mem_cons_iff, ← readRecord_eq_none, ← ih]
      cases readRecord item with
      | none => simp
      | some m => cases items.mapM readRecord <;> simp
  rw [readMembersFromCsv, hmapM]
  simp

theorem lookup_seedMembers {records : List (Option (List String))} {members : Table String Member}
    (h : seedMembersFromCsv records ∅ = some members) (uid : String) :
    (members.lookup uid).map Member.pwd = passwordOf records uid := by
  obtain ⟨seeded, hread, rfl⟩ := Option.map_eq_some_iff.mp h
  rw [lookup_setMembers hread]
  exact Option.or_none

end MemberManager

/-- What `login` is to let in: a member by its last record, under its password, as a proxy or a
client. -/
structure LoginRequest.Valid (records : List (Option (List String))) (r : LoginRequest) : Prop where
  uid : r.uid ≠ ""
  pwd : r.pwd ≠ ""
  componentType : r.componentType = 1 ∨ r.componentType = 2
  member : MemberManager.passwordOf records r.uid = some r.pwd

/-- One session has been added, under a key that had none. -/
structure LetIn (r : LoginRequest) (accessKey : String) (a : Except Abort Reply)
    (own : List (Event controller)) : Prop where
  result : a = .ok (.login ⟨accessKey, "Login successful"⟩)
  session : ∃ c info, Component.fromI32 r.componentType = some c ∧
    own.map Event.op = [.getMember r.uid, .insertIndex c r.uid accessKey, .insertSession info] ∧
    info.accessKey = accessKey ∧ info.uid = r.uid ∧ info.componentType = c.toU8
  new : ∀ e ∈ own, ∀ info, e.op = .insertSession info →
    e.pre.sessions.sessions.lookup accessKey = none

/-- No operation of the request has changed the sessions. -/
structure TurnedAway (a : Except Abort Reply) (own : List (Event controller)) : Prop where
  result : ∃ status, a = .error (.status status)
  unchanged : ∀ e ∈ own, ∀ c, (e.pre.step c e.op).2.sessions = e.pre.sessions

/-- Valid requests are let in, all others turned away. -/
def LoginExact (records : List (Option (List String))) (r : LoginRequest) (accessKey : String)
    (a : Except Abort Reply) (own : List (Event controller)) : Prop :=
  (r.Valid records → LetIn r accessKey a own) ∧ (¬ r.Valid records → TurnedAway a own)

/-- What the checks miss: a valid request of which the peer's address is not known is rejected, a
component type out of range is a panic, and an empty password that is the member's is let in. -/
def LoginFlaw (records : List (Option (List String))) (remoteAddr : Option SocketAddr)
    (r : LoginRequest) : Prop :=
  match remoteAddr with
  | none => r.Valid records
  | some _ => r.uid ≠ "" ∧ (¬ (r.componentType = 0 ∨ r.componentType = 1 ∨ r.componentType = 2) ∨
      (r.componentType = 1 ∨ r.componentType = 2) ∧ r.pwd = "" ∧
        MemberManager.passwordOf records r.uid = some "")

theorem fromI32_eq (value : Int32) :
    (Component.fromI32 value = some .controller ↔ value = 0) ∧
    (Component.fromI32 value = none ↔ value ≠ 0 ∧ value ≠ 1 ∧ value ≠ 2) ∧
    ((∃ c, Component.fromI32 value = some c ∧ c ≠ .controller) ↔ value = 1 ∨ value = 2) := by
  unfold Component.fromI32
  by_cases h0 : value = 0
  · subst h0
    decide
  · by_cases h1 : value = 1
    · subst h1
      decide
    · by_cases h2 : value = 2
      · subst h2
        decide
      · simp [h0, h1, h2]

section login
variable {C : ControllerPool → ControllerMove → Prop} {members : Table String Member}
  {p : ControllerPool}

theorem Reach.members_eq (hp : Reach C (Storage.start members) p) : p.state.members = members := by
  induction hp with
  | start => rfl
  | step hp hc hq ih =>
    rcases controller_step hq with ⟨j, rfl, rfl⟩ | ⟨i, c, j, op, k, rfl, ht, rfl⟩
    · exact ih
    · cases op <;> exact ih

theorem member_read (hp : Reach C (Storage.start members) p) {i : Nat} {pre : Storage}
    {uid : String} {m : Option Member} (hd : p.hist.Did i pre (.getMember uid) m) :
    m = members.lookup uid := by
  obtain ⟨p₀, c, hp₀, -, -, hanswer⟩ := answer_of_did hp hd
  rw [← hanswer, ← Reach.members_eq hp₀]
  rfl

theorem new_of_lodged (hp : Reach C (Storage.start members) p) {e : Event controller}
    (he : e ∈ p.log) {kind : IdKind} {id : String} (hl : e.op.lodges = some (kind, id)) :
    ¬ e.pre.Keeps kind id := by
  obtain ⟨p₀, c, j, k, hp₀, -, -, ht, hpre, -⟩ := hp.event e he
  intro hkeeps
  rw [hpre] at hkeeps
  obtain ⟨e', he', hl'⟩ := lodged_of_keeps hp₀ hkeeps
  exact lodged_once hp₀ ht hl e' he' hl'

/-- What `login` does let in. -/
def LetsIn (members : Table String Member) (remoteAddr : Option SocketAddr) (r : LoginRequest) :
    Prop :=
  remoteAddr ≠ none ∧ r.uid ≠ "" ∧ (r.componentType = 1 ∨ r.componentType = 2) ∧
    ∃ m, members.lookup r.uid = some m ∧ m.pwd = r.pwd

def PanicsOn (remoteAddr : Option SocketAddr) (r : LoginRequest) : Prop :=
  remoteAddr ≠ none ∧ r.uid ≠ "" ∧ Component.fromI32 r.componentType = none

inductive LoginOutcome (members : Table String Member) (remoteAddr : Option SocketAddr)
    (r : LoginRequest) (accessKey : String) (a : Except Abort Reply)
    (own : List (Event controller)) : Prop
  | letIn (h : LetsIn members remoteAddr r) (ha : LetIn r accessKey a own)
  | panic (h : PanicsOn remoteAddr r) (ha : a = .error .panic)
  | turnedAway (h : ¬ LetsIn members remoteAddr r) (h' : ¬ PanicsOn remoteAddr r)
      (ha : TurnedAway a own)

theorem turnedAway_of_said {status : Status} {own : List (Event controller)} {uid : String}
    (h : ∀ x ∈ own.map Event.exchange, x.1 = .getMember uid) :
    TurnedAway (.error (.status status)) own := by
  refine ⟨⟨status, rfl⟩, fun e he c => ?_⟩
  have hop : e.op = .getMember uid := h _ (List.mem_map_of_mem he)
  rw [hop]
  rfl

theorem turnedAway_at_once {status : Status} {own : List (Event controller)}
    (h : own.map Event.exchange = []) : TurnedAway (.error (.status status)) own := by
  refine @turnedAway_of_said _ _ "" ?_
  rw [h]
  exact nofun

theorem tells_storeSession {info : SessionInfo} {t : Component} {a b : Except Abort Reply}
    {es : List (Sigma RepoOp.Res)} (h : (storeSession info t (.ret a)).Tells es b) :
    es = [⟨.insertIndex t info.uid info.accessKey, ()⟩, ⟨.insertSession info, ()⟩] ∧ a = b := by
  obtain ⟨_, es₁, rfl, hsession⟩ := h.of_call
  obtain ⟨_, es₂, rfl, hend⟩ := hsession.of_call
  obtain ⟨rfl, rfl⟩ := hend.of_ret
  exact ⟨rfl, rfl⟩

theorem letIn_of_said (hp : Reach C (Storage.start members) p) {i : Nat} {r : LoginRequest}
    {info : SessionInfo} {c : Component} {member : Option Member}
    (hsaid : p.hist.said i = [⟨.getMember r.uid, member⟩,
      ⟨.insertIndex c info.uid info.accessKey, ()⟩, ⟨.insertSession info, ()⟩])
    (hc : Component.fromI32 r.componentType = some c) (huid : info.uid = r.uid)
    (htype : info.componentType = c.toU8) :
    LetIn r info.accessKey (.ok (.login ⟨info.accessKey, "Login successful"⟩)) (p.hist.own i) := by
  constructor
  case result => rfl
  case session =>
    refine ⟨c, info, hc, ?_, rfl, huid, htype⟩
    have hops : (p.hist.said i).map Sigma.fst = (p.hist.own i).map Event.op := by
      rw [Hist.said, List.map_map]
      rfl
    rw [← hops, hsaid, huid]
    rfl
  case new =>
    intro e he info' hop
    have hmem : e.exchange ∈ p.hist.said i := List.mem_map_of_mem he
    have hsame : info'.accessKey = info.accessKey := by
      have hfst : e.exchange.1 = .insertSession info' := hop
      rw [hsaid] at hmem
      rcases List.mem_cons.mp hmem with hx | hmem
      · rw [hx] at hfst
        cases hfst
      · rcases List.mem_cons.mp hmem with hx | hmem
        · rw [hx] at hfst
          cases hfst
        · rw [List.mem_singleton.mp hmem] at hfst
          cases hfst
          rfl
    have hlodges : e.op.lodges = some (.accessKey, info.accessKey) := by
      rw [hop, ← hsame]
      rfl
    exact not_not.mp (new_of_lodged hp (Hist.mem_own.mp he).1 hlodges)

theorem login_outcome (hp : Reach C (Storage.start members) p) {i : Nat}
    {remoteAddr : Option SocketAddr} {r : LoginRequest} {accessKey : String}
    {a : Except Abort Reply}
    (ht : p.tasks[i]? = some (⟨.login remoteAddr r, accessKey⟩, .ret a)) :
    LoginOutcome members remoteAddr r accessKey a (p.hist.own i) := by
  have htells : (Job.handler ⟨.login remoteAddr r, accessKey⟩).Tells (p.hist.said i) a :=
    hp.leads i _ _ ht
  rw [handler_login] at htells
  cases remoteAddr with
  | none =>
    obtain ⟨hsaid, rfl⟩ := htells.of_ret
    exact .turnedAway (fun h => h.1 rfl) (fun h => h.1 rfl) (turnedAway_at_once hsaid)
  | some clientIp =>
    dsimp only at htells
    split_ifs at htells with hu
    · have huid : r.uid = "" := String.isEmpty_iff.mp hu
      obtain ⟨hsaid, rfl⟩ := htells.of_ret
      exact .turnedAway (fun h => h.2.1 huid) (fun h => h.2.1 huid) (turnedAway_at_once hsaid)
    · have huid : r.uid ≠ "" := fun h => hu (String.isEmpty_iff.mpr h)
      obtain ⟨-, -, hother⟩ := fromI32_eq r.componentType
      cases hc : Component.fromI32 r.componentType with
      | none =>
        rw [hc] at htells
        obtain ⟨-, rfl⟩ := htells.of_ret
        exact .panic ⟨nofun, huid, hc⟩ rfl
      | some c =>
        rw [hc] at htells
        have hnopanic : ¬ PanicsOn (some clientIp) r := fun h => by
          rw [h.2.2] at hc
          nomatch hc
        dsimp only at htells
        split_ifs at htells with hcc
        · obtain ⟨hsaid, rfl⟩ := htells.of_ret
          refine .turnedAway (fun h => ?_) hnopanic (turnedAway_at_once hsaid)
          obtain ⟨c', hc', hne⟩ := hother.mpr h.2.2.1
          exact hne (Option.some.inj (hc'.symm.trans hc) ▸ hcc)
        · have htype := hother.mp ⟨c, hc, hcc⟩
          obtain ⟨member, es, hsaid, hrest⟩ := htells.of_call
          obtain ⟨pre, hdid⟩ := Hist.mem_said.mp (hsaid ▸ List.mem_cons_self)
          have hread : member = members.lookup r.uid := member_read hp hdid
          split_ifs at hrest with hpwd
          · obtain ⟨m, hm, hsame⟩ : ∃ m, member = some m ∧ m.pwd = r.pwd := by
              cases member with
              | none => nomatch hpwd
              | some m => exact ⟨m, rfl, eq_of_beq hpwd⟩
            obtain ⟨rfl, rfl⟩ := tells_storeSession hrest
            have hlets : LetsIn members (some clientIp) r :=
              ⟨nofun, huid, htype, m, hread ▸ hm, hsame⟩
            exact .letIn hlets (letIn_of_said hp hsaid hc rfl rfl)
          · obtain ⟨rfl, rfl⟩ := hrest.of_ret
            refine .turnedAway ?_ hnopanic (@turnedAway_of_said _ _ r.uid ?_)
            · rintro ⟨-, -, -, m, hm, hsame⟩
              apply hpwd
              rw [hread, hm]
              exact beq_iff_eq.mpr hsame
            · intro x hx
              change x ∈ p.hist.said i at hx
              rw [hsaid] at hx
              rw [List.mem_singleton.mp hx]

theorem letsIn_iff {records : List (Option (List String))}
    (hseed : MemberManager.seedMembersFromCsv records ∅ = some members)
    {remoteAddr : Option SocketAddr} {r : LoginRequest} :
    LetsIn members remoteAddr r ↔ remoteAddr ≠ none ∧ r.uid ≠ "" ∧
      (r.componentType = 1 ∨ r.componentType = 2) ∧
        MemberManager.passwordOf records r.uid = some r.pwd := by
  rw [LetsIn, ← MemberManager.lookup_seedMembers hseed, Option.map_eq_some_iff]

theorem panicsOn_iff {remoteAddr : Option SocketAddr} {r : LoginRequest} :
    PanicsOn remoteAddr r ↔ remoteAddr ≠ none ∧ r.uid ≠ "" ∧
      ¬ (r.componentType = 0 ∨ r.componentType = 1 ∨ r.componentType = 2) := by
  rw [PanicsOn, (fromI32_eq r.componentType).2.1, not_or, not_or]

theorem loginExact_iff {records : List (Option (List String))}
    (hseed : MemberManager.seedMembersFromCsv records ∅ = some members)
    {remoteAddr : Option SocketAddr} {r : LoginRequest} {accessKey : String}
    {a : Except Abort Reply} {own : List (Event controller)}
    (h : LoginOutcome members remoteAddr r accessKey a own) :
    LoginExact records r accessKey a own ↔ ¬ LoginFlaw records remoteAddr r := by
  have hnotBoth : LetIn r accessKey a own → ¬ TurnedAway a own := by
    rintro hl ⟨⟨status, hstatus⟩, -⟩
    rw [hl.result] at hstatus
    nomatch hstatus
  cases h with
  | letIn hlets ha =>
    obtain ⟨hremote, huid, htype, hpassword⟩ := (letsIn_iff hseed).mp hlets
    obtain ⟨clientIp, rfl⟩ := Option.ne_none_iff_exists'.mp hremote
    constructor
    · rintro ⟨-, hinvalid⟩ ⟨-, hflaw⟩
      rcases hflaw with hrange | ⟨-, hempty, -⟩
      · exact hrange (.inr htype)
      · exact hnotBoth ha (hinvalid fun hvalid => hvalid.pwd hempty)
    · intro hno
      have hpwd : r.pwd ≠ "" := fun hempty =>
        hno ⟨huid, .inr ⟨htype, hempty, hempty ▸ hpassword⟩⟩
      exact ⟨fun _ => ha, fun hinvalid => absurd ⟨huid, hpwd, htype, hpassword⟩ hinvalid⟩
  | panic hpanic ha =>
    obtain ⟨hremote, huid, hrange⟩ := panicsOn_iff.mp hpanic
    obtain ⟨clientIp, rfl⟩ := Option.ne_none_iff_exists'.mp hremote
    constructor
    · rintro ⟨-, hinvalid⟩
      obtain ⟨⟨status, hstatus⟩, -⟩ := hinvalid fun hvalid => hrange (.inr hvalid.componentType)
      rw [ha] at hstatus
      nomatch hstatus
    · exact fun hno => absurd ⟨huid, .inl hrange⟩ hno
  | turnedAway hlets hpanic ha =>
    rw [letsIn_iff hseed] at hlets
    rw [panicsOn_iff] at hpanic
    have hexact : LoginExact records r accessKey a own ↔ ¬ r.Valid records := by
      constructor
      · exact fun hexact hvalid => hnotBoth (hexact.1 hvalid) ha
      · exact fun hinvalid => ⟨fun hvalid => absurd hvalid hinvalid, fun _ => ha⟩
    rw [hexact]
    cases remoteAddr with
    | none => exact Iff.rfl
    | some clientIp =>
      have hinvalid : ¬ r.Valid records := fun hvalid =>
        hlets ⟨nofun, hvalid.uid, hvalid.componentType, hvalid.member⟩
      refine iff_of_true hinvalid ?_
      rintro ⟨huid, hrange | ⟨htype, hempty, hpassword⟩⟩
      · exact hpanic ⟨nofun, huid, hrange⟩
      · exact hlets ⟨nofun, huid, htype, hempty ▸ hpassword⟩

end login

/-- Every login comes to its end, whatever other requests do meanwhile, and it is exact if and only
if none of the flaws shows. -/
theorem login_exact_iff {records : List (Option (List String))} {members : Table String Member}
    (hseed : MemberManager.seedMembersFromCsv records ∅ = some members) {p : ControllerPool}
    (hp : Reachable (Storage.start members) p) (remoteAddr : Option SocketAddr) (r : LoginRequest)
    (accessKey : String)
    (hnew : controller.admits (p.tasks.map Prod.fst) ⟨.login remoteAddr r, accessKey⟩)
    (e : Rivals controller) (t : Nat) :
    ∃ a t' p', e.submit ⟨.login remoteAddr r, accessKey⟩ t p = some (a, t', p') ∧
      (LoginExact records r accessKey a (p'.hist.own p.tasks.length) ↔
        ¬ LoginFlaw records remoteAddr r) := by
  have htotal : ∀ (i : Nat) (c : Choice) (op : RepoOp) (s : Storage),
      ∃ x, controller.exec i c op s = some x := fun _ _ _ _ => ⟨_, rfl⟩
  obtain ⟨a, t', p', hs, hp', ht'⟩ := Rivals.submit_total (e := e) htotal hp hnew t
  exact ⟨a, t', p', hs, loginExact_iff hseed (login_outcome hp' ht')⟩

def sampleRecords : List (Option (List String)) :=
  [some ["alice", "old"], none, some ["eve", ""], some ["alice", "new"]]

def sampleLogin (uid pwd : String) : LoginRequest where
  uid := uid
  pwd := pwd
  onIp := "10.0.0.1"
  onPort := 50051
  publicKey := [1]
  domainName := uid
  componentType := 2

def undisturbed : Rivals controller := ⟨fun _ _ => [], fun _ _ => ⟨0, 0⟩⟩

def sampleLoginReply (uid pwd : String) : Option (Except Abort Reply) :=
  (MemberManager.seedMembersFromCsv sampleRecords ∅).bind fun members =>
    (undisturbed.submit ⟨.login (some ⟨"10.0.0.1", 40000⟩) (sampleLogin uid pwd), "k"⟩ 0
      (Pool.start (Storage.start members))).map fun x => x.1

theorem login_exact_iff_sample : ∃ members,
    MemberManager.seedMembersFromCsv sampleRecords ∅ = some members ∧
      ∃ a t' p', undisturbed.submit
        ⟨.login (some ⟨"10.0.0.1", 40000⟩) (sampleLogin "alice" "new"), "k"⟩ 0
          (Pool.start (Storage.start members)) = some (a, t', p') ∧
        LoginExact sampleRecords (sampleLogin "alice" "new") "k" a (p'.hist.own 0) := by
  obtain ⟨members, hseed⟩ : ∃ members,
      MemberManager.seedMembersFromCsv sampleRecords ∅ = some members :=
    Option.isSome_iff_exists.mp (by decide)
  obtain ⟨a, t', p', hs, hexact⟩ := login_exact_iff hseed .start (some ⟨"10.0.0.1", 40000⟩)
    (sampleLogin "alice" "new") "k" (fun _ h => nomatch h) undisturbed 0
  refine ⟨members, hseed, a, t', p', hs, hexact.mpr ?_⟩
  rintro ⟨-, hrange | ⟨-, hempty, -⟩⟩
  · exact hrange (by decide)
  · exact absurd hempty (by decide)

/-- Eve gets in with no password, hers being empty. -/
theorem empty_password_lets_in : ¬ ∀ (records : List (Option (List String)))
    (members : Table String Member), MemberManager.seedMembersFromCsv records ∅ = some members →
      ∀ p : ControllerPool, Reachable (Storage.start members) p → ∀ remoteAddr r accessKey,
        controller.admits (p.tasks.map Prod.fst) ⟨.login remoteAddr r, accessKey⟩ →
          ∀ (e : Rivals controller) t, ∃ a t' p',
            e.submit ⟨.login remoteAddr r, accessKey⟩ t p = some (a, t', p') ∧
              LoginExact records r accessKey a (p'.hist.own p.tasks.length) := by
  intro hall
  obtain ⟨members, hseed⟩ : ∃ members,
      MemberManager.seedMembersFromCsv sampleRecords ∅ = some members :=
    Option.isSome_iff_exists.mp (by decide)
  obtain ⟨a, t', p', hs, -, hinvalid⟩ := hall sampleRecords members hseed _ .start
    (some ⟨"10.0.0.1", 40000⟩) (sampleLogin "eve" "") "k" (fun _ h => nomatch h) undisturbed 0
  have hreply : sampleLoginReply "eve" "" = some (.ok (.login ⟨"k", "Login successful"⟩)) := by
    decide
  rw [sampleLoginReply, hseed, Option.bind_some, hs, Option.map_some, Option.some.injEq] at hreply
  obtain ⟨status, hstatus⟩ := (hinvalid fun hvalid => hvalid.pwd rfl).result
  exact absurd (hstatus.symm.trans hreply) nofun

end FuzzyChat
