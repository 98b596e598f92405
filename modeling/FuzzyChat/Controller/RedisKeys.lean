import FuzzyChat.Controller.RedisSessions
import FuzzyChat.Redis.Pattern

/-! The keys of the repositories in Redis, which share one database. -/

namespace FuzzyChat
namespace RedisRepository

section member
variable {Text : Type} (members : SerdeJson Text Member)

def MEMBER_KEY : String := "mb"

def setMember (now : Nat) (member : Member) (s : Redis.Store Text) :
    Option Unit × Redis.Store Text :=
  let hset := s.hset now MEMBER_KEY member.uid (members.toString member)
  (hset.map fun _ => (), hset.getD s)

def getMember (now : Nat) (uid : String) (s : Redis.Store Text) : Option (Option Member) :=
  fromRedisValue members (s.hget now MEMBER_KEY uid)

end member

inductive Key where
  | session (accessKey : String)
  | memberSession (componentType : Component) (uid : String)
  | conversation (conversationId : String)
  | routes (conversationId : String)
  | member
  deriving DecidableEq, Repr

namespace Key

def text : Key → String
  | session accessKey => getSessionKey accessKey
  | memberSession componentType uid => getMemberSessionKey componentType uid
  | conversation conversationId => getConversationKey conversationId
  | routes conversationId => getRoutesKey conversationId
  | member => MEMBER_KEY

def ofParts (kind : List Char) (id : String) : Option Key :=
  if kind = SESSIONS_KEY.toList then some (.session id)
  else if kind = CONTROLLER_SESSION_KEY.toList then some (.memberSession .controller id)
  else if kind = CLIENT_SESSION_KEY.toList then some (.memberSession .client id)
  else if kind = PROXY_SESSION_KEY.toList then some (.memberSession .proxy id)
  else if kind = CONVERSATIONS_KEY.toList then some (.conversation id)
  else if kind = ROUTES_KEY.toList then some (.routes id)
  else if kind = MEMBER_KEY.toList then some .member
  else none

def ofText (text : String) : Option Key :=
  ofParts (text.toList.takeWhile (· ≠ ':'))
    (String.ofList (text.toList.dropWhile (· ≠ ':')).tail)

theorem ofText_append {kind : String} (hkind : ∀ c ∈ kind.toList, c ≠ ':') (id : String) :
    ofText (kind ++ ":" ++ id) = ofParts kind.toList id := by
  have hlist : (kind ++ ":" ++ id).toList = kind.toList ++ ':' :: id.toList := by simp
  have hbefore : ∀ c ∈ kind.toList, decide (c ≠ ':') = true := by simpa using hkind
  rw [ofText, hlist, List.takeWhile_append_of_pos hbefore, List.dropWhile_append_of_pos hbefore,
    List.takeWhile_cons_of_neg (by simp), List.dropWhile_cons_of_neg (by simp), List.append_nil,
    List.tail_cons, String.ofList_toList]

@[simp] theorem ofText_text (key : Key) : ofText key.text = some key := by
  cases key with
  | session accessKey =>
    rw [text, getSessionKey, ofText_append (by simp [SESSIONS_KEY])]
    rfl
  | memberSession componentType uid =>
    cases componentType with
    | controller =>
      rw [text, getMemberSessionKey, ofText_append (by simp [CONTROLLER_SESSION_KEY])]
      rfl
    | client =>
      rw [text, getMemberSessionKey, ofText_append (by simp [CLIENT_SESSION_KEY])]
      rfl
    | proxy =>
      rw [text, getMemberSessionKey, ofText_append (by simp [PROXY_SESSION_KEY])]
      rfl
  | conversation conversationId =>
    rw [text, getConversationKey, ofText_append (by simp [CONVERSATIONS_KEY])]
    rfl
  | routes conversationId =>
    rw [text, getRoutesKey, ofText_append (by simp [ROUTES_KEY])]
    rfl
  | member => rfl

theorem text_injective : Function.Injective text := by
  intro key key' h
  have hread := congrArg ofText h
  rw [ofText_text, ofText_text] at hread
  exact Option.some.inj hread

end Key

theorem plain_memberSession (c : Component) :
    ∀ b ∈ Utf8.encode (getMemberSessionKey c ""), Redis.isSpecial b = false := by
  have hall : (Utf8.encode (getMemberSessionKey c "")).all (!Redis.isSpecial ·) = true := by
    cases c <;> rfl
  simpa using hall

theorem getMemberSessionKey_append (c : Component) (uid : String) :
    getMemberSessionKey c uid = getMemberSessionKey c "" ++ uid := by
  cases c <;> rw [getMemberSessionKey, getMemberSessionKey, String.append_empty]

/-- No two keys are the same text, whatever they are made of. The pattern by which the index of a
type of component is searched fits the keys of that index and no others. -/
theorem keys_never_collide :
    Function.Injective Key.text ∧
      (∀ c text, Redis.fitsPattern (getMemberSessionKey c "*") text = true ↔
        ∃ uid, text = getMemberSessionKey c uid) ∧
      (∀ c key, Redis.fitsPattern (getMemberSessionKey c "*") (Key.text key) = true ↔
        ∃ uid, key = .memberSession c uid) ∧
      ∀ (V : Type) c now (s : Redis.Store V),
        s.scanMatch now (getMemberSessionKey c "*") = s.scan now (getMemberSessionKey c "") := by
  have hfits : ∀ c text, Redis.fitsPattern (getMemberSessionKey c "*") text = true ↔
      ∃ uid, text = getMemberSessionKey c uid := by
    intro c text
    rw [getMemberSessionKey_append c "*", Redis.fitsPattern_star (plain_memberSession c)]
    exact exists_congr fun uid => by rw [getMemberSessionKey_append c uid]
  refine ⟨Key.text_injective, hfits, ?_, ?_⟩
  · intro c key
    rw [hfits]
    constructor
    · rintro ⟨uid, h⟩
      exact ⟨uid, Key.text_injective h⟩
    · rintro ⟨uid, rfl⟩
      exact ⟨uid, rfl⟩
  · intro V c now s
    rw [getMemberSessionKey_append c "*", Redis.Store.scanMatch_star (plain_memberSession c)]

end RedisRepository
end FuzzyChat
