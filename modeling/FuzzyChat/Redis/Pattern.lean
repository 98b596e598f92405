import FuzzyChat.Redis.Store
import FuzzyChat.Utf8

/-! The patterns by which a Redis database is searched for keys, both of them read as bytes. -/

namespace Redis

/-- A part of a pattern: any bytes, any one byte, one byte, or one of a class. -/
inductive Token where
  | any
  | one
  | exactly (b : UInt8)
  | within (negated : Bool) (ranges : List (UInt8 × UInt8))
  deriving DecidableEq, Repr

@[match_pattern] abbrev star : UInt8 := 0x2A
@[match_pattern] abbrev minus : UInt8 := 0x2D
@[match_pattern] abbrev question : UInt8 := 0x3F
@[match_pattern] abbrev opening : UInt8 := 0x5B
@[match_pattern] abbrev backslash : UInt8 := 0x5C
@[match_pattern] abbrev closing : UInt8 := 0x5D
@[match_pattern] abbrev caret : UInt8 := 0x5E

mutual

def tokens : List UInt8 → List Token
  | [] => []
  | backslash :: b :: bytes => .exactly b :: tokens bytes
  | star :: bytes => .any :: tokens bytes
  | question :: bytes => .one :: tokens bytes
  | opening :: caret :: bytes => tokensWithin true [] bytes
  | opening :: bytes => tokensWithin false [] bytes
  | b :: bytes => .exactly b :: tokens bytes

/-- The rest of a class, of which the end may be missing. -/
def tokensWithin (negated : Bool) (ranges : List (UInt8 × UInt8)) : List UInt8 → List Token
  | [] => [.within negated ranges]
  | closing :: bytes => .within negated ranges :: tokens bytes
  | backslash :: b :: bytes => tokensWithin negated ((b, b) :: ranges) bytes
  | b :: minus :: b' :: bytes => tokensWithin negated ((min b b', max b b') :: ranges) bytes
  | b :: bytes => tokensWithin negated ((b, b) :: ranges) bytes

end

def Token.accepts (b : UInt8) : Token → Bool
  | any | one => true
  | exactly b' => b == b'
  | within negated ranges => (ranges.any fun r => decide (r.1 ≤ b ∧ b ≤ r.2)) != negated

def fits : List Token → List UInt8 → Bool
  | [], s => s.isEmpty
  | .any :: ts, s => s.tails.any fun rest => fits ts rest
  | _ :: _, [] => false
  | t :: ts, b :: s => t.accepts b && fits ts s

def fitsPattern (pattern s : String) : Bool := fits (tokens (Utf8.encode pattern)) (Utf8.encode s)

def isSpecial (b : UInt8) : Bool := b == star || b == question || b == opening || b == backslash

theorem tokens_cons {b : UInt8} (h : isSpecial b = false) (bytes : List UInt8) :
    tokens (b :: bytes) = .exactly b :: tokens bytes := by
  simp only [isSpecial, Bool.or_eq_false_iff, beq_eq_false_iff_ne, and_assoc] at h
  obtain ⟨hstar, hquestion, hopening, hbackslash⟩ := h
  rw [tokens]
  · exact fun _ _ hb _ => hbackslash hb
  · exact hstar
  · exact hquestion
  · exact fun _ hb _ => hopening hb
  · exact hopening

theorem tokens_append {pre : List UInt8} (hpre : ∀ b ∈ pre, isSpecial b = false)
    (bytes : List UInt8) : tokens (pre ++ bytes) = pre.map .exactly ++ tokens bytes := by
  induction pre with
  | nil => rfl
  | cons b pre ih =>
    obtain ⟨hb, hrest⟩ := List.forall_mem_cons.mp hpre
    rw [List.cons_append, tokens_cons hb, ih hrest]
    rfl

theorem fits_any (s : List UInt8) : fits [.any] s = true := by
  rw [fits, List.any_eq_true]
  exact ⟨[], (List.mem_tails [] s).mpr List.nil_suffix, rfl⟩

theorem fits_exactly_append (pre : List UInt8) (ts : List Token) (s : List UInt8) :
    fits (pre.map .exactly ++ ts) s = true ↔ ∃ rest, s = pre ++ rest ∧ fits ts rest = true := by
  induction pre generalizing s with
  | nil => simp
  | cons b pre ih =>
    cases s with
    | nil => simp [fits]
    | cons b' s =>
      rw [List.map_cons, List.cons_append, fits, Bool.and_eq_true, ih, Token.accepts, beq_iff_eq]
      · constructor
        · rintro ⟨rfl, rest, rfl, hrest⟩
          exact ⟨rest, rfl, hrest⟩
        · rintro ⟨rest, hs, hrest⟩
          obtain ⟨rfl, rfl⟩ := List.cons.inj hs
          exact ⟨rfl, rest, rfl, hrest⟩
      · rintro ⟨⟩

theorem fitsPattern_star {pre : String} (hpre : ∀ b ∈ Utf8.encode pre, isSpecial b = false)
    (s : String) : fitsPattern (pre ++ "*") s = true ↔ ∃ rest, s = pre ++ rest := by
  have hpattern : Utf8.encode (pre ++ "*") = Utf8.encode pre ++ [star] := by
    rw [Utf8.encode_eq_encodeChars, String.toList_append, Utf8.encodeChars_append,
      ← Utf8.encode_eq_encodeChars]
    rfl
  have hstar : tokens [star] = [.any] := by decide
  rw [fitsPattern, hpattern, tokens_append hpre, hstar, fits_exactly_append,
    Utf8.encode_eq_encodeChars, Utf8.encode_eq_encodeChars]
  constructor
  · rintro ⟨bytes, hs, -⟩
    obtain ⟨rest, hrest, -⟩ := Utf8.encodeChars_eq_append hs
    refine ⟨String.ofList rest, ?_⟩
    rw [← String.toList_inj, String.toList_append, String.toList_ofList, hrest]
  · rintro ⟨rest, rfl⟩
    exact ⟨_, by rw [String.toList_append, Utf8.encodeChars_append], fits_any _⟩

example : fitsPattern "h[a-c]l*" "hbllo" = true ∧ fitsPattern "h[^a-c]?lo" "hbllo" = false :=
  ⟨rfl, rfl⟩

namespace Store
variable {V : Type}

/-- The command `SCAN MATCH pattern`, followed to its end. -/
def scanMatch (now : Nat) (pattern : String) (s : Store V) : List String :=
  s.keys.filter fun key => fitsPattern pattern key && (s.live now key).isSome

theorem scanMatch_star {pre : String} (hpre : ∀ b ∈ Utf8.encode pre, isSpecial b = false)
    (now : Nat) (s : Store V) : s.scanMatch now (pre ++ "*") = s.scan now pre := by
  refine List.filter_congr fun key _ => ?_
  rw [Bool.eq_iff_iff, Bool.and_eq_true, Bool.and_eq_true, fitsPattern_star hpre,
    isPrefixOf_toList_iff]

end Store
end Redis
