import Mathlib

/-! UTF-8 text read from bytes that need not be UTF-8, and found and cut in bytes that are. -/

namespace Utf8

def encode (s : String) : List UInt8 := s.toUTF8.data.toList

def decodeChar? (bytes : List UInt8) : Option Char := bytes.toByteArray.utf8DecodeChar? 0

def isContinuation (b : UInt8) : Bool := b &&& 0xC0 == 0x80

/-- Whether the first byte opens a sequence of three or four that the second may continue. -/
def secondFits (b b' : UInt8) : Bool :=
  if b = 0xE0 then 0xA0 ≤ b' && b' ≤ 0xBF
  else if b = 0xED then 0x80 ≤ b' && b' ≤ 0x9F
  else if 0xE1 ≤ b && b ≤ 0xEF then 0x80 ≤ b' && b' ≤ 0xBF
  else if b = 0xF0 then 0x90 ≤ b' && b' ≤ 0xBF
  else if 0xF1 ≤ b && b ≤ 0xF3 then 0x80 ≤ b' && b' ≤ 0xBF
  else if b = 0xF4 then 0x80 ≤ b' && b' ≤ 0x8F
  else false

/-- Where no character begins: the bytes that are replaced as one, the longest start of a sequence
that is never completed. -/
def brokenLength : List UInt8 → Nat
  | b :: b' :: bytes =>
    if secondFits b b' then if bytes.head?.any isContinuation then 3 else 2 else 1
  | _ => 1

def lossyChars : Nat → List UInt8 → List Char
  | 0, _ => []
  | _ + 1, [] => []
  | n + 1, b :: bytes =>
    match decodeChar? (b :: bytes) with
    | some c => c :: lossyChars n ((b :: bytes).drop c.utf8Size)
    | none => Char.ofNat 0xFFFD :: lossyChars n ((b :: bytes).drop (brokenLength (b :: bytes)))

/-- Every step uses up a byte, so the length bounds their number. -/
def fromUtf8Lossy (bytes : List UInt8) : String := String.ofList (lossyChars bytes.length bytes)

theorem encode_eq (s : String) : encode s = s.toList.flatMap String.utf8EncodeChar := by
  rw [encode, String.toUTF8_eq_toByteArray, ← String.utf8Encode_toList, List.utf8Encode,
    List.toList_data_toByteArray]

theorem decodeChar?_encode (c : Char) (bytes : List UInt8) :
    decodeChar? (String.utf8EncodeChar c ++ bytes) = some c := by
  rw [decodeChar?, List.toByteArray_append]
  exact ByteArray.utf8DecodeChar?_utf8EncodeChar_append

theorem lossyChars_encode (cs : List Char) (n : Nat) (hn : cs.length ≤ n) :
    lossyChars n (cs.flatMap String.utf8EncodeChar) = cs := by
  induction cs generalizing n with
  | nil => cases n <;> rfl
  | cons c cs ih =>
    rcases n with _ | n
    · exact absurd hn (by simp)
    · obtain ⟨b, bytes, hb⟩ := List.exists_cons_of_ne_nil (String.utf8EncodeChar_ne_nil (c := c))
      have hdecode := decodeChar?_encode c (cs.flatMap String.utf8EncodeChar)
      have hdrop : (String.utf8EncodeChar c ++ cs.flatMap String.utf8EncodeChar).drop c.utf8Size =
          cs.flatMap String.utf8EncodeChar := by
        rw [← String.length_utf8EncodeChar, List.drop_left]
      rw [hb, List.cons_append] at hdecode hdrop
      rw [List.flatMap_cons, hb, List.cons_append, lossyChars, hdecode]
      simp only [hdrop]
      exact congrArg (c :: ·) (ih n (Nat.le_of_succ_le_succ hn))

theorem length_le_encode (cs : List Char) :
    cs.length ≤ (cs.flatMap String.utf8EncodeChar).length := by
  induction cs with
  | nil => exact Nat.le_refl 0
  | cons c cs ih =>
    have hc := c.utf8Size_pos
    rw [List.flatMap_cons, List.length_append, String.length_utf8EncodeChar, List.length_cons]
    omega

@[simp] theorem fromUtf8Lossy_encode (s : String) : fromUtf8Lossy (encode s) = s := by
  rw [fromUtf8Lossy, encode_eq, lossyChars_encode _ _ (length_le_encode s.toList),
    String.ofList_toList]

/-! Where characters begin in a text. -/

def encodeChars (cs : List Char) : List UInt8 := cs.flatMap String.utf8EncodeChar

/-- A text may be cut here: at its ends, or before a byte that continues no character. -/
def isBoundary (bytes : List UInt8) (n : Nat) : Bool :=
  n == 0 || n == bytes.length || bytes[n]?.any (!isContinuation ·)

def findBytes (needle bytes : List UInt8) : Option Nat :=
  bytes.tails.findIdx? fun rest => needle.isPrefixOf rest

/-- The bytes from the offset on; `none` off the end, or inside a character. -/
def sliceBytes (bytes : List UInt8) (n : Nat) : Option (List UInt8) :=
  if isBoundary bytes n then some (bytes.drop n) else none

theorem encode_eq_encodeChars (s : String) : encode s = encodeChars s.toList := encode_eq s

@[simp] theorem encodeChars_nil : encodeChars [] = [] := rfl

@[simp] theorem encodeChars_cons (c : Char) (cs : List Char) :
    encodeChars (c :: cs) = String.utf8EncodeChar c ++ encodeChars cs := List.flatMap_cons

@[simp] theorem encodeChars_append (cs ds : List Char) :
    encodeChars (cs ++ ds) = encodeChars cs ++ encodeChars ds := List.flatMap_append

set_option maxRecDepth 4096 in
theorem isContinuation_iff (b : UInt8) :
    isContinuation b = true ↔ 0x80 ≤ b.toNat ∧ b.toNat < 0xC0 := by
  have hall : ∀ n : Fin 256, isContinuation (UInt8.ofFin n) = true ↔
      0x80 ≤ (UInt8.ofFin n).toNat ∧ (UInt8.ofFin n).toNat < 0xC0 := by decide
  exact hall b.toFin

theorem utf8EncodeChar_eq_cons (c : Char) : ∃ b bytes, String.utf8EncodeChar c = b :: bytes ∧
    isContinuation b = false ∧ ∀ b' ∈ bytes, isContinuation b' = true := by
  have hc : c.toNat < 0x110000 := by
    rcases c.valid with h | ⟨-, h⟩
    · exact Nat.lt_trans h (by decide)
    · exact h
  simp only [← Bool.not_eq_true, isContinuation_iff, String.utf8EncodeChar, Char.toNat_val]
  split_ifs
  · exact ⟨_, _, rfl, by simp; omega, by simp⟩
  · exact ⟨_, _, rfl, by simp; omega, by simp; omega⟩
  · exact ⟨_, _, rfl, by simp; omega, by simp; omega⟩
  · exact ⟨_, _, rfl, by simp; omega, by simp; omega⟩

theorem encodeChars_eq_append {w cs : List Char} {suf : List UInt8}
    (h : encodeChars cs = encodeChars w ++ suf) :
    ∃ rest, cs = w ++ rest ∧ encodeChars rest = suf := by
  induction w generalizing cs with
  | nil => exact ⟨cs, rfl, h⟩
  | cons c w ih =>
    cases cs with
    | nil =>
      obtain ⟨b, bytes, hb, -⟩ := utf8EncodeChar_eq_cons c
      rw [encodeChars_cons, hb] at h
      cases h
    | cons d cs =>
      rw [encodeChars_cons, encodeChars_cons, List.append_assoc] at h
      have hdecode := decodeChar?_encode d (encodeChars cs)
      rw [h, decodeChar?_encode] at hdecode
      cases hdecode
      obtain ⟨rest, rfl, hrest⟩ := ih (List.append_cancel_left h)
      exact ⟨rest, rfl, hrest⟩

theorem encodeChars_eq_append_append {w cs : List Char} {pre suf : List UInt8} (hw : w ≠ [])
    (h : encodeChars cs = pre ++ (encodeChars w ++ suf)) :
    ∃ before after, cs = before ++ (w ++ after) ∧ encodeChars before = pre ∧
      encodeChars after = suf := by
  induction cs generalizing pre with
  | nil =>
    obtain ⟨c, w, rfl⟩ := List.exists_cons_of_ne_nil hw
    obtain ⟨b, bytes, hb, -⟩ := utf8EncodeChar_eq_cons c
    rw [encodeChars_cons, hb] at h
    simp at h
  | cons d cs ih =>
    rw [encodeChars_cons] at h
    rcases List.append_eq_append_iff.mp h with ⟨pre', rfl, hrest⟩ | ⟨inner, hd, hrest⟩
    · obtain ⟨before, after, rfl, rfl, hafter⟩ := ih hrest
      exact ⟨d :: before, after, rfl, rfl, hafter⟩
    · cases pre with
      | nil =>
        rw [← encodeChars_cons] at h
        obtain ⟨after, hcs, hafter⟩ := encodeChars_eq_append h
        exact ⟨[], after, hcs, rfl, hafter⟩
      | cons b pre =>
        cases inner with
        | nil =>
          obtain ⟨before, after, rfl, hbefore, hafter⟩ := @ih [] hrest.symm
          refine ⟨d :: before, after, rfl, ?_, hafter⟩
          rw [encodeChars_cons, hbefore, List.append_nil, hd, List.append_nil]
        | cons b' inner =>
          -- inside a character no other begins
          obtain ⟨b₀, bytes, hbytes, -, hinner⟩ := utf8EncodeChar_eq_cons d
          obtain ⟨-, rfl⟩ := List.cons.inj (hbytes.symm.trans hd)
          obtain ⟨c, w, rfl⟩ := List.exists_cons_of_ne_nil hw
          obtain ⟨b₁, bytes', hc, hfirst, -⟩ := utf8EncodeChar_eq_cons c
          rw [encodeChars_cons, hc] at hrest
          obtain ⟨rfl, -⟩ := List.cons.inj hrest
          rw [hinner b₁ (by simp)] at hfirst
          cases hfirst

theorem findBytes_eq {needle pre suf : List UInt8}
    (hfirst : ∀ pre' suf', pre ++ (needle ++ suf) = pre' ++ (needle ++ suf') →
      pre.length ≤ pre'.length) : findBytes needle (pre ++ (needle ++ suf)) = some pre.length := by
  refine List.findIdx?_eq_some_iff_getElem.mpr ⟨?_, ?_, ?_⟩
  · simp
    omega
  · rw [List.getElem_tails, List.drop_left, List.isPrefixOf_iff_prefix]
    exact List.prefix_append needle suf
  · intro j hj hoccurs
    rw [List.getElem_tails, List.isPrefixOf_iff_prefix] at hoccurs
    obtain ⟨suf', hsuf⟩ := hoccurs
    have hle := hfirst ((pre ++ (needle ++ suf)).take j) suf'
      (by rw [hsuf, List.take_append_drop])
    rw [List.length_take] at hle
    omega

theorem findBytes_eq_none {needle bytes : List UInt8}
    (h : ∀ pre suf, bytes ≠ pre ++ (needle ++ suf)) : findBytes needle bytes = none := by
  refine List.findIdx?_eq_none_iff.mpr ?_
  intro rest hrest
  rw [List.mem_tails] at hrest
  obtain ⟨pre, rfl⟩ := hrest
  rw [Bool.eq_false_iff, Ne, List.isPrefixOf_iff_prefix]
  rintro ⟨suf, rfl⟩
  exact h pre suf rfl

theorem sliceBytes_eq_some {bytes rest : List UInt8} {n : Nat} :
    sliceBytes bytes n = some rest ↔ isBoundary bytes n = true ∧ bytes.drop n = rest := by
  rw [sliceBytes, Option.ite_none_right_eq_some, Option.some_inj]

theorem isBoundary_encodeChars_cons (c : Char) (cs : List Char) (n : Nat) :
    isBoundary (encodeChars (c :: cs)) (c.utf8Size + n) = isBoundary (encodeChars cs) n := by
  have hc := c.utf8Size_pos
  have hlength := String.length_utf8EncodeChar c
  rw [isBoundary, isBoundary, encodeChars_cons, List.length_append, hlength,
    List.getElem?_append_right (by omega), hlength, Nat.add_sub_cancel_left]
  cases n with
  | zero =>
    cases cs with
    | nil => simp
    | cons d cs =>
      obtain ⟨b, bytes, hb, hfirst, -⟩ := utf8EncodeChar_eq_cons d
      simp [hb, hfirst]
  | succ n =>
    rw [Bool.eq_iff_iff]
    simp

theorem isBoundary_inside {c : Char} {n : Nat} (hn : n + 1 < c.utf8Size) (cs : List Char) :
    isBoundary (encodeChars (c :: cs)) (n + 1) = false := by
  obtain ⟨b, bytes, hb, -, hinner⟩ := utf8EncodeChar_eq_cons c
  have hlength := String.length_utf8EncodeChar c
  rw [hb, List.length_cons] at hlength
  have hin : n < bytes.length := by omega
  rw [isBoundary, encodeChars_cons, hb, List.cons_append, List.getElem?_cons_succ,
    List.getElem?_append_left hin, List.getElem?_eq_getElem hin, List.length_cons,
    List.length_append]
  have hne : n ≠ bytes.length + (encodeChars cs).length := by omega
  simp [hinner _ (List.getElem_mem hin), hne]

end Utf8
