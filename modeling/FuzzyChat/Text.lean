import FuzzyChat.Utf8

/-! Words of a text and substrings of it, the latter found and cut off at offsets that count the
bytes of its UTF-8 encoding. -/

namespace Text

/-- The Unicode property `White_Space`. -/
def isWhitespace (c : Char) : Bool :=
  let n := c.toNat
  (0x9 ≤ n && n ≤ 0xD) || n == 0x20 || n == 0x85 || n == 0xA0 || n == 0x1680 ||
    (0x2000 ≤ n && n ≤ 0x200A) || n == 0x2028 || n == 0x2029 || n == 0x202F || n == 0x205F ||
    n == 0x3000

def splitWhitespace (cs : List Char) : List (List Char) :=
  (cs.splitOnP isWhitespace).filter (!·.isEmpty)

def trim (cs : List Char) : List Char := (cs.rdropWhile isWhitespace).dropWhile isWhitespace

def len (cs : List Char) : Nat := (cs.map Char.utf8Size).sum

def find (needle : List Char) : List Char → Option Nat
  | [] => if needle.isEmpty then some 0 else none
  | c :: cs =>
    if needle.isPrefixOf (c :: cs) then some 0 else (find needle cs).map (c.utf8Size + ·)

/-- The text from the offset on; `none` off the end, or inside a character. -/
def sliceFrom : List Char → Nat → Option (List Char)
  | cs, 0 => some cs
  | [], _ + 1 => none
  | c :: cs, n + 1 => if n + 1 < c.utf8Size then none else sliceFrom cs (n + 1 - c.utf8Size)

structure IsWord (w : List Char) : Prop where
  ne_nil : w ≠ []
  black : ∀ c ∈ w, isWhitespace c = false

def Ends (rest : List Char) : Prop := ∀ c ∈ rest.head?, isWhitespace c = true

def Blank (cs : List Char) : Prop := ∀ c ∈ cs, isWhitespace c = true

variable {cs w rest : List Char}

/-! Words. -/

theorem splitWhitespace_nil : splitWhitespace [] = [] := rfl

theorem splitWhitespace_cons {c : Char} (h : isWhitespace c = true) (cs : List Char) :
    splitWhitespace (c :: cs) = splitWhitespace cs := by
  rw [splitWhitespace, List.splitOnP_cons_eq_if_modifyHead, if_pos h]
  rfl

theorem splitWhitespace_blank_append {blank : List Char} (h : Blank blank) (cs : List Char) :
    splitWhitespace (blank ++ cs) = splitWhitespace cs := by
  induction blank with
  | nil => rfl
  | cons c blank ih =>
    rw [List.cons_append, splitWhitespace_cons (h c List.mem_cons_self)]
    exact ih fun d hd => h d (List.mem_cons_of_mem c hd)

theorem splitWhitespace_word_append (hw : IsWord w) (hrest : Ends rest) :
    splitWhitespace (w ++ rest) = w :: splitWhitespace rest := by
  have hkept : w.isEmpty = false := by simp [hw.ne_nil]
  cases rest with
  | nil =>
    rw [List.append_nil, splitWhitespace, List.splitOnP_eq_singleton hw.black]
    simp [hkept, splitWhitespace_nil]
  | cons c rest =>
    have hc : isWhitespace c = true := hrest c rfl
    rw [splitWhitespace, List.splitOnP_append_cons_of_forall_mem hw.black c hc,
      splitWhitespace_cons hc]
    simp [hkept, splitWhitespace]

theorem blank_or_exists_word (cs : List Char) :
    Blank cs ∨ ∃ blank w rest, cs = blank ++ (w ++ rest) ∧ Blank blank ∧ IsWord w ∧ Ends rest := by
  have hblank : Blank (cs.takeWhile isWhitespace) := fun c hc => List.mem_takeWhile_imp hc
  cases hcs : cs.dropWhile isWhitespace with
  | nil =>
    left
    have hall := List.takeWhile_append_dropWhile (p := isWhitespace) (l := cs)
    rw [hcs, List.append_nil] at hall
    rwa [hall] at hblank
  | cons c after =>
    right
    have hc : isWhitespace c = false := by
      have hhead := List.head?_dropWhile_not isWhitespace cs
      rw [hcs] at hhead
      simpa using hhead
    refine ⟨_, (c :: after).takeWhile (!isWhitespace ·), (c :: after).dropWhile (!isWhitespace ·),
      ?_, hblank, ⟨?_, ?_⟩, ?_⟩
    · rw [List.takeWhile_append_dropWhile, ← hcs, List.takeWhile_append_dropWhile]
    · simp [hc]
    · intro d hd
      simpa using List.mem_takeWhile_imp hd
    · intro d hd
      have hhead := List.head?_dropWhile_not (!isWhitespace ·) (c :: after)
      rw [Option.mem_def.mp hd] at hhead
      simpa using hhead

theorem splitWhitespace_eq_nil : splitWhitespace cs = [] ↔ Blank cs := by
  rcases blank_or_exists_word cs with hblank | ⟨blank, w, rest, rfl, hblank, hw, hrest⟩
  · refine iff_of_true ?_ hblank
    have h := splitWhitespace_blank_append hblank []
    rwa [List.append_nil] at h
  · refine iff_of_false ?_ fun h => ?_
    · rw [splitWhitespace_blank_append hblank, splitWhitespace_word_append hw hrest]
      exact List.cons_ne_nil _ _
    · obtain ⟨c, hc⟩ := List.exists_mem_of_ne_nil w hw.ne_nil
      have hwhite := h c (List.mem_append_right _ (List.mem_append_left _ hc))
      rw [hw.black c hc] at hwhite
      nomatch hwhite

theorem splitWhitespace_eq_cons {ws : List (List Char)} :
    splitWhitespace cs = w :: ws ↔
      ∃ blank rest, cs = blank ++ (w ++ rest) ∧ Blank blank ∧ IsWord w ∧ Ends rest ∧
        splitWhitespace rest = ws := by
  constructor
  · intro h
    rcases blank_or_exists_word cs with hblank | ⟨blank, w', rest, rfl, hblank, hw, hrest⟩
    · rw [splitWhitespace_eq_nil.mpr hblank] at h
      nomatch h
    · rw [splitWhitespace_blank_append hblank, splitWhitespace_word_append hw hrest] at h
      obtain ⟨rfl, rfl⟩ := List.cons.inj h
      exact ⟨blank, rest, rfl, hblank, hw, hrest, rfl⟩
  · rintro ⟨blank, rest, rfl, hblank, hw, hrest, rfl⟩
    rw [splitWhitespace_blank_append hblank, splitWhitespace_word_append hw hrest]

/-! Substrings. -/

variable {pre suf : List Char}

theorem len_append (cs ds : List Char) : len (cs ++ ds) = len cs + len ds := by
  rw [len, List.map_append, List.sum_append]
  rfl

theorem sliceFrom_append (cs ds : List Char) : sliceFrom (cs ++ ds) (len cs) = some ds := by
  induction cs with
  | nil => cases ds <;> rfl
  | cons c cs ih =>
    have hlen : len (c :: cs) = c.utf8Size + len cs := by simp [len]
    obtain ⟨n, hn⟩ : ∃ n, len (c :: cs) = n + 1 :=
      Nat.exists_eq_add_one_of_ne_zero (by have := c.utf8Size_pos; omega)
    rw [hn, List.cons_append, sliceFrom, if_neg (by omega),
      show n + 1 - c.utf8Size = len cs by omega]
    exact ih

theorem sliceFrom_behind (pre w suf : List Char) :
    sliceFrom (pre ++ (w ++ suf)) (len pre + len w) = some suf := by
  rw [← len_append, ← List.append_assoc]
  exact sliceFrom_append (pre ++ w) suf

theorem exists_find (h : w <:+: cs) : ∃ pre suf, cs = pre ++ (w ++ suf) ∧
    find w cs = some (len pre) ∧
    ∀ pre' suf', cs = pre' ++ (w ++ suf') → pre.length ≤ pre'.length := by
  induction cs with
  | nil =>
    obtain rfl := List.infix_nil.mp h
    exact ⟨[], [], rfl, rfl, fun _ _ _ => Nat.zero_le _⟩
  | cons c cs ih =>
    by_cases hpre : w <+: c :: cs
    · obtain ⟨suf, hsuf⟩ := hpre
      refine ⟨[], suf, hsuf.symm, ?_, fun _ _ _ => Nat.zero_le _⟩
      rw [find, if_pos (List.isPrefixOf_iff_prefix.mpr ⟨suf, hsuf⟩)]
      rfl
    · obtain ⟨pre, suf, hcs, hfind, hfirst⟩ := ih ((List.infix_cons_iff.mp h).resolve_left hpre)
      refine ⟨c :: pre, suf, by rw [hcs]; rfl, ?_, ?_⟩
      · rw [find, if_neg (fun hp => hpre (List.isPrefixOf_iff_prefix.mp hp)), hfind]
        simp [len]
      · intro pre' suf' hsame
        cases pre' with
        | nil => exact absurd ⟨suf', hsame.symm⟩ hpre
        | cons d pre' => exact Nat.succ_le_succ (hfirst pre' suf' (List.cons.inj hsame).2)

theorem find_eq (hfirst : ∀ pre' suf', pre ++ (w ++ suf) = pre' ++ (w ++ suf') →
    pre.length ≤ pre'.length) : find w (pre ++ (w ++ suf)) = some (len pre) := by
  have hin : w <:+: pre ++ (w ++ suf) := ⟨pre, suf, by simp⟩
  obtain ⟨pre', suf', hsame, hfind, hfirst'⟩ := exists_find hin
  have hlength : pre.length = pre'.length :=
    Nat.le_antisymm (hfirst pre' suf' hsame) (hfirst' pre suf rfl)
  rw [hfind, (List.append_inj hsame hlength).1]

theorem skip_blank {blank : List Char} (hblank : Blank blank) (hw : IsWord w)
    (h : pre ++ (w ++ suf) = blank ++ cs) :
    ∃ pre', pre = blank ++ pre' ∧ pre' ++ (w ++ suf) = cs := by
  induction blank generalizing pre with
  | nil => exact ⟨pre, rfl, h⟩
  | cons b blank ih =>
    cases pre with
    | nil =>
      obtain ⟨c, w', rfl⟩ := List.exists_cons_of_ne_nil hw.ne_nil
      obtain ⟨rfl, -⟩ := List.cons.inj h
      have hwhite := hblank c List.mem_cons_self
      rw [hw.black c List.mem_cons_self] at hwhite
      nomatch hwhite
    | cons c pre =>
      obtain ⟨rfl, h'⟩ := List.cons.inj h
      obtain ⟨pre', rfl, hrest⟩ := ih (fun d hd => hblank d (List.mem_cons_of_mem _ hd)) h'
      exact ⟨pre', rfl, hrest⟩

theorem before_or_after_blank {s : Char} (hs : isWhitespace s = true) (hw : IsWord w)
    {cs ds : List Char} (h : pre ++ (w ++ suf) = cs ++ s :: ds) :
    w <:+: cs ∨ ∃ pre', pre = cs ++ s :: pre' ∧ pre' ++ (w ++ suf) = ds := by
  have hnot : ∀ d ∈ w, d ≠ s := by
    rintro d hd rfl
    rw [hw.black d hd] at hs
    nomatch hs
  rcases List.append_eq_append_iff.mp h with ⟨mid, rfl, hmid⟩ | ⟨mid, rfl, hmid⟩
  · rcases List.append_eq_append_iff.mp hmid with ⟨after, rfl, -⟩ | ⟨after, rfl, hafter⟩
    · exact .inl ⟨pre, after, by simp⟩
    · cases after with
      | nil => exact .inl ⟨pre, [], by simp⟩
      | cons d after =>
        obtain ⟨rfl, -⟩ := List.cons.inj hafter
        exact absurd rfl (hnot s (by simp))
  · cases mid with
    | nil =>
      obtain ⟨c, w', rfl⟩ := List.exists_cons_of_ne_nil hw.ne_nil
      obtain ⟨rfl, -⟩ := List.cons.inj hmid
      exact absurd rfl (hnot s List.mem_cons_self)
    | cons d mid =>
      obtain ⟨rfl, rfl⟩ := List.cons.inj hmid
      exact .inr ⟨mid, rfl, rfl⟩

section second
variable {lead first gap : List Char}

theorem find_second (hlead : Blank lead) (hgap : Blank gap) (hne : gap ≠ []) (hw : IsWord w)
    (hno : ¬ w <:+: first) : find w (lead ++ (first ++ (gap ++ (w ++ rest)))) =
      some (len (lead ++ (first ++ gap))) := by
  have hline : lead ++ (first ++ (gap ++ (w ++ rest))) = lead ++ (first ++ gap) ++ (w ++ rest) := by
    simp
  rw [hline]
  apply find_eq
  intro pre' suf' hsame
  rw [← hline] at hsame
  obtain ⟨pre₁, rfl, h₁⟩ := skip_blank hlead hw hsame.symm
  obtain ⟨s, gap, rfl⟩ := List.exists_cons_of_ne_nil hne
  rcases before_or_after_blank (hgap s List.mem_cons_self) hw h₁ with hin | ⟨pre₂, rfl, h₂⟩
  · exact absurd hin hno
  · obtain ⟨pre₃, rfl, -⟩ := skip_blank (fun c hc => hgap c (List.mem_cons_of_mem _ hc)) hw h₂
    simp only [List.length_append, List.length_cons]
    omega

theorem find_inside (hin : w <:+: first) (tail : List Char) :
    ∃ pre mid, lead ++ (first ++ tail) = pre ++ (w ++ (mid ++ tail)) ∧
      find w (lead ++ (first ++ tail)) = some (len pre) := by
  obtain ⟨a, b, rfl⟩ := hin
  have hin : w <:+: lead ++ (a ++ w ++ b ++ tail) := ⟨lead ++ a, b ++ tail, by simp⟩
  obtain ⟨pre, suf, hsame, hfind, hfirst⟩ := exists_find hin
  have hle : pre.length ≤ (lead ++ a).length := hfirst (lead ++ a) (b ++ tail) (by simp)
  have hfound : pre ++ w <+: lead ++ (a ++ w ++ b ++ tail) := ⟨suf, by rw [hsame]; simp⟩
  have hword : lead ++ (a ++ w ++ b) <+: lead ++ (a ++ w ++ b ++ tail) := ⟨tail, by simp⟩
  obtain ⟨mid, hmid⟩ : pre ++ w <+: lead ++ (a ++ w ++ b) := by
    apply List.prefix_of_prefix_length_le hfound hword
    simp only [List.length_append] at hle ⊢
    omega
  refine ⟨pre, mid, ?_, hfind⟩
  calc lead ++ (a ++ w ++ b ++ tail) = lead ++ (a ++ w ++ b) ++ tail := by simp
    _ = pre ++ w ++ mid ++ tail := by rw [hmid]
    _ = pre ++ (w ++ (mid ++ tail)) := by simp

end second

/-! The same in the bytes. -/

theorem length_encodeChars (cs : List Char) : (Utf8.encodeChars cs).length = len cs := by
  induction cs with
  | nil => rfl
  | cons c cs ih =>
    rw [Utf8.encodeChars_cons, List.length_append, String.length_utf8EncodeChar, ih]
    simp [len]

theorem find_eq_none (h : ¬ w <:+: cs) : find w cs = none := by
  induction cs with
  | nil =>
    rw [find, if_neg]
    rintro hnil
    rw [List.isEmpty_iff.mp hnil] at h
    exact h (List.nil_infix)
  | cons c cs ih =>
    rw [List.infix_cons_iff, not_or] at h
    rw [find, if_neg fun hp => h.1 (List.isPrefixOf_iff_prefix.mp hp), ih h.2]
    rfl

theorem find_eq_findBytes (hw : w ≠ []) (cs : List Char) :
    find w cs = Utf8.findBytes (Utf8.encodeChars w) (Utf8.encodeChars cs) := by
  by_cases h : w <:+: cs
  · obtain ⟨pre, suf, rfl, hfind, hfirst⟩ := exists_find h
    rw [hfind, Utf8.encodeChars_append, Utf8.encodeChars_append, Utf8.findBytes_eq,
      length_encodeChars]
    intro pre' suf' hsame
    rw [← Utf8.encodeChars_append, ← Utf8.encodeChars_append] at hsame
    obtain ⟨before, after, hcs, rfl, -⟩ := Utf8.encodeChars_eq_append_append hw hsame
    obtain ⟨mid, rfl⟩ : pre <+: before := List.prefix_of_prefix_length_le
      (List.prefix_append pre (w ++ suf)) (hcs ▸ List.prefix_append before (w ++ after))
      (hfirst before after hcs)
    simp
  · rw [find_eq_none h, Utf8.findBytes_eq_none]
    intro pre suf hsame
    obtain ⟨before, after, rfl, -⟩ := Utf8.encodeChars_eq_append_append hw hsame
    exact h ⟨before, after, by simp⟩

theorem map_sliceFrom (cs : List Char) (n : Nat) :
    (sliceFrom cs n).map Utf8.encodeChars = Utf8.sliceBytes (Utf8.encodeChars cs) n := by
  induction cs generalizing n with
  | nil => cases n <;> rfl
  | cons c cs ih =>
    cases n with
    | zero => rfl
    | succ n =>
      rw [sliceFrom]
      split_ifs with hin
      · rw [Utf8.sliceBytes, Utf8.isBoundary_inside hin]
        rfl
      · obtain ⟨m, hm⟩ := Nat.exists_eq_add_of_le (Nat.le_of_not_lt hin)
        rw [hm, Nat.add_sub_cancel_left, ih, Utf8.sliceBytes, Utf8.sliceBytes,
          Utf8.isBoundary_encodeChars_cons, Utf8.encodeChars_cons, ← List.drop_drop,
          ← String.length_utf8EncodeChar, List.drop_left]

/-! Trimmed texts. -/

theorem rdropWhile_append_word (hw : IsWord w) (cs rest : List Char) :
    (cs ++ (w ++ rest)).rdropWhile isWhitespace =
      cs ++ (w ++ rest.rdropWhile isWhitespace) := by
  induction rest using List.reverseRecOn with
  | nil =>
    rw [List.append_nil, List.rdropWhile_nil, List.append_nil, List.rdropWhile_eq_self_iff]
    intro hne hwhite
    rw [List.getLast_append_of_ne_nil _ hw.ne_nil, hw.black _ (List.getLast_mem _)] at hwhite
    nomatch hwhite
  | append_singleton rest c ih =>
    rw [← List.append_assoc w, ← List.append_assoc cs, List.rdropWhile_concat,
      List.rdropWhile_concat, ih]
    split_ifs <;> simp

theorem length_trim_lt (hw : IsWord w) (cs rest : List Char) :
    (trim rest).length < (trim (cs ++ (w ++ rest))).length := by
  obtain ⟨c, w', rfl⟩ := List.exists_cons_of_ne_nil hw.ne_nil
  have hkept : ¬ isWhitespace c = true := by simp [hw.black c List.mem_cons_self]
  have htrim : trim (cs ++ (c :: w' ++ rest)) =
      cs.dropWhile isWhitespace ++ (c :: (w' ++ rest.rdropWhile isWhitespace)) := by
    rw [trim, rdropWhile_append_word hw, List.dropWhile_append, List.cons_append,
      List.dropWhile_cons_of_neg hkept]
    split_ifs with hnil
    · rw [List.isEmpty_iff.mp hnil, List.nil_append]
    · rfl
  have hle := List.length_dropWhile_le isWhitespace (rest.rdropWhile isWhitespace)
  rw [htrim, trim]
  simp only [List.length_append, List.length_cons]
  omega

end Text
