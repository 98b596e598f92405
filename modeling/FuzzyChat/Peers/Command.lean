import FuzzyChat.Text
import FuzzyChat.Peers.Models

/-! The command line of a client. -/

namespace FuzzyChat
open Text

inductive Command where
  | send (toUid : String) (content : List UInt8)
  | status
  deriving DecidableEq

namespace Command

def SEND : String := "/send"

def STATUS : String := "/status"

def usage : Fault := .text "Invalid command format. Usage: /send <to> <message>"

/-- ASCII is lowered letter by letter; `tables` is what Unicode makes of any other word. -/
def toLowercase (tables : String → String) (word : List Char) : String :=
  if word.all (·.toNat < 128) then String.ofList (word.map Char.toLower)
  else tables (String.ofList word)

def unwrap {α : Type} : Option α → Except Fault α
  | some a => .ok a
  | none => .error (.abort .panic)

def fromStr (tables : String → String) (command : String) : Except Fault Command :=
  let line := command.toList
  let wording := splitWhitespace line
  let cmd := toLowercase tables (wording.head?.getD [])
  if cmd = SEND then
    match wording.tail.head? with
    | some toUid => do
      let index ← unwrap (find toUid line)
      let rest ← unwrap (sliceFrom line (index + len toUid))
      let message := Utf8.encode (String.ofList (trim rest))
      if message.isEmpty then .error usage else .ok (.send (String.ofList toUid) message)
    | none => .error usage
  else if cmd = STATUS then .ok .status
  else .error (.text ("Unknown command: " ++ command))

/-- The line is a send command to the recipient. -/
structure SendLine (tables : String → String) (line lead cmd gap toUid rest : List Char) :
    Prop where
  eq : line = lead ++ (cmd ++ (gap ++ (toUid ++ rest)))
  blank_lead : Blank lead
  word_cmd : IsWord cmd
  lower : toLowercase tables cmd = SEND
  blank_gap : Blank gap
  gap_ne_nil : gap ≠ []
  word_to : IsWord toUid
  ends : Ends rest

def StatusLine (tables : String → String) (line : List Char) : Prop :=
  ∃ lead cmd rest, line = lead ++ (cmd ++ rest) ∧ Blank lead ∧ IsWord cmd ∧ Ends rest ∧
    toLowercase tables cmd = STATUS

structure ParsesExactly (tables : String → String) (command : String) : Prop where
  send : ∀ lead cmd gap toUid rest, SendLine tables command.toList lead cmd gap toUid rest →
    fromStr tables command =
      if trim rest = [] then .error usage
      else .ok (.send (String.ofList toUid) (Utf8.encode (String.ofList (trim rest))))
  status : fromStr tables command = .ok .status ↔ StatusLine tables command.toList
  other : (¬ ∃ lead cmd gap toUid rest, SendLine tables command.toList lead cmd gap toUid rest) →
    ¬ StatusLine tables command.toList → ∃ text, fromStr tables command = .error (.text text)

section
variable {tables : String → String} {command : String}

theorem encode_inj {cs ds : List Char} :
    Utf8.encode (String.ofList cs) = Utf8.encode (String.ofList ds) ↔ cs = ds := by
  constructor
  · intro h
    have hsame := congrArg Utf8.fromUtf8Lossy h
    rw [Utf8.fromUtf8Lossy_encode, Utf8.fromUtf8Lossy_encode] at hsame
    exact String.ofList_injective hsame
  · rintro rfl
    rfl

theorem encode_isEmpty (cs : List Char) :
    (Utf8.encode (String.ofList cs)).isEmpty = true ↔ cs = [] := by
  rw [List.isEmpty_iff, ← encode_inj]
  rfl

theorem SendLine.words {lead cmd gap toUid rest : List Char}
    (h : SendLine tables command.toList lead cmd gap toUid rest) :
    splitWhitespace command.toList = cmd :: toUid :: splitWhitespace rest := by
  have hends : Ends (gap ++ (toUid ++ rest)) := by
    obtain ⟨c, gap', rfl⟩ := List.exists_cons_of_ne_nil h.gap_ne_nil
    rintro d ⟨⟩
    exact h.blank_gap c List.mem_cons_self
  rw [h.eq, splitWhitespace_blank_append h.blank_lead, splitWhitespace_word_append h.word_cmd hends,
    splitWhitespace_blank_append h.blank_gap, splitWhitespace_word_append h.word_to h.ends]

theorem SendLine.fromStr_eq {lead cmd gap toUid rest pre suf : List Char}
    (h : SendLine tables command.toList lead cmd gap toUid rest)
    (hline : command.toList = pre ++ (toUid ++ suf))
    (hfind : find toUid command.toList = some (len pre)) :
    fromStr tables command =
      if trim suf = [] then .error usage
      else .ok (.send (String.ofList toUid) (Utf8.encode (String.ofList (trim suf)))) := by
  have hslice : sliceFrom command.toList (len pre + len toUid) = some suf := by
    rw [hline]
    exact sliceFrom_behind pre toUid suf
  unfold fromStr
  simp only [h.words, List.head?_cons, Option.getD_some, h.lower, if_true, List.tail_cons, hfind,
    unwrap, bind, Except.bind, hslice, encode_isEmpty]

theorem SendLine.fromStr_iff {lead cmd gap toUid rest : List Char}
    (h : SendLine tables command.toList lead cmd gap toUid rest) :
    fromStr tables command =
      (if trim rest = [] then .error usage
      else .ok (.send (String.ofList toUid) (Utf8.encode (String.ofList (trim rest))))) ↔
    ¬ toUid <:+: cmd := by
  constructor
  · intro hexact hin
    obtain ⟨pre, mid, hline, hfind⟩ :=
      @find_inside _ lead _ hin (gap ++ (toUid ++ rest))
    rw [← h.eq] at hline hfind
    rw [h.fromStr_eq hline hfind] at hexact
    have hlt := length_trim_lt h.word_to (mid ++ gap) rest
    rw [List.append_assoc] at hlt
    have hne : trim (mid ++ (gap ++ (toUid ++ rest))) ≠ [] := by
      intro hnil
      rw [hnil] at hlt
      nomatch hlt
    rw [if_neg hne] at hexact
    split_ifs at hexact
    have hsame : trim (mid ++ (gap ++ (toUid ++ rest))) = trim rest := by
      simpa [encode_inj] using hexact
    rw [hsame] at hlt
    exact absurd hlt (Nat.lt_irrefl _)
  · intro hno
    have hline : command.toList = lead ++ (cmd ++ gap) ++ (toUid ++ rest) := by
      rw [h.eq]
      simp
    apply h.fromStr_eq hline
    rw [h.eq]
    exact find_second h.blank_lead h.blank_gap h.gap_ne_nil h.word_to hno

theorem statusLine_iff {line : List Char} :
    StatusLine tables line ↔
      ∃ cmd ws, splitWhitespace line = cmd :: ws ∧ toLowercase tables cmd = STATUS := by
  constructor
  · rintro ⟨lead, cmd, rest, heq, hlead, hcmd, hends, hlower⟩
    exact ⟨cmd, _, splitWhitespace_eq_cons.mpr ⟨lead, rest, heq, hlead, hcmd, hends, rfl⟩, hlower⟩
  · rintro ⟨cmd, ws, hwords, hlower⟩
    obtain ⟨lead, rest, heq, hlead, hcmd, hends, -⟩ := splitWhitespace_eq_cons.mp hwords
    exact ⟨lead, cmd, rest, heq, hlead, hcmd, hends, hlower⟩

theorem SendLine.not_statusLine {lead cmd gap toUid rest : List Char}
    (h : SendLine tables command.toList lead cmd gap toUid rest) :
    ¬ StatusLine tables command.toList := by
  rw [statusLine_iff, h.words]
  rintro ⟨cmd', ws', heq, hlower⟩
  obtain ⟨rfl, -⟩ := List.cons.inj heq
  exact absurd (h.lower.symm.trans hlower) (by decide)

theorem exists_sendLine {line cmd toUid : List Char} {ws : List (List Char)}
    (hwords : splitWhitespace line = cmd :: toUid :: ws) (hlower : toLowercase tables cmd = SEND) :
    ∃ lead gap rest, SendLine tables line lead cmd gap toUid rest := by
  obtain ⟨lead, after, rfl, hlead, hcmd, hends, hafter⟩ := splitWhitespace_eq_cons.mp hwords
  obtain ⟨gap, rest, rfl, hgap, hto, hrest, -⟩ := splitWhitespace_eq_cons.mp hafter
  refine ⟨lead, gap, rest, rfl, hlead, hcmd, hlower, hgap, ?_, hto, hrest⟩
  rintro rfl
  obtain ⟨c, toUid, rfl⟩ := List.exists_cons_of_ne_nil hto.ne_nil
  have hwhite := hends c rfl
  rw [hto.black c List.mem_cons_self] at hwhite
  nomatch hwhite

theorem fromStr_eq_of_not_send
    (hno : ∀ lead cmd gap toUid rest, ¬ SendLine tables command.toList lead cmd gap toUid rest) :
    fromStr tables command = .ok .status ∧ StatusLine tables command.toList ∨
      (∃ text, fromStr tables command = .error (.text text)) ∧
        ¬ StatusLine tables command.toList := by
  rw [statusLine_iff]
  unfold fromStr
  cases hwords : splitWhitespace command.toList with
  | nil =>
    simp only [hwords]
    exact .inr ⟨⟨_, rfl⟩, by simp⟩
  | cons cmd ws =>
    simp only [hwords, List.head?_cons, Option.getD_some, List.tail_cons]
    split_ifs with hsend hstatus
    · cases ws with
      | nil =>
        refine .inr ⟨⟨_, rfl⟩, ?_⟩
        rintro ⟨cmd', ws', heq, hlower⟩
        obtain ⟨rfl, rfl⟩ := List.cons.inj heq
        exact absurd (hsend.symm.trans hlower) (by decide)
      | cons toUid ws =>
        obtain ⟨lead, gap, rest, h⟩ := exists_sendLine hwords hsend
        exact absurd h (hno lead cmd gap toUid rest)
    · exact .inl ⟨rfl, cmd, ws, rfl, hstatus⟩
    · refine .inr ⟨⟨_, rfl⟩, ?_⟩
      rintro ⟨cmd', ws', heq, hlower⟩
      obtain ⟨rfl, rfl⟩ := List.cons.inj heq
      exact hstatus hlower

/-- A line is parsed exactly if and only if the recipient of a send command does not occur in the
command word as it is typed. -/
theorem parsesExactly_iff (tables : String → String) (command : String) :
    ParsesExactly tables command ↔
      ∀ lead cmd gap toUid rest, SendLine tables command.toList lead cmd gap toUid rest →
        ¬ toUid <:+: cmd := by
  constructor
  · exact fun h lead cmd gap toUid rest hline =>
      hline.fromStr_iff.mp (h.send lead cmd gap toUid rest hline)
  · intro h
    constructor
    case send =>
      exact fun lead cmd gap toUid rest hline =>
        hline.fromStr_iff.mpr (h lead cmd gap toUid rest hline)
    case status =>
      by_cases hsend : ∃ lead cmd gap toUid rest,
        SendLine tables command.toList lead cmd gap toUid rest
      · obtain ⟨lead, cmd, gap, toUid, rest, hline⟩ := hsend
        refine iff_of_false ?_ hline.not_statusLine
        rw [hline.fromStr_iff.mpr (h lead cmd gap toUid rest hline)]
        split_ifs <;> simp
      · rcases fromStr_eq_of_not_send fun lead cmd gap toUid rest hline =>
          hsend ⟨lead, cmd, gap, toUid, rest, hline⟩ with ⟨hok, hline⟩ | ⟨⟨text, herr⟩, hline⟩
        · exact iff_of_true hok hline
        · refine iff_of_false ?_ hline
          rw [herr]
          simp
    case other =>
      intro hno hstatus
      rcases fromStr_eq_of_not_send fun lead cmd gap toUid rest hline =>
        hno ⟨lead, cmd, gap, toUid, rest, hline⟩ with ⟨-, hline⟩ | ⟨herr, -⟩
      · exact absurd hline hstatus
      · exact herr

theorem second_found {cmd toUid : List Char} {ws : List (List Char)}
    (hwords : splitWhitespace command.toList = cmd :: toUid :: ws) :
    ∃ pre suf, command.toList = pre ++ (toUid ++ suf) ∧ IsWord toUid ∧
      find toUid command.toList = some (len pre) := by
  obtain ⟨lead, after, heq, -, -, -, hafter⟩ := splitWhitespace_eq_cons.mp hwords
  obtain ⟨gap, rest, rfl, -, hto, -, -⟩ := splitWhitespace_eq_cons.mp hafter
  have hin : toUid <:+: command.toList := ⟨lead ++ (cmd ++ gap), rest, by simp [heq]⟩
  obtain ⟨pre, suf, hline, hfind, -⟩ := exists_find hin
  exact ⟨pre, suf, hline, hto, hfind⟩

/-- No line makes the parser panic: the second word is found in the bytes of the line, and where
it ends the line can be cut. -/
theorem fromStr_never_panics (tables : String → String) (command : String) :
    (∀ abort, fromStr tables command ≠ .error (.abort abort)) ∧
      ∀ cmd toUid ws, splitWhitespace command.toList = cmd :: toUid :: ws →
        ∃ index, find toUid command.toList = some index ∧
          Utf8.findBytes (Utf8.encodeChars toUid) (Utf8.encode command) = some index ∧
          len toUid = (Utf8.encodeChars toUid).length ∧
          index + len toUid ≤ (Utf8.encode command).length ∧
          Utf8.isBoundary (Utf8.encode command) (index + len toUid) = true ∧
          (sliceFrom command.toList (index + len toUid)).map Utf8.encodeChars =
            some ((Utf8.encode command).drop (index + len toUid)) := by
  constructor
  · intro abort
    by_cases hsend : ∃ lead cmd gap toUid rest,
      SendLine tables command.toList lead cmd gap toUid rest
    · obtain ⟨lead, cmd, gap, toUid, rest, hline⟩ := hsend
      obtain ⟨pre, suf, heq, -, hfind⟩ := second_found hline.words
      rw [hline.fromStr_eq heq hfind]
      split_ifs <;> simp [usage]
    · rcases fromStr_eq_of_not_send fun lead cmd gap toUid rest hline =>
        hsend ⟨lead, cmd, gap, toUid, rest, hline⟩ with ⟨hok, -⟩ | ⟨⟨text, herr⟩, -⟩
      · rw [hok]
        simp
      · rw [herr]
        simp
  · intro cmd toUid ws hwords
    obtain ⟨pre, suf, hline, hto, hfind⟩ := second_found hwords
    have hcut : sliceFrom command.toList (len pre + len toUid) = some suf := by
      rw [hline]
      exact sliceFrom_behind pre toUid suf
    have hbytes := map_sliceFrom command.toList (len pre + len toUid)
    rw [hcut] at hbytes
    obtain ⟨hboundary, hdrop⟩ := Utf8.sliceBytes_eq_some.mp hbytes.symm
    have hlength : len pre + len toUid ≤ (Utf8.encodeChars command.toList).length := by
      rw [length_encodeChars, hline, len_append, len_append]
      omega
    rw [Utf8.encode_eq_encodeChars]
    refine ⟨len pre, hfind, ?_, (length_encodeChars toUid).symm, hlength, hboundary, ?_⟩
    · rw [← find_eq_findBytes hto.ne_nil, hfind]
    · rw [hcut, hdrop]
      rfl

end

example : fromStr id "/send user123 Hello, World!" =
    .ok (.send "user123" (Utf8.encode "Hello, World!")) := by decide

/-- A recipient `send` is found in the command word, and the rest of the line is sent, itself
included. -/
theorem recipient_misplaced : ¬ ∀ tables command, ParsesExactly tables command := by
  intro hall
  have hline : SendLine id "/send send hi".toList [] "/send".toList [' '] "send".toList
      " hi".toList := by
    constructor
    case eq => rfl
    case blank_lead => exact fun c hc => nomatch hc
    case word_cmd => exact ⟨by simp, by simp [isWhitespace]⟩
    case lower => decide
    case blank_gap => simp [Blank, isWhitespace]
    case gap_ne_nil => decide
    case word_to => exact ⟨by simp, by simp [isWhitespace]⟩
    case ends =>
      rintro c ⟨⟩
      decide
  exact absurd ((hall id _).send _ _ _ _ _ hline) (by decide)

end Command
end FuzzyChat
