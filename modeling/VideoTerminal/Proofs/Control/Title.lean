import VideoTerminal.Proofs.Control.ControlString

/-!
# What control strings do

Of all that a control string may hold, a command to the operating system can set the title, and
nothing else ever happens.  How much of a payload counts is said by `Text.Cut`: controls are left
out, and what remains is cut off behind the character with which it fills a number of bytes.

`Parser.read_payload` follows the payload from its end.  What has been kept is cut off in that way
all along, so that it does not matter where in the payload the limit falls.  The main statement is
`Interpreter.feedText_controlString`.
-/

namespace VideoTerminal

namespace Text

/-- How many bytes a text takes. -/
def byteSize (text : List Char) : Nat := (String.ofList text).utf8ByteSize

/-- `front` is the shortest beginning of a text that takes at least `limit` bytes, or all of the
text if there is none. -/
structure Cut (limit : Nat) (text front : List Char) : Prop where
  isPrefix : front <+: text
  full : front = text ∨ limit ≤ byteSize front
  shortest : ∀ shorter, shorter <+: front → shorter ≠ front → byteSize shorter < limit

namespace Cut

variable {limit : Nat} {text front : List Char}

/-- Nothing is cut off nothing. -/
theorem nil (limit : Nat) : Cut limit [] [] where
  isPrefix := List.nil_prefix
  full := .inl rfl
  shortest _ h hne := absurd (List.prefix_nil.mp h) hne

/-- One more character is kept as long as there is room. -/
theorem concat (h : Cut limit text front) (c : Char) :
    Cut limit (text ++ [c]) (if byteSize front < limit then front ++ [c] else front) := by
  split
  · next hroom =>
    obtain rfl : front = text := h.full.resolve_right (Nat.not_le.mpr hroom)
    refine ⟨List.prefix_rfl, .inl rfl, fun shorter hshorter hne => ?_⟩
    have hfront := (List.prefix_concat_iff.mp hshorter).resolve_left hne
    by_cases hall : shorter = front
    · rw [hall]
      exact hroom
    · exact h.shortest shorter hfront hall
  · next hfull =>
    exact ⟨h.isPrefix.trans (List.prefix_append _ _), .inr (Nat.not_lt.mp hfull), h.shortest⟩

/-- A text that takes fewer bytes is kept whole. -/
theorem eq_of_byteSize_lt (h : Cut limit text front) (hsize : byteSize text < limit) :
    front = text := by
  refine h.full.resolve_right fun hfull => ?_
  obtain ⟨back, rfl⟩ := h.isPrefix
  unfold byteSize at hsize hfull
  rw [String.ofList_append, String.utf8ByteSize_append] at hsize
  omega

end Cut

end Text

/-! ## The meaning of a command -/

namespace Action

/-- A command without a separator asks for nothing. -/
theorem ofCommand?_of_not_mem {command : List Char} (h : ';' ∉ command) :
    ofCommand? (String.ofList command) = none := by
  have hnone : command.dropWhile (· != ';') = [] := by
    refine List.dropWhile_eq_nil_iff.mpr fun c hc => ?_
    rw [bne_iff_ne]
    rintro rfl
    exact h hc
  unfold ofCommand?
  dsimp only
  rw [String.toList_ofList, hnone]

/-- The number is what stands in front of the first separator, and the text all that is behind. -/
theorem ofCommand?_of_parts {number text : List Char} (h : ';' ∉ number) :
    ofCommand? (String.ofList (number ++ ';' :: text)) =
      if number ∈ [['0'], ['1'], ['2']] then some (.setTitle (String.ofList text)) else none := by
  have hnumber : ∀ c ∈ number, (c != ';') = true := by
    intro c hc
    rw [bne_iff_ne]
    rintro rfl
    exact h hc
  have hfront : (number ++ ';' :: text).takeWhile (· != ';') = number := by
    rw [List.takeWhile_append_of_pos hnumber, List.takeWhile_cons_of_neg (by decide),
      List.append_nil]
  have hback : (number ++ ';' :: text).dropWhile (· != ';') = ';' :: text := by
    rw [List.dropWhile_append_of_pos hnumber, List.dropWhile_cons_of_neg (by decide)]
  have hknown : ["0", "1", "2"].contains (String.ofList number) =
      decide (number ∈ [['0'], ['1'], ['2']]) := by
    simp [← String.toList_inj]
  unfold ofCommand?
  dsimp only
  rw [String.toList_ofList, hback]
  dsimp only
  rw [hfront, hknown]
  simp only [decide_eq_true_eq]

end Action

/-- What a command does to a terminal. -/
theorem Terminal.exists_performAll_command (t : Terminal) (command : List Char) :
    ∃ title, t.performAll (Action.ofCommand? (String.ofList command)).toList =
        .ok ({ t with title := title }, []) ∧
      (';' ∉ command → title = t.title) ∧
      ∀ number text, command = number ++ ';' :: text → ';' ∉ number →
        title = if number ∈ [['0'], ['1'], ['2']] then String.ofList text else t.title := by
  cases haction : Action.ofCommand? (String.ofList command) with
  | none =>
      refine ⟨t.title, rfl, fun _ => rfl, ?_⟩
      rintro number text rfl hnumber
      rw [Action.ofCommand?_of_parts hnumber] at haction
      split at haction
      · cases haction
      · next hunknown => rw [if_neg hunknown]
  | some action =>
      obtain ⟨title, rfl⟩ := Action.eq_setTitle_of_ofCommand? haction
      refine ⟨title, rfl, fun hsep => ?_, ?_⟩
      · rw [Action.ofCommand?_of_not_mem hsep] at haction
        cases haction
      · rintro number text rfl hnumber
        rw [Action.ofCommand?_of_parts hnumber] at haction
        split at haction
        · next hknown =>
          obtain rfl := Action.setTitle.inj (Option.some.inj haction)
          rw [if_pos hknown]
        · cases haction

/-! ## Reading a string -/

/-- The ways to end a control string. -/
def ControlString.endings : List (List Char) := [['\x07'], ['\u009c'], ['\x1b', '\\']]

/-- What of the payload may be kept. -/
def ControlString.content (s : ControlString) : List Char :=
  s.payload.filter fun c => !Text.isC0 c

namespace Parser

variable {p : Parser}

/-- The payload of a string is kept without its controls and as far as there is room. -/
theorem read_payload (h : p.state = .controlString) (hempty : p.payload = "")
    {payload : List Char} (hpayload : ∀ c ∈ payload, c ≠ '\x07' ∧ c ≠ '\u009c' ∧ c ≠ '\x1b') :
    ∃ k, Text.Cut maxPayload (payload.filter fun c => !Text.isC0 c) k ∧
      p.read payload = ({ p with payload := String.ofList k }, []) := by
  induction payload using List.reverseRecOn with
  | nil =>
      refine ⟨[], .nil _, ?_⟩
      have hsame : ({ p with payload := String.ofList [] } : Parser) = p := by
        rw [String.ofList_nil, ← hempty]
      rw [hsame]
      rfl
  | append_singleton payload c ih =>
      obtain ⟨k, hcut, hread⟩ := ih fun d hd => hpayload d (by simp [hd])
      obtain ⟨hbel, hst, hesc⟩ := hpayload c (by simp)
      have hstate : ({ p with payload := String.ofList k } : Parser).state = .controlString := h
      rw [read_append_of_silent hread, read_singleton, step_of_string hstate, stepString,
        if_neg (by simp [hbel, hst]), if_neg hesc, List.filter_append]
      by_cases hc : Text.isC0 c = true
      · rw [if_pos hc, List.filter_cons_of_neg (by simp [hc]), List.filter_nil, List.append_nil]
        exact ⟨k, hcut, rfl⟩
      · rw [if_neg hc, List.filter_cons_of_pos (by simpa using hc), List.filter_nil]
        refine ⟨_, hcut.concat c, ?_⟩
        unfold Text.byteSize
        dsimp only
        split
        · rw [String.ofList_append]
          rfl
        · rfl

/-- A string is begun anew, whatever was left of the last one. -/
theorem step_opener (p : Parser) (s : ControlString) :
    p.enterEscape.step s.opener = (p.enterEscape.enterString (s.opener == ']'), []) := by
  have hopens := s.opens
  simp only [List.mem_cons, List.not_mem_nil, or_false] at hopens
  rcases hopens with hopener | hopener | hopener | hopener | hopener
  all_goals
    rw [hopener]
    rfl

/-- Each way to end a string does. -/
theorem read_ending (h : p.state = .controlString) {ending : List Char}
    (hending : ending ∈ ControlString.endings) :
    p.read ending = ({ p with state := .ground }, p.stringActions) := by
  simp only [ControlString.endings, List.mem_cons, List.not_mem_nil, or_false] at hending
  rcases hending with rfl | rfl | rfl
  · rw [read_singleton, step_of_string h]
    rfl
  · rw [read_singleton, step_of_string h]
    rfl
  · have hesc : p.step '\x1b' = ({ p with state := .stringEscape }, []) := by
      rw [step_of_string h]
      rfl
    rw [read_cons_of_silent hesc, read_singleton]
    rfl

/-- A string from its beginning to its end. -/
theorem exists_read_ended (h : p.state = .ground) (s : ControlString) {ending : List Char}
    (hending : ending ∈ ControlString.endings) :
    ∃ q k, q.state = .ground ∧ Text.Cut maxPayload s.content k ∧
      p.read (s.text ++ ending) =
        (q, if s.opener = ']' then (Action.ofCommand? (String.ofList k)).toList else []) := by
  let begun : Parser := p.enterEscape.enterString (s.opener == ']')
  obtain ⟨k, hcut, hread⟩ := read_payload (p := begun) rfl rfl s.goesOn
  have htext : p.read s.text = ({ begun with payload := String.ofList k }, []) := by
    rw [ControlString.text, read_cons_of_silent (step_escape h),
      read_cons_of_silent (p.step_opener s), hread]
  refine ⟨{ begun with payload := String.ofList k, state := .ground }, k, rfl, hcut, ?_⟩
  rw [read_append_of_silent htext, read_ending rfl hending]
  simp [begun, stringActions, enterString]

end Parser

namespace Interpreter

/-- **Control strings touch nothing but the title.**  Whatever was read before and however long the
payload is, a control string that is ended asks for no reply and leaves the parser between
sequences.  Unless it is a command to the operating system, it leaves the terminal as it is.  A
command sets the title at most.  What counts of its payload is the shortest beginning without
controls that takes 4096 bytes: if the first semicolon in it comes behind one of the numbers 0, 1
and 2, the text behind the semicolon is the title. -/
theorem feedText_controlString {i : Interpreter} (hground : i.parser.state = .ground)
    (s : ControlString) {ending : List Char} (hending : ending ∈ ControlString.endings) :
    ∃ p t, i.feedText (s.text ++ ending) = .ok (⟨p, t⟩, []) ∧ p.state = .ground ∧
      (s.opener ≠ ']' → t = i.terminal) ∧
      (s.opener = ']' → ∃ k title, Text.Cut 4096 s.content k ∧
        t = { i.terminal with title := title } ∧
        (';' ∉ k → title = i.terminal.title) ∧
        ∀ number text, k = number ++ ';' :: text → ';' ∉ number →
          title = if number ∈ [['0'], ['1'], ['2']] then String.ofList text
            else i.terminal.title) := by
  obtain ⟨p, k, hp, hcut, hread⟩ := Parser.exists_read_ended hground s hending
  by_cases hopener : s.opener = ']'
  · rw [if_pos hopener] at hread
    obtain ⟨title, hperform, htitle⟩ := i.terminal.exists_performAll_command k
    refine ⟨p, { i.terminal with title := title }, ?_, hp, fun hne => absurd hopener hne,
      fun _ => ⟨k, title, hcut, rfl, htitle⟩⟩
    rw [feedText_eq, hread, hperform]
    rfl
  · rw [if_neg hopener] at hread
    exact ⟨p, i.terminal, feedText_of_silent hread, hp, fun _ => rfl,
      fun hcommand => absurd hcommand hopener⟩

/-- A title with a control and a second semicolon in it, after another title that is still there. -/
theorem feedText_controlString_title :
    let i : Interpreter := ⟨{ payload := "0;old" }, Terminal.new 5 1 0⟩
    let s : ControlString := ⟨']', ['1', ';', 'a', '\x08', ';', 'b'], by decide, by simp⟩
    i.parser.state = .ground ∧ ['\x1b', '\\'] ∈ ControlString.endings ∧
      ∃ p, i.feedText (s.text ++ ['\x1b', '\\']) =
        .ok (⟨p, { i.terminal with title := "a;b" }⟩, []) ∧ p.state = .ground := by
  intro i s
  have hending : ['\x1b', '\\'] ∈ ControlString.endings := by decide
  obtain ⟨p, t, hfeed, hp, -, hcommand⟩ := feedText_controlString (i := i) rfl s hending
  obtain ⟨k, title, hcut, rfl, -, htitle⟩ := hcommand rfl
  obtain rfl := hcut.eq_of_byteSize_lt (by decide)
  obtain rfl := htitle ['1'] ['a', ';', 'b'] (by decide) (by decide)
  exact ⟨rfl, hending, p, hfeed, hp⟩

end Interpreter

end VideoTerminal
