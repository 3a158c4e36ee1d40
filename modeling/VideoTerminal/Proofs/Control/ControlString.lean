import VideoTerminal.Proofs.Control.Memory

/-!
# How control strings end

A control string is ended by BEL, by the string terminator, or by an ESC that begins something else:
the string is cut off, and what it asks for is carried out all the same.  Until then all other
controls are dropped.

* `Interpreter.outcome_feedText_cutOff_iff` — a string that is cut off ends like one that is ended
  by BEL, exactly if the character behind the ESC is not a control, or is CAN or SUB.  Any other
  control is lost there, and the ESC with it;
* `Interpreter.outcome_feedText_cancel` — CAN and SUB give up whatever sequence is being read, and
  what comes next is read as by a fresh parser.  A string goes on as if they were not there, and one
  that has been cut off is over.
-/

namespace VideoTerminal

/-- A control string without its end. -/
structure ControlString where
  /-- The character behind the first ESC. -/
  opener : Char
  payload : List Char
  opens : opener ∈ [']', 'P', 'X', '^', '_']
  /-- Nothing inside the string ends it. -/
  goesOn : ∀ c ∈ payload, c ≠ '\x07' ∧ c ≠ '\u009c' ∧ c ≠ '\x1b'

/-- A string as it is written, up to its end. -/
def ControlString.text (s : ControlString) : List Char := '\x1b' :: s.opener :: s.payload

namespace Parser

/-! ## Inside a string -/

section Inside

variable {p : Parser}

/-- Inside a string each character is one of the string. -/
theorem step_of_string (h : p.state = .controlString) (c : Char) : p.step c = p.stepString c := by
  rw [step, h]

/-- Behind an ESC in a string, each character says whether the string was ended properly. -/
theorem step_of_stringEscape (h : p.state = .stringEscape) (c : Char) :
    p.step c = p.stepStringEscape c := by
  rw [step, h]

/-- The payload asks for nothing. -/
theorem exists_read_payload (h : p.state = .controlString) {payload : List Char}
    (hpayload : ∀ c ∈ payload, c ≠ '\x07' ∧ c ≠ '\u009c' ∧ c ≠ '\x1b') :
    ∃ q, p.read payload = (q, []) ∧ q.state = .controlString := by
  induction payload generalizing p with
  | nil => exact ⟨p, rfl, h⟩
  | cons c payload ih =>
      obtain ⟨hbel, hst, hesc⟩ := hpayload c (by simp)
      have hrest : ∀ d ∈ payload, d ≠ '\x07' ∧ d ≠ '\u009c' ∧ d ≠ '\x1b' :=
        fun d hd => hpayload d (by simp [hd])
      obtain ⟨q, hstep, hq⟩ : ∃ q, p.step c = (q, []) ∧ q.state = .controlString := by
        rw [step_of_string h, stepString, if_neg (by simp [hbel, hst]), if_neg hesc]
        repeat' split
        all_goals exact ⟨_, rfl, h⟩
      obtain ⟨r, hread, hr⟩ := ih hq hrest
      exact ⟨r, (read_cons_of_silent hstep payload).trans hread, hr⟩

/-- A string without its end asks for nothing yet. -/
theorem exists_read_controlString (h : p.state = .ground) (s : ControlString) :
    ∃ q, p.read s.text = (q, []) ∧ q.state = .controlString := by
  have hopener : ∃ q, p.enterEscape.step s.opener = (q, []) ∧ q.state = .controlString := by
    have hopens := s.opens
    simp only [List.mem_cons, List.not_mem_nil, or_false] at hopens
    rcases hopens with hopener | hopener | hopener | hopener | hopener
    all_goals exact ⟨_, by rw [hopener]; rfl, rfl⟩
  obtain ⟨q, hstep, hq⟩ := hopener
  obtain ⟨r, hread, hr⟩ := exists_read_payload hq s.goesOn
  refine ⟨r, ?_, hr⟩
  rw [ControlString.text, read_cons_of_silent (step_escape h), read_cons_of_silent hstep, hread]

end Inside

/-! ## Controls behind an ESC -/

section Controls

variable {p : Parser} {c : Char}

/-- Behind an ESC, the control that gives up the sequence is read like any other character. -/
theorem step_eq_stepEscape (h : p.state = .escape)
    (hc : Text.isC0 c = false ∨ c = '\x18' ∨ c = '\x1a') : p.step c = p.stepEscape c := by
  rcases hc with hc | rfl | rfl
  · simp [step, h, hc]
  · rw [step, h]; rfl
  · rw [step, h]; rfl

/-- All other controls act, and the sequence goes on behind them. -/
theorem state_step_of_isC0 (h : p.state = .escape) (hc : Text.isC0 c = true) (hcan : c ≠ '\x18')
    (hsub : c ≠ '\x1a') : (p.step c).1.state = .escape := by
  have hstep : p.step c = p.stepControl c := by simp [step, h, hc]
  rw [hstep]
  unfold stepControl
  split
  all_goals first | exact h | rfl | exact absurd rfl hcan | exact absurd rfl hsub

/-- Taken for the character of a sequence, a control ends the sequence. -/
theorem stepEscape_of_isC0 (p : Parser) (hc : Text.isC0 c = true) :
    p.stepEscape c = ({ p with state := .ground }, []) := by
  have hnot : isIntermediate c = false := by
    have hlow : c.toNat < 0x20 := of_decide_eq_true hc
    simp only [isIntermediate, Bool.and_eq_false_imp, decide_eq_true_eq]
    omega
  unfold stepEscape
  -- The characters that are named are no controls.
  split
  all_goals first | cases hc | rw [hnot]; rfl

/-- CAN and SUB give up the sequence that is being read. -/
theorem step_cancel (h : p.state.isString = false) (hc : c = '\x18' ∨ c = '\x1a') :
    p.step c = ({ p with state := .ground }, []) := by
  rcases hc with rfl | rfl
  all_goals
    unfold step
    cases hp : p.state <;> rw [hp] at h
    case controlString => cases h
    case stringEscape => cases h
    all_goals rfl

/-- CAN and SUB are dropped inside a string. -/
theorem step_cancel_of_string (h : p.state = .controlString) (hc : c = '\x18' ∨ c = '\x1a') :
    p.step c = (p, []) := by
  rw [step_of_string h]
  rcases hc with rfl | rfl <;> rfl

/-- Behind the ESC that cuts a string off, they end the sequence that the ESC begins. -/
theorem step_cancel_of_stringEscape (h : p.state = .stringEscape)
    (hc : c = '\x18' ∨ c = '\x1a') :
    p.step c = ({ p.enterEscape with state := .ground }, p.stringActions) := by
  rw [step_of_stringEscape h]
  rcases hc with rfl | rfl
  all_goals
    refine Prod.ext rfl ?_
    exact List.append_nil p.stringActions

end Controls

/-! ## The end of a string -/

section End

variable {p : Parser}

/-- An ESC ends the string, and begins a sequence. -/
theorem read_cutOff (h : p.state = .controlString) {c : Char} (hc : c ≠ '\\')
    (rest : List Char) :
    p.read ('\x1b' :: c :: rest) = (((p.enterEscape.stepEscape c).1.read rest).1,
      p.stringActions ++
        ((p.enterEscape.stepEscape c).2 ++ ((p.enterEscape.stepEscape c).1.read rest).2)) := by
  have hesc : p.step '\x1b' = ({ p with state := .stringEscape }, []) := by
    rw [step_of_string h]
    rfl
  have hstep : ({ p with state := .stringEscape } : Parser).step c =
      ((p.enterEscape.stepEscape c).1, p.stringActions ++ (p.enterEscape.stepEscape c).2) := by
    rw [step_of_stringEscape rfl, stepStringEscape, if_neg hc]
    rfl
  rw [read_cons_of_silent hesc, read_cons, hstep, List.append_assoc]

/-- BEL ends the string. -/
theorem read_terminated (h : p.state = .controlString) (rest : List Char) :
    p.read ('\x07' :: '\x1b' :: rest) =
      ((p.enterEscape.read rest).1, p.stringActions ++ (p.enterEscape.read rest).2) := by
  have hbel : p.step '\x07' = ({ p with state := .ground }, p.stringActions) := by
    rw [step_of_string h]
    rfl
  rw [read_cons, hbel]
  dsimp only
  rw [read_cons_of_silent (step_escape rfl)]
  rfl

end End

end Parser

namespace Interpreter

/-- What a string asks for always goes through. -/
theorem exists_performAll_stringActions (t : Terminal) (p : Parser) :
    ∃ out, t.performAll p.stringActions = .ok out := by
  have htitle : ∀ action ∈ p.stringActions, ∃ title, action = .setTitle title :=
    fun _ => Parser.eq_setTitle_of_mem_stringActions
  have hlen := p.length_stringActions_le
  cases hactions : p.stringActions with
  | nil => exact ⟨_, rfl⟩
  | cons action rest =>
      rw [hactions] at htitle hlen
      obtain ⟨title, rfl⟩ := htitle action List.mem_cons_self
      obtain rfl : rest = [] := List.eq_nil_of_length_eq_zero (Nat.le_zero.mp (by simpa using hlen))
      exact ⟨_, rfl⟩

/-- What comes of a text tells the parser's state, unless it fails. -/
theorem state_eq_of_outcome_eq {i j : Interpreter} {one other : List Char}
    {out : Terminal × List Reply} (hok : i.terminal.performAll (i.parser.read one).2 = .ok out)
    (h : (i.feedText one).map outcome = (j.feedText other).map outcome) :
    (i.parser.read one).1.state = (j.parser.read other).1.state := by
  rw [feedText_eq, feedText_eq, hok] at h
  cases hother : j.terminal.performAll (j.parser.read other).2 with
  | error fault =>
      rw [hother] at h
      cases h
  | ok out' =>
      rw [hother] at h
      exact congrArg Prod.fst (Except.ok.inj h)

/-- **Where a string is cut off.**  A string that an ESC cuts off ends like one that is ended by BEL
before that ESC, exactly if the character behind the ESC is not a control or gives up the sequence.
Any other control takes the sequence away: what comes next is text. -/
theorem outcome_feedText_cutOff_iff {i : Interpreter} (hground : i.parser.state = .ground)
    (s : ControlString) {c : Char} (hc : c ≠ '\\') :
    (∀ rest, (i.feedText (s.text ++ '\x1b' :: c :: rest)).map outcome =
        (i.feedText (s.text ++ '\x07' :: '\x1b' :: c :: rest)).map outcome) ↔
      Text.isC0 c = false ∨ c = '\x18' ∨ c = '\x1a' := by
  obtain ⟨q, hread, hq⟩ := Parser.exists_read_controlString hground s
  have hcut := fun rest => (Parser.read_append_of_silent hread ('\x1b' :: c :: rest)).trans
    (Parser.read_cutOff hq hc rest)
  have hended := fun rest =>
    (Parser.read_append_of_silent hread ('\x07' :: '\x1b' :: c :: rest)).trans
      (Parser.read_terminated hq (c :: rest))
  constructor
  · intro hall
    by_contra hcontrol
    simp only [not_or, Bool.not_eq_false] at hcontrol
    obtain ⟨hc0, hcan, hsub⟩ := hcontrol
    -- Cut off, the string is followed by text; ended, it is followed by a sequence.
    have hcutEnd := hcut []
    rw [Parser.stepEscape_of_isC0 _ hc0] at hcutEnd
    obtain ⟨out, hok⟩ := exists_performAll_stringActions i.terminal q
    have hstate := state_eq_of_outcome_eq (by rw [hcutEnd]; simpa [Parser.read] using hok) (hall [])
    rw [hcutEnd, hended, Parser.read_singleton] at hstate
    rw [Parser.state_step_of_isC0 rfl hc0 hcan hsub] at hstate
    cases hstate
  · intro hcontrol rest
    have hsame : i.parser.read (s.text ++ '\x1b' :: c :: rest) =
        i.parser.read (s.text ++ '\x07' :: '\x1b' :: c :: rest) := by
      rw [hcut, hended, Parser.read_cons, Parser.step_eq_stepEscape rfl hcontrol]
    rw [feedText_eq, feedText_eq, hsame]

/-- A title that is cut off by a control sequence. -/
theorem outcome_feedText_cutOff_iff_title :
    let i : Interpreter := ⟨{}, Terminal.new 5 1 0⟩
    let s : ControlString := ⟨']', ['0', ';', 't'], by decide, by simp⟩
    i.parser.state = .ground ∧ '[' ≠ '\\' ∧
      ∀ rest, (i.feedText (s.text ++ '\x1b' :: '[' :: rest)).map outcome =
        (i.feedText (s.text ++ '\x07' :: '\x1b' :: '[' :: rest)).map outcome :=
  ⟨rfl, by decide, (outcome_feedText_cutOff_iff rfl _ (by decide)).mpr (by decide)⟩

/-- Cut off by two ESCs, a title is followed by the text of the sequence that the second one
begins. -/
theorem not_outcome_feedText_cutOff :
    ¬ ∀ (i : Interpreter) (s : ControlString) (c : Char) (rest : List Char),
      i.parser.state = .ground → c ≠ '\\' →
        (i.feedText (s.text ++ '\x1b' :: c :: rest)).map outcome =
          (i.feedText (s.text ++ '\x07' :: '\x1b' :: c :: rest)).map outcome := by
  intro hall
  have hsame := hall ⟨{}, Terminal.new 5 1 0⟩ ⟨']', ['0', ';', 't'], by decide, by simp⟩ '\x1b'
    ['[', '1', 'm'] rfl (by decide)
  have hcol := congrArg (Except.map fun out => out.2.1.cursor.col) hsame
  revert hcol
  decide +kernel

/-- **CAN and SUB.**  What comes behind them is read as by a fresh parser, whatever sequence had
been begun.  Inside a string they are dropped; where an ESC has cut a string off, the string is
over. -/
theorem outcome_feedText_cancel (i : Interpreter) (front back : List Char) {c : Char}
    (hc : c = '\x18' ∨ c = '\x1a') :
    let state := (i.parser.read front).1.state
    (state.isString = false → (i.feedText (front ++ c :: back)).map outcome =
        (i.feedAfresh front back).map outcome) ∧
      (state = .controlString → i.feedText (front ++ c :: back) = i.feedText (front ++ back)) ∧
      (state = .stringEscape → (i.feedText (front ++ c :: back)).map outcome =
        (i.feedAfresh (front ++ ['\\']) back).map outcome) := by
  have hwhole : front ++ c :: back = (front ++ [c]) ++ back := by simp
  have hread : i.parser.read (front ++ [c]) = _ := Parser.read_append ..
  rw [Parser.read_singleton] at hread
  refine ⟨fun h => ?_, fun h => ?_, fun h => ?_⟩
  · rw [Parser.step_cancel h hc, List.append_nil] at hread
    have hsilent : (i.parser.read (front ++ [c])).2 = (i.parser.read front).2 := by rw [hread]
    rw [hwhole, outcome_feedText_append (by rw [hread]), feedAfresh_congr hsilent]
  · have hsame : i.parser.read (front ++ c :: back) = i.parser.read (front ++ back) := by
      rw [Parser.read_append, Parser.read_append,
        Parser.read_cons_of_silent (Parser.step_cancel_of_string h hc)]
    rw [feedText_eq, feedText_eq, hsame]
  · rw [Parser.step_cancel_of_stringEscape h hc] at hread
    have hended : (i.parser.read (front ++ [c])).2 = (i.parser.read (front ++ ['\\'])).2 := by
      rw [hread, Parser.read_append, Parser.read_singleton, Parser.step_of_stringEscape h]
      rfl
    rw [hwhole, outcome_feedText_append (by rw [hread]), feedAfresh_congr hended]

/-- A sequence is given up in the middle of a number, a title goes on, and a title that has been cut
off is over. -/
theorem outcome_feedText_cancel_begun :
    let i : Interpreter := ⟨{}, Terminal.new 5 1 0⟩
    (i.feedText ("\x1b[1;3".toList ++ '\x18' :: "mA".toList)).map outcome =
        (i.feedAfresh "\x1b[1;3".toList "mA".toList).map outcome ∧
      i.feedText ("\x1b]0;t".toList ++ '\x18' :: "u\x07".toList) =
        i.feedText ("\x1b]0;t".toList ++ "u\x07".toList) ∧
      (i.feedText ("\x1b]0;t\x1b".toList ++ '\x1a' :: "[1mA".toList)).map outcome =
        (i.feedAfresh ("\x1b]0;t\x1b".toList ++ ['\\']) "[1mA".toList).map outcome :=
  ⟨(outcome_feedText_cancel _ _ _ (.inl rfl)).1 (by decide),
    (outcome_feedText_cancel _ _ _ (.inl rfl)).2.1 (by decide),
    (outcome_feedText_cancel _ _ _ (.inr rfl)).2.2 (by decide)⟩

/-- A title that was not ended swallows CAN, and the text behind it. -/
theorem not_feedAfresh_cancel :
    ¬ ∀ (i : Interpreter) (front back : List Char) (c : Char), c = '\x18' ∨ c = '\x1a' →
        (i.feedText (front ++ c :: back)).map (fun out => (out.1.terminal, out.2)) =
          (i.feedAfresh front back).map fun out => (out.1.terminal, out.2) := by
  intro hall
  have hsame := hall ⟨{}, Terminal.new 5 1 0⟩ ['\x1b', ']', '0', ';'] ['A'] '\x18' (by decide)
  have hcol := congrArg (Except.map fun out => out.1.cursor.col) hsame
  revert hcol
  decide +kernel

end Interpreter

end VideoTerminal
