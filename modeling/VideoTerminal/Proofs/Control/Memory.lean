import VideoTerminal.Proofs.Control.Sequence

/-!
# What a parser remembers

Between two sequences a parser still holds the numbers and marks of the last one, a number that was
never ended, and the last string.  None of it is read again: an ESC clears numbers and marks, and
the start of a string clears the string.

So of two parsers in the same state only that much has to agree as the state goes on to use
(`Parser.Alike`): numbers and marks inside a sequence, payload and kind inside a string, and nothing
at all between them.  Such parsers ask for the same with every character and stay alike
(`Parser.Alike.step`), and so with every text.  The main statement is
`Interpreter.outcome_feedText_of_ground`.
-/

namespace VideoTerminal

namespace ParserState

/-- Behind an ESC that begins a sequence: numbers and marks count. -/
def isSequence : ParserState → Bool
  | .escape | .escapeIntermediate | .sequenceEntry | .sequenceParam | .sequenceIntermediate => true
  | .ground | .controlString | .stringEscape => false

/-- Inside a control string: its payload and its kind count. -/
def isString : ParserState → Bool
  | .controlString | .stringEscape => true
  | _ => false

end ParserState

namespace Parser

/-- Two parsers in the same state agree in all that this state goes on to use. -/
structure Alike (p q : Parser) : Prop where
  state_eq : q.state = p.state
  sequence : p.state.isSequence = true →
    q.params = p.params ∧ q.marks = p.marks ∧ q.number = p.number
  string : p.state.isString = true → q.payload = p.payload ∧ q.isCommand = p.isCommand

namespace Alike

variable {p q : Parser}

theorem refl (p : Parser) : p.Alike p := ⟨rfl, fun _ => ⟨rfl, rfl, rfl⟩, fun _ => ⟨rfl, rfl⟩⟩

/-- Between sequences nothing has to agree. -/
theorem of_ground (hp : p.state = .ground) (hq : q.state = .ground) : p.Alike q where
  state_eq := hq.trans hp.symm
  sequence h := by simp [hp, ParserState.isSequence] at h
  string h := by simp [hp, ParserState.isString] at h

/-- Outside a string, another string may have been read before. -/
theorem of_sequence (h : p.state.isString = false) (hstate : q.state = p.state)
    (hparams : q.params = p.params) (hmarks : q.marks = p.marks) (hnumber : q.number = p.number) :
    p.Alike q where
  state_eq := hstate
  sequence _ := ⟨hparams, hmarks, hnumber⟩
  string hs := by simp [h] at hs

/-- Inside a string, another sequence may have been read before. -/
theorem of_string (h : p.state.isSequence = false) (hstate : q.state = p.state)
    (hpayload : q.payload = p.payload) (hcommand : q.isCommand = p.isCommand) : p.Alike q where
  state_eq := hstate
  sequence hs := by simp [h] at hs
  string _ := ⟨hpayload, hcommand⟩

/-- Parsers that are alike inside a sequence differ in their last string only. -/
theorem eq_withString (h : p.Alike q) (hs : p.state.isSequence = true) :
    q = { p with payload := q.payload, isCommand := q.isCommand } := by
  obtain ⟨hparams, hmarks, hnumber⟩ := h.sequence hs
  rw [← h.state_eq, ← hparams, ← hmarks, ← hnumber]

/-- Parsers that are alike inside a string differ in their last sequence only. -/
theorem eq_withSequence (h : p.Alike q) (hs : p.state.isString = true) :
    q = { p with params := q.params, marks := q.marks, number := q.number } := by
  obtain ⟨hpayload, hcommand⟩ := h.string hs
  rw [← h.state_eq, ← hpayload, ← hcommand]

/-- The start of a sequence clears what was left of the last one, whatever was read before. -/
theorem enterEscape (p q : Parser) : p.enterEscape.Alike q.enterEscape :=
  ⟨rfl, fun _ => ⟨rfl, rfl, rfl⟩, fun h => by cases h⟩

end Alike

/-! ## One character -/

/-- What two parsers have asked for is the same, and they are alike again. -/
def AlikeOut (out out' : Parser × List Action) : Prop :=
  out'.2 = out.2 ∧ out.1.Alike out'.1

/-- A control acts in any state. -/
theorem Alike.stepControl {p q : Parser} (h : p.Alike q) (c : Char) :
    AlikeOut (p.stepControl c) (q.stepControl c) := by
  have hground : ({ p with state := .ground } : Parser).Alike { q with state := .ground } :=
    .of_ground rfl rfl
  unfold Parser.stepControl
  -- ESC begins a sequence, CAN and SUB give one up, and the others leave the parser alone.
  split
  all_goals first | exact ⟨rfl, h⟩ | exact ⟨rfl, hground⟩ | exact ⟨rfl, .enterEscape p q⟩

section Sequences

variable (p : Parser) (payload : String) (isCommand : Bool) (c : Char)

/-- The start of a string clears what was left of the last one. -/
theorem alikeOut_stepEscape : AlikeOut (p.stepEscape c)
    (stepEscape { p with payload := payload, isCommand := isCommand } c) := by
  unfold stepEscape
  -- A string begins, a sequence goes on, or it has come to its end.
  repeat' split
  all_goals first | exact ⟨rfl, .refl _⟩ | exact ⟨rfl, .of_sequence rfl rfl rfl rfl rfl⟩

/-- A sequence that is ignored is, whatever string came before it. -/
theorem alikeOut_stepEscapeIntermediate (h : p.state.isString = false) :
    AlikeOut (p.stepEscapeIntermediate c)
      (stepEscapeIntermediate { p with payload := payload, isCommand := isCommand } c) := by
  unfold stepEscapeIntermediate
  split
  · exact ⟨rfl, .of_sequence h rfl rfl rfl rfl⟩
  · exact ⟨rfl, .of_ground rfl rfl⟩

/-- The end of a sequence reads its marks and numbers only. -/
theorem alikeOut_dispatch : AlikeOut (p.dispatch c)
    (dispatch { p with payload := payload, isCommand := isCommand } c) :=
  ⟨rfl, .of_ground rfl rfl⟩

/-- Ending a number does not look at the last string. -/
theorem endNumber_withString :
    endNumber { p with payload := payload, isCommand := isCommand } =
      { p.endNumber with payload := payload, isCommand := isCommand } := by
  unfold endNumber
  dsimp only
  split <;> rfl

/-- A character among the numbers does not look at the last string. -/
theorem alikeOut_stepParam (h : p.state.isString = false) : AlikeOut (p.stepParam c)
    (stepParam { p with payload := payload, isCommand := isCommand } c) := by
  unfold stepParam
  rw [p.endNumber_withString payload isCommand]
  repeat' split
  · exact ⟨rfl, .of_sequence h rfl rfl rfl rfl⟩
  · exact ⟨rfl, .of_sequence h rfl rfl rfl rfl⟩
  · exact ⟨rfl, .of_sequence rfl rfl rfl rfl rfl⟩
  · exact p.endNumber.alikeOut_dispatch _ _ c
  · exact ⟨rfl, .of_ground rfl rfl⟩

theorem alikeOut_stepEntry (h : p.state.isString = false) : AlikeOut (p.stepEntry c)
    (stepEntry { p with payload := payload, isCommand := isCommand } c) := by
  unfold stepEntry
  repeat' split
  · exact alikeOut_stepParam { p with state := .sequenceParam } _ _ c rfl
  · exact ⟨rfl, .of_sequence h rfl rfl rfl rfl⟩
  · exact ⟨rfl, .of_sequence rfl rfl rfl rfl rfl⟩
  · exact p.alikeOut_dispatch _ _ c
  · exact ⟨rfl, .of_ground rfl rfl⟩

theorem alikeOut_stepIntermediate (h : p.state.isString = false) :
    AlikeOut (p.stepIntermediate c)
      (stepIntermediate { p with payload := payload, isCommand := isCommand } c) := by
  unfold stepIntermediate
  repeat' split
  · exact ⟨rfl, .of_sequence h rfl rfl rfl rfl⟩
  · exact p.alikeOut_dispatch _ _ c
  · exact ⟨rfl, .of_ground rfl rfl⟩

end Sequences

section Strings

variable (p : Parser) (params : List Nat) (marks : List Char) (number : Option Nat) (c : Char)

/-- A character of a string does not look at the last sequence. -/
theorem alikeOut_stepString (h : p.state.isSequence = false) : AlikeOut (p.stepString c)
    (stepString { p with params := params, marks := marks, number := number } c) := by
  unfold stepString
  repeat' split
  · exact ⟨rfl, .of_ground rfl rfl⟩
  · exact ⟨rfl, .of_string rfl rfl rfl rfl⟩
  · exact ⟨rfl, .of_string h rfl rfl rfl⟩
  · exact ⟨rfl, .of_string h rfl rfl rfl⟩
  · exact ⟨rfl, .of_string h rfl rfl rfl⟩

/-- The ESC that cuts a string off clears what was left of the last sequence. -/
theorem alikeOut_stepStringEscape : AlikeOut (p.stepStringEscape c)
    (stepStringEscape { p with params := params, marks := marks, number := number } c) := by
  unfold stepStringEscape
  split
  · exact ⟨rfl, .of_ground rfl rfl⟩
  · exact ⟨rfl, .refl _⟩

end Strings

/-- Outside a string, a control acts before the state is looked at. -/
theorem Alike.orControl {p q : Parser} (h : p.Alike q) (c : Char) {out out' : Parser × List Action}
    (hout : AlikeOut out out') :
    AlikeOut (if Text.isC0 c then p.stepControl c else out)
      (if Text.isC0 c then q.stepControl c else out') := by
  split
  · exact h.stepControl c
  · exact hout

/-- **Alike parsers read a character alike**: they ask for the same and are alike again. -/
theorem Alike.step {p q : Parser} (h : p.Alike q) (c : Char) : AlikeOut (p.step c) (q.step c) := by
  have hq := h.state_eq
  unfold Parser.step
  cases hp : p.state <;> rw [hp] at hq <;> rw [hq]
  case ground => exact h.orControl c ⟨rfl, h⟩
  case controlString =>
    rw [h.eq_withSequence (by rw [hp]; rfl)]
    exact p.alikeOut_stepString _ _ _ c (by rw [hp]; rfl)
  case stringEscape =>
    rw [h.eq_withSequence (by rw [hp]; rfl)]
    exact p.alikeOut_stepStringEscape _ _ _ c
  -- In the middle of a sequence, what is left of the last string is the only difference.
  all_goals
    refine h.orControl c ?_
    rw [h.eq_withString (by rw [hp]; rfl)]
  case escape => exact p.alikeOut_stepEscape _ _ c
  case escapeIntermediate => exact p.alikeOut_stepEscapeIntermediate _ _ c (by rw [hp]; rfl)
  case sequenceEntry => exact p.alikeOut_stepEntry _ _ c (by rw [hp]; rfl)
  case sequenceParam => exact p.alikeOut_stepParam _ _ c (by rw [hp]; rfl)
  case sequenceIntermediate => exact p.alikeOut_stepIntermediate _ _ c (by rw [hp]; rfl)

/-- **Alike parsers read a text alike.** -/
theorem Alike.read {p q : Parser} (h : p.Alike q) (text : List Char) :
    AlikeOut (p.read text) (q.read text) := by
  induction text generalizing p q with
  | nil => exact ⟨rfl, h⟩
  | cons c text ih =>
      obtain ⟨hactions, hnext⟩ := h.step c
      obtain ⟨hmore, hend⟩ := ih hnext
      rw [read_cons, read_cons]
      refine ⟨?_, hend⟩
      dsimp only
      rw [hactions, hmore]

end Parser

/-! ## What comes of a text -/

namespace Interpreter

/-- What comes of a text: the parser's state, the terminal and the replies, without what else the
parser still holds. -/
def outcome (out : Interpreter × List Reply) : ParserState × Terminal × List Reply :=
  (out.1.parser.state, out.1.terminal, out.2)

/-- Interprets a text, and then another one through a fresh parser. -/
def feedAfresh (i : Interpreter) (front back : List Char) :
    Except Fault (Interpreter × List Reply) := do
  let (j, replies) ← i.feedText front
  let (k, more) ← (mk {} j.terminal).feedText back
  return (k, replies ++ more)

section Outcome

variable {i : Interpreter} {p q : Parser}

/-- Replies given before do not matter. -/
theorem outcome_after_replies {one other : Except Fault (Interpreter × List Reply)}
    (h : one.map outcome = other.map outcome) (replies : List Reply) :
    (one.map fun more => (more.1, replies ++ more.2)).map outcome =
      (other.map fun more => (more.1, replies ++ more.2)).map outcome := by
  cases one with
  | error fault =>
      cases other with
      | error fault' => exact h
      | ok out' => cases h
  | ok out =>
      cases other with
      | error fault' => cases h
      | ok out' =>
          obtain ⟨hstate, hterminal, hreplies⟩ :
              out.1.parser.state = out'.1.parser.state ∧ out.1.terminal = out'.1.terminal ∧
                out.2 = out'.2 := by simpa [outcome] using Except.ok.inj h
          simp only [Except.map, outcome, hstate, hterminal, hreplies]

/-- Alike parsers come to the same. -/
theorem outcome_feedText_of_alike (h : p.Alike q) (t : Terminal) (text : List Char) :
    ((mk p t).feedText text).map outcome = ((mk q t).feedText text).map outcome := by
  obtain ⟨hactions, hend⟩ := h.read text
  rw [feedText_eq, feedText_eq]
  dsimp only
  rw [hactions]
  cases t.performAll (p.read text).2 with
  | error fault => rfl
  | ok out => simp only [Except.map, outcome, hend.state_eq]

/-- A text and then another one. -/
theorem feedText_append (i : Interpreter) (front back : List Char) :
    i.feedText (front ++ back) = (i.feedText front).bind fun out =>
      (out.1.feedText back).map fun more => (more.1, out.2 ++ more.2) := by
  rw [feedText_eq_foldlM, feedText_eq_foldlM, List.foldlM_append]
  cases hfront : front.foldlM feedNext (i, []) with
  | error fault => rfl
  | ok out => exact out.1.foldlM_feedNext_replies out.2 back

/-- Between sequences, going on is beginning afresh. -/
theorem outcome_feedText_append {front : List Char}
    (h : (i.parser.read front).1.state = .ground) (back : List Char) :
    (i.feedText (front ++ back)).map outcome = (i.feedAfresh front back).map outcome := by
  unfold feedAfresh
  rw [feedText_append, feedText_eq]
  cases i.terminal.performAll (i.parser.read front).2 with
  | error fault => rfl
  | ok out =>
      have hback := outcome_feedText_of_alike (.of_ground h rfl : Parser.Alike _ {}) out.1 back
      exact outcome_after_replies hback out.2

/-- Beginning afresh, only what the first text has asked for counts. -/
theorem feedAfresh_congr {front front' : List Char}
    (h : (i.parser.read front).2 = (i.parser.read front').2) (back : List Char) :
    i.feedAfresh front back = i.feedAfresh front' back := by
  unfold feedAfresh
  rw [feedText_eq, feedText_eq, h]
  cases i.terminal.performAll (i.parser.read front').2 with
  | error fault => rfl
  | ok out => rfl

/-- A reset leaves a fresh terminal of that size, and a parser between sequences. -/
theorem exists_feedText_reset (h : i.parser.state = .ground) (text : List Char) :
    ∃ q : Parser, q.state = .ground ∧ i.feedText ('\x1b' :: 'c' :: text) =
      (mk q (.new i.terminal.cols i.terminal.rows i.terminal.scrollbackLimit)).feedText text := by
  have hread : i.parser.read ['\x1b', 'c'] =
      ({ i.parser.enterEscape with state := .ground }, [.reset]) := by
    rw [Parser.read_cons_of_silent (Parser.step_escape h), Parser.read_singleton]
    rfl
  have hreset : i.feedText ['\x1b', 'c'] =
      .ok (⟨{ i.parser.enterEscape with state := .ground }, i.terminal.reset⟩, []) := by
    rw [feedText_eq, hread]
    rfl
  refine ⟨{ i.parser.enterEscape with state := .ground }, rfl, ?_⟩
  change i.feedText (['\x1b', 'c'] ++ text) =
    (mk { i.parser.enterEscape with state := .ground } i.terminal.reset).feedText text
  rw [feedText_append, hreset]
  exact congrFun Except.map_id _

end Outcome

/-- **Between sequences a parser remembers nothing.**  Whatever it has read before, the text that
comes next does the same to a terminal, is answered by the same replies and leaves the parser in the
same state.  So the output that follows a reset is shown as on a fresh terminal of that size. -/
theorem outcome_feedText_of_ground {p q : Parser} (hp : p.state = .ground) (hq : q.state = .ground)
    (t : Terminal) (text : List Char) :
    ((mk p t).feedText text).map outcome = ((mk q t).feedText text).map outcome ∧
      ((mk p t).feedText ('\x1b' :: 'c' :: text)).map outcome =
        ((mk {} (.new t.cols t.rows t.scrollbackLimit)).feedText text).map outcome := by
  refine ⟨outcome_feedText_of_alike (.of_ground hp hq) t text, ?_⟩
  obtain ⟨r, hr, hreset⟩ := exists_feedText_reset (i := mk p t) hp text
  rw [hreset]
  exact outcome_feedText_of_alike (.of_ground hr rfl) _ text

/-- A title, and a sequence that was given up in the middle of its second number: all of it is still
there. -/
theorem outcome_feedText_of_ground_leftover :
    let p := (Parser.read {} "\x1b]0;old\x07\x1b[12;3\x18".toList).1
    let t := Terminal.new 5 1 0
    p.state = .ground ∧ p.payload = "0;old" ∧ p.params = [12] ∧ p.number = some 3 ∧
      ((mk p t).feedText "\x1b[m".toList).map outcome =
        ((mk {} t).feedText "\x1b[m".toList).map outcome ∧
      ((mk p t).feedText ('\x1b' :: 'c' :: "A".toList)).map outcome =
        ((mk {} (.new 5 1 0)).feedText "A".toList).map outcome :=
  ⟨by decide, by decide, by decide, by decide, (outcome_feedText_of_ground (by decide) rfl _ _).1,
    (outcome_feedText_of_ground (q := {}) (by decide) rfl _ _).2⟩

end Interpreter

end VideoTerminal
