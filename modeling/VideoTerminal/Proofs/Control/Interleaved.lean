import VideoTerminal.Proofs.Control.Fields
import VideoTerminal.Proofs.Control.Memory

/-!
# Controls inside a control sequence

A control acts as soon as it arrives, and the parser goes on with the sequence as if the control
were not there (`Parser.step_control`).  ESC, CAN and SUB are the exceptions: they give the sequence
up.

So a sequence with other controls inside it is read like the controls, in their order, and behind
them the sequence without them (`Parser.read_interleaved`).  `Interpreter.feedText_interleaved` puts
this together with what the fields of a sequence are read as.
-/

namespace VideoTerminal

namespace Parser

/-- The controls that leave a sequence as it is. -/
def keepsSequence (c : Char) : Bool := c != '\x1b' && c != '\x18' && c != '\x1a'

/-- What controls ask for, in their order. -/
def controlActions (controls : List Char) : List Action :=
  controls.flatMap fun c => (stepControl {} c).2

variable {p : Parser}

/-- Outside a control string a control acts, and nothing else happens. -/
theorem step_control (h : p.state.isString = false) {c : Char} (hc : Text.isC0 c = true)
    (hkeeps : keepsSequence c = true) : p.step c = (p, (stepControl {} c).2) := by
  have hstep : p.step c = p.stepControl c := by
    unfold step
    cases hp : p.state <;> rw [hp] at h
    case controlString => cases h
    case stringEscape => cases h
    all_goals simp [hc]
  simp only [keepsSequence, Bool.and_eq_true, bne_iff_ne, ne_eq] at hkeeps
  obtain ⟨⟨hesc, hcan⟩, hsub⟩ := hkeeps
  rw [hstep]
  unfold stepControl
  split <;> first | rfl | contradiction

/-- Controls outside a string act one after the other, and the parser stays as it is. -/
theorem read_controls (h : p.state.isString = false) {controls : List Char}
    (hcontrols : ∀ c ∈ controls, Text.isC0 c = true ∧ keepsSequence c = true) :
    p.read controls = (p, controlActions controls) := by
  induction controls with
  | nil => rfl
  | cons c controls ih =>
      obtain ⟨hc, hkeeps⟩ := hcontrols c List.mem_cons_self
      rw [read_cons, step_control h hc hkeeps,
        ih fun d hd => hcontrols d (List.mem_cons_of_mem c hd)]
      rfl

/-- Inside a sequence the parser is not inside a string. -/
theorem isString_of_isSequence {state : ParserState} (h : state.isSequence = true) :
    state.isString = false := by
  cases state <;> first | rfl | cases h

/-- **Controls inside a sequence.**  If without its controls a text is read silently and inside a
sequence all along, then with them it comes to the same, and the controls act in their order. -/
theorem read_interleaved {body : List Char} (hkeeps : ∀ c ∈ body, keepsSequence c = true)
    (hinside : ∀ front, front <+: body.filter (fun c => !Text.isC0 c) →
      ∃ q, p.read front = (q, []) ∧ q.state.isSequence = true) :
    p.read body = ((p.read (body.filter fun c => !Text.isC0 c)).1,
      controlActions (body.filter Text.isC0)) := by
  -- A control leaves the parser as it is; anything else is the next step of the text without them.
  induction body generalizing p with
  | nil => rfl
  | cons c body ih =>
      have hrest : ∀ d ∈ body, keepsSequence d = true :=
        fun d hd => hkeeps d (List.mem_cons_of_mem c hd)
      cases hc : Text.isC0 c with
      | true =>
          rw [List.filter_cons_of_neg (by simp [hc])] at hinside ⊢
          obtain ⟨q, hread, hq⟩ := hinside [] List.nil_prefix
          obtain rfl : p = q := congrArg Prod.fst hread
          rw [List.filter_cons_of_pos hc, read_cons,
            step_control (isString_of_isSequence hq) hc (hkeeps c List.mem_cons_self),
            ih hrest hinside]
          rfl
      | false =>
          rw [List.filter_cons_of_pos (by simp [hc])] at hinside ⊢
          obtain ⟨q, hstep, -⟩ := hinside [c] (List.prefix_append [c] _)
          rw [read_singleton] at hstep
          rw [List.filter_cons_of_neg (by simp [hc]), read_cons_of_silent hstep,
            read_cons_of_silent hstep]
          refine ih hrest fun front hfront => ?_
          have hmore := hinside (c :: front) (List.cons_prefix_cons.mpr ⟨rfl, hfront⟩)
          rwa [read_cons_of_silent hstep] at hmore

end Parser

/-- Fields are digits and separators. -/
theorem Fields.isParameter_of_mem_text {f : Fields} {c : Char} (h : c ∈ f.text) :
    Parser.isParameter c = true ∧ Parser.isMarker c = false := by
  have hdigit : ∀ {n : Option Numeral}, c ∈ written n →
      Parser.isParameter c = true ∧ Parser.isMarker c = false := by
    intro n hmem
    cases n with
    | none => cases hmem
    | some n =>
        have hc := Char.isDigit_iff_toNat.mp (n.isDigit c hmem)
        simp only [Char.reduceToNat] at hc
        simp only [Parser.isParameter, Parser.isMarker, Bool.and_eq_true, decide_eq_true_eq,
          Bool.and_eq_false_imp, decide_eq_false_iff_not]
        omega
  rcases List.mem_append.mp h with hfirst | hrest
  · exact hdigit hfirst
  · obtain ⟨⟨separator, n⟩, -, hc⟩ := List.mem_flatMap.mp hrest
    rcases List.mem_cons.mp hc with rfl | hc
    · cases separator <;> exact ⟨rfl, rfl⟩
    · exact hdigit hc

namespace Parser

/-- The beginning of a sequence is a shorter sequence. -/
theorem exists_read_prefix {p : Parser} (h : p.state = .ground) {markers : List Char}
    (hmarkers : ∀ c ∈ markers, isMarker c = true) (f : Fields) {front : List Char}
    (hfront : front <+: '[' :: (markers ++ f.text)) :
    ∃ q, p.enterEscape.read front = (q, []) ∧ q.state.isSequence = true := by
  cases front with
  | nil => exact ⟨p.enterEscape, rfl, rfl⟩
  | cons c front =>
      obtain ⟨rfl, hrest⟩ := List.cons_prefix_cons.mp hfront
      rw [List.prefix_iff_eq_take.mp hrest, List.take_append]
      have hnone : ∀ c ∈ ([] : List Char), isIntermediate c = true := by simp
      obtain ⟨q, hread, hq⟩ := exists_read_sequence h
        (fun c hc => hmarkers c (List.mem_of_mem_take hc))
        (fun c hc => f.isParameter_of_mem_text (List.mem_of_mem_take hc)) hnone
      rw [List.append_nil, read_cons_of_silent (step_escape h)] at hread
      refine ⟨q, hread, ?_⟩
      rcases hq with hq | hq | hq <;> rw [hq] <;> rfl

end Parser

namespace Interpreter

/-- **The numbers of a sequence, whatever controls stand between their digits.**  Controls that do
not give the sequence up act as if they came before it; behind them the sequence is carried out with
its first numbers, each of which is at most the greatest. -/
theorem feedText_interleaved {i : Interpreter} (hground : i.parser.state = .ground)
    {body markers : List Char} {f : Fields} {final : Char}
    (hkeeps : ∀ c ∈ body, Parser.keepsSequence c = true)
    (hbody : body.filter (fun c => !Text.isC0 c) = '[' :: (markers ++ f.text))
    (hmarkers : ∀ c ∈ markers, Parser.isMarker c = true) (hall : ∀ n ∈ f.all, n ≠ none)
    (hfinal : Parser.isFinal final = true) :
    i.feedText ('\x1b' :: (body ++ [final])) = do
      let params := (f.values.map fun n => min n Parser.maxNumber).take Parser.maxParams
      let (j, replies) ← i.feedText (body.filter Text.isC0)
      let (t, more) ← j.terminal.performAll (Action.ofSequence? ⟨markers, params, final⟩).toList
      return (⟨{ j.parser with
        state := .ground, params := params, marks := markers, number := none }, t⟩,
        replies ++ more) := by
  obtain ⟨q, hread, hq, hend⟩ := Parser.exists_read_fields i.parser hmarkers f
  have hinside := Parser.read_interleaved (p := i.parser.enterEscape) hkeeps (by
    rw [hbody]
    exact fun front => Parser.exists_read_prefix hground hmarkers f)
  rw [hbody, hread] at hinside
  have hcontrols : i.parser.read (body.filter Text.isC0) = _ :=
    Parser.read_controls (by rw [hground]; rfl) fun c hc =>
      ⟨(List.mem_filter.mp hc).2, hkeeps c (List.mem_filter.mp hc).1⟩
  have hwhole : i.parser.read ('\x1b' :: (body ++ [final])) = _ :=
    Parser.read_cons_of_silent (Parser.step_escape hground) (body ++ [final])
  rw [Parser.read_append, hinside, Parser.read_singleton, hq.step_final hfinal, hend,
    Fields.params_of_not_endsOmitted (Fields.not_endsOmitted hall)] at hwhole
  rw [feedText_eq, feedText_eq, hwhole, hcontrols]
  dsimp only [Parser.dispatch]
  rw [Terminal.performAll_append]
  cases i.terminal.performAll (Parser.controlActions (body.filter Text.isC0)) with
  | error fault => rfl
  | ok out =>
      change Except.map _ (Except.map _ (out.1.performAll _)) = (out.1.performAll _).bind _
      cases out.1.performAll _ with
      | error fault => rfl
      | ok more => rfl

/-- Controls in front of the bracket, between the digits and behind them, a leading zero, and a
number that is too great. -/
theorem feedText_interleaved_moves :
    let i : Interpreter := ⟨{}, Terminal.new 5 2 0⟩
    let f : Fields := ⟨some ⟨['0', '2'], by decide, by simp⟩,
      [(.semicolon, some ⟨['7', '0', '0', '0', '0'], by decide, by simp⟩)]⟩
    let body := "\t[0\r2\n;7000\x080\x00".toList
    let params := (f.values.map fun n => min n Parser.maxNumber).take Parser.maxParams
    i.parser.state = .ground ∧ (∀ c ∈ body, Parser.keepsSequence c = true) ∧
      body.filter (fun c => !Text.isC0 c) = '[' :: ([] ++ f.text) ∧ (∀ n ∈ f.all, n ≠ none) ∧
      params = [2, 65535] ∧ body.filter Text.isC0 = ['\t', '\r', '\n', '\x08', '\x00'] ∧
      i.feedText ('\x1b' :: (body ++ ['H'])) = do
        let (j, replies) ← i.feedText (body.filter Text.isC0)
        let (t, more) ← j.terminal.performAll (Action.ofSequence? ⟨[], params, 'H'⟩).toList
        return (⟨{ j.parser with
          state := .ground, params := params, marks := [], number := none }, t⟩,
          replies ++ more) :=
  ⟨rfl, List.all_eq_true.mp (by decide), by decide, by decide, by decide, by decide,
    feedText_interleaved rfl (List.all_eq_true.mp (by decide)) (by decide) (by simp) (by decide)
      (by decide)⟩

end Interpreter

end VideoTerminal
