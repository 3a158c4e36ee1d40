import VideoTerminal.Proofs.Control.Sequence

/-!
# What the marks of a control sequence decide

The sequences of other terminals are told from the known ones by their private markers and
intermediates.  Of these the interpreter only looks whether a `?` is among them, and a `>`, and
before `q` a space or a quotation mark; all others pass unnoticed.

* `Action.exists_known` — a sequence that can ask for something is taken for one of the known ones,
  whatever else is among its marks;
* `Interpreter.ignores_iff` — for all marks, known and foreign, when a sequence is ignored whatever
  its numbers.  That no more is ignored shows on one terminal, on which every known sequence tells
  (`Sequence.probe`).
-/

namespace VideoTerminal

namespace Sequence

/-- The marks of the sequences that are known: none, a question mark or a greater-than sign, and
before `q` a space or a quotation mark. -/
def KnownMarks (marks : List Char) (final : Char) : Prop :=
  marks = [] ∨ marks = ['?'] ∨ marks = ['>'] ∨ final = 'q' ∧ (marks = [' '] ∨ marks = ['"'])

instance (marks : List Char) (final : Char) : Decidable (KnownMarks marks final) := by
  unfold KnownMarks
  infer_instance

/-- Final characters of the sequences that ask for something without any mark. -/
def plainFinals : List Char :=
  ['A', 'B', 'C', 'D', 'E', 'F', 'G', '\x60', 'H', 'f', 'd', 'J', 'K', 'L', 'M', '@', 'P', 'X', 'S',
    'T', 'r', 'm', 's', 'u', 'n', 'c', 'h', 'l']

/-- The marks and final characters of the known sequences that ask for something. -/
def knownActs : List (List Char × Char) :=
  [(['?'], 'h'), (['?'], 'l'), (['>'], 'c'), ([' '], 'q'), (['"'], 'q')] ++ plainFinals.map ([], ·)

/-- Whether a sequence of these marks and this final character can ask for something: only `h` and
`l` behind a question mark, only `c` behind a greater-than sign, and nothing behind both. -/
def Acts (marks : List Char) (final : Char) : Prop :=
  if '?' ∈ marks then '>' ∉ marks ∧ (final = 'h' ∨ final = 'l')
  else if '>' ∈ marks then final = 'c'
  else final ∈ plainFinals ∨ final = 'q' ∧ (' ' ∈ marks ∨ '"' ∈ marks)

instance (marks : List Char) (final : Char) : Decidable (Acts marks final) := by
  unfold Acts
  infer_instance

/-- All sequences that are listed have marks that are known. -/
theorem knownMarks_of_mem_knownActs {known : List Char × Char} (h : known ∈ knownActs) :
    KnownMarks known.1 known.2 := by
  have hall : knownActs.all fun known => decide (KnownMarks known.1 known.2) := by decide
  exact of_decide_eq_true (List.all_eq_true.mp hall known h)

end Sequence

/-! ## What is looked at -/

namespace Action

variable {marks : List Char} {final : Char}

/-- Where neither sign is among the marks, the sequence is a plain one. -/
theorem ofSequence?_plain (hquestion : '?' ∉ marks) (hgreater : '>' ∉ marks) (params : List Nat) :
    ofSequence? ⟨marks, params, final⟩ = ofPlainSequence? ⟨marks, params, final⟩ := by
  simp [ofSequence?, hquestion, hgreater]

/-- Where neither sign is among the marks, they count before `q` only. -/
theorem ofSequence?_of_ne (hquestion : '?' ∉ marks) (hgreater : '>' ∉ marks) (hfinal : final ≠ 'q')
    (params : List Nat) :
    ofSequence? ⟨marks, params, final⟩ = ofSequence? ⟨[], params, final⟩ := by
  rw [ofSequence?_plain hquestion hgreater, ofSequence?_plain (by simp) (by simp)]
  unfold ofPlainSequence?
  dsimp only
  split
  all_goals first | rfl | exact absurd rfl hfinal

/-- Before `q` a space comes before a quotation mark, wherever they stand. -/
theorem exists_ofSequence?_q (hquestion : '?' ∉ marks) (hgreater : '>' ∉ marks)
    (hmark : ' ' ∈ marks ∨ '"' ∈ marks) :
    ∃ known, (known = [' '] ∨ known = ['"']) ∧
      ∀ params, ofSequence? ⟨marks, params, 'q'⟩ = ofSequence? ⟨known, params, 'q'⟩ := by
  by_cases hspace : ' ' ∈ marks
  · refine ⟨[' '], .inl rfl, fun params => ?_⟩
    rw [ofSequence?_plain hquestion hgreater, ofSequence?_plain (by simp) (by simp)]
    simp [ofPlainSequence?, hspace]
  · refine ⟨['"'], .inr rfl, fun params => ?_⟩
    rw [ofSequence?_plain hquestion hgreater, ofSequence?_plain (by simp) (by simp)]
    simp [ofPlainSequence?, hspace, hmark.resolve_left hspace]

/-- **A sequence that can ask for something is taken for a known one.** -/
theorem exists_known (h : Sequence.Acts marks final) :
    ∃ known, (known, final) ∈ Sequence.knownActs ∧
      ∀ params, ofSequence? ⟨marks, params, final⟩ = ofSequence? ⟨known, params, final⟩ := by
  unfold Sequence.Acts at h
  by_cases hquestion : '?' ∈ marks
  · rw [if_pos hquestion] at h
    refine ⟨['?'], ?_, fun params => by simp [ofSequence?, hquestion, h.1]⟩
    rcases h.2 with rfl | rfl <;> simp [Sequence.knownActs]
  · rw [if_neg hquestion] at h
    by_cases hgreater : '>' ∈ marks
    · rw [if_pos hgreater] at h
      exact ⟨['>'], by simp [Sequence.knownActs, h],
        fun params => by simp [ofSequence?, hquestion, hgreater]⟩
    · rw [if_neg hgreater] at h
      by_cases hfinal : final = 'q'
      · subst hfinal
        have hmark : ' ' ∈ marks ∨ '"' ∈ marks := by simpa [Sequence.plainFinals] using h
        obtain ⟨known, hknown, hsame⟩ := exists_ofSequence?_q hquestion hgreater hmark
        refine ⟨known, ?_, hsame⟩
        rcases hknown with rfl | rfl <;> simp [Sequence.knownActs]
      · have hplain : final ∈ Sequence.plainFinals := h.resolve_right fun hq => hfinal hq.1
        exact ⟨[], by simp [Sequence.knownActs, hplain],
          ofSequence?_of_ne hquestion hgreater hfinal⟩

/-- Any other sequence asks for nothing. -/
theorem ofSequence?_eq_none (h : ¬ Sequence.Acts marks final) (params : List Nat) :
    ofSequence? ⟨marks, params, final⟩ = none := by
  unfold Sequence.Acts at h
  by_cases hquestion : '?' ∈ marks
  · by_cases hgreater : '>' ∈ marks
    · simp [ofSequence?, hquestion, hgreater]
    · simp_all [ofSequence?]
  · by_cases hgreater : '>' ∈ marks
    · simp_all [ofSequence?]
    · rw [if_neg hquestion, if_neg hgreater, not_or] at h
      obtain ⟨hplain, hq⟩ := h
      rw [ofSequence?_plain hquestion hgreater]
      by_cases hfinal : final = 'q'
      · have hmarks : ' ' ∉ marks ∧ '"' ∉ marks := by simpa [hfinal] using hq
        simp [hfinal, ofPlainSequence?, hmarks]
      · unfold ofPlainSequence?
        dsimp only
        split
        all_goals first | rfl | exact absurd rfl hfinal | exact absurd (by decide) hplain

end Action

/-! ## A terminal on which everything tells -/

namespace Sequence

/-- No known sequence leaves this terminal as it is: all rows are painted, in another color than
what is erased now, the cursor stands in the middle and has been saved elsewhere, and of the modes
that `tellingParams` switches some are on and some are off. -/
def probe : Terminal :=
  let painted := { Terminal.new 3 3 0 with
    style := { background := some (.indexed 1) } }.eraseInDisplay 2
  let styled := { painted with style := { foreground := some (.indexed 2) } }
  (styled.saveCursor.cursorPosition 2 2).setMode .insertMode true

/-- Numbers under which every known sequence tells. -/
def tellingParams (final : Char) : List Nat :=
  if final = 'n' then [5]
  else if final = 'q' then [1]
  else if final = 'h' ∨ final = 'l' then [4, 20, 5, 25]
  else []

/-- The sequence changes the probe, or is answered. -/
def Tells (s : Sequence) : Prop :=
  (probe.performAll (Action.ofSequence? s).toList).toOption ≠ some (probe, [])

instance (s : Sequence) : Decidable s.Tells := by
  unfold Tells
  infer_instance

/-- A sequence that acts can be told from one that does not, by its parameters. -/
theorem tells_of_acts {marks : List Char} {final : Char} (h : Acts marks final) :
    Tells ⟨marks, tellingParams final, final⟩ := by
  have hall : knownActs.all fun known =>
      decide (Tells ⟨known.1, tellingParams known.2, known.2⟩) := by decide +kernel
  obtain ⟨known, hmem, hsame⟩ := Action.exists_known h
  have htells := of_decide_eq_true (List.all_eq_true.mp hall (known, final) hmem)
  rw [Tells, hsame]
  exact htells

end Sequence

namespace Parser

variable {p : Parser}

/-- Ending a number leaves the marks. -/
theorem marks_endNumber (p : Parser) : p.endNumber.marks = p.marks := by
  unfold endNumber
  split <;> rfl

/-- A final character ends the sequence with the marks that have been read. -/
theorem InSequence.exists_ofSequence? (h : p.InSequence) {c : Char} (hc : isFinal c = true) :
    ∃ (q : Parser) (params : List Nat),
      p.step c = (q, (Action.ofSequence? ⟨p.marks, params, c⟩).toList) ∧ q.state = .ground := by
  rcases h with h | h | h
  · exact ⟨{ p with state := .ground }, p.params, step_final_of_entry h hc, rfl⟩
  · refine ⟨{ p.endNumber with state := .ground }, p.endNumber.params, ?_, rfl⟩
    rw [step_final_of_param h hc, ← marks_endNumber p]
    rfl
  · exact ⟨{ p with state := .ground }, p.params, step_final_of_intermediate h hc, rfl⟩

end Parser

namespace Interpreter

/-- The character leaves the terminal as it is and is not answered, and what was being read is
over. -/
def Ignores (i : Interpreter) (c : Char) : Prop :=
  ∃ p : Parser, i.feed c = .ok (⟨p, i.terminal⟩, []) ∧ p.state = .ground

/-- Where no sequence acts, the final character is ignored. -/
theorem ignores_of_not_acts {i : Interpreter} (hinside : i.parser.InSequence) {final : Char}
    (hfinal : Parser.isFinal final = true) (h : ¬ Sequence.Acts i.parser.marks final) :
    i.Ignores final := by
  obtain ⟨q, params, hstep, hq⟩ := hinside.exists_ofSequence? hfinal
  refine ⟨q, ?_, hq⟩
  rw [Action.ofSequence?_eq_none h params] at hstep
  rw [feed, hstep]
  rfl

/-- The probe, where all of a sequence but its final character has been read. -/
def probing (marks : List Char) (final : Char) : Interpreter where
  parser :=
    { state := .sequenceIntermediate
      params := Sequence.tellingParams final
      marks := marks }
  terminal := Sequence.probe

/-- On the probing terminal a sequence that acts is not ignored. -/
theorem not_ignores_probing {marks : List Char} {final : Char}
    (hfinal : Parser.isFinal final = true) (h : Sequence.Acts marks final) :
    ¬ (probing marks final).Ignores final := by
  rintro ⟨q, hfeed, -⟩
  rw [feed, Parser.step_final_of_intermediate rfl hfinal] at hfeed
  obtain ⟨⟨t, replies⟩, hperform, hend⟩ := Terminal.exists_of_bind_eq_ok hfeed
  obtain ⟨hinterpreter, rfl⟩ := Prod.mk.inj (Except.ok.inj hend)
  obtain rfl : t = Sequence.probe := congrArg terminal hinterpreter
  exact Sequence.tells_of_acts h (congrArg Except.toOption hperform)

/-- **Which sequences are ignored.**  Whatever its numbers, a sequence of given marks and a given
final character leaves every terminal as it is and is not answered, exactly if it can not ask for
anything (`Sequence.Acts`): the marks that nothing looks at do not keep it from acting.  If it can,
it is carried out as the sequence of some known marks. -/
theorem ignores_iff {marks : List Char} {final : Char} (hfinal : Parser.isFinal final = true) :
    ((∀ i : Interpreter, i.parser.InSequence → i.parser.marks = marks → i.Ignores final) ↔
        ¬ Sequence.Acts marks final) ∧
      (Sequence.Acts marks final → ∃ known, Sequence.KnownMarks known final ∧
        ∀ params, Action.ofSequence? ⟨marks, params, final⟩ =
          Action.ofSequence? ⟨known, params, final⟩) := by
  refine ⟨⟨?_, ?_⟩, ?_⟩
  · intro hall hacts
    exact not_ignores_probing hfinal hacts (hall (probing marks final) (.inr (.inr rfl)) rfl)
  · rintro hidle i hinside rfl
    exact ignores_of_not_acts hinside hfinal hidle
  · intro hacts
    obtain ⟨known, hmem, hsame⟩ := Action.exists_known hacts
    exact ⟨known, Sequence.knownMarks_of_mem_knownActs hmem, hsame⟩

/-- A soft reset is ignored; a request for the tertiary attributes is taken for one for the primary
ones. -/
theorem ignores_iff_softReset :
    Parser.isFinal 'p' = true ∧ Parser.isFinal 'c' = true ∧
      (∀ i : Interpreter, i.parser.InSequence → i.parser.marks = ['!'] → i.Ignores 'p') ∧
      ∃ known, Sequence.KnownMarks known 'c' ∧
        ∀ params, Action.ofSequence? ⟨['='], params, 'c'⟩ =
          Action.ofSequence? ⟨known, params, 'c'⟩ :=
  ⟨by decide, by decide, (ignores_iff (by decide)).1.mpr (by decide),
    (ignores_iff (by decide)).2 (by decide)⟩

/-- A request for the tertiary attributes, whose mark is foreign, is answered. -/
theorem not_ignores_foreign :
    ¬ ∀ (i : Interpreter) (final : Char), i.parser.InSequence → Parser.isFinal final = true →
      ¬ Sequence.KnownMarks i.parser.marks final → i.Ignores final := by
  intro hall
  obtain ⟨p, hfeed, -⟩ := hall ⟨(Parser.read {} "\x1b[=".toList).1, .new 5 1 0⟩ 'c'
    (.inl (by decide)) (by decide) (by decide)
  have hreplies : _ = Except.ok [] := congrArg (Except.map Prod.snd) hfeed
  revert hreplies
  decide +kernel

end Interpreter

end VideoTerminal
