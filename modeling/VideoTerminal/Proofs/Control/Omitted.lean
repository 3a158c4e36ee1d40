import VideoTerminal.Proofs.Control.Fields
import VideoTerminal.Proofs.Control.Marks
import VideoTerminal.Proofs.Control.Memory
import VideoTerminal.Proofs.Style.Rendition

/-!
# Omitted numbers

An omitted number stands for zero.  Between two separators the parser puts the zero in; at the end
of a sequence it does not, and the sequence has one number less.  For most sequences that makes no
difference: what they do without a number they do with a zero (`Terminal.performAll_concat_zero`).

A request for a rendition is the exception.  It carries out all its numbers, and a zero is one of
them.  `Interpreter.outcome_feedText_completed_iff` is the exact condition.
-/

namespace VideoTerminal

namespace Fields

/-- The fields with a zero written out where a number is omitted. -/
def completed (f : Fields) : Fields where
  first := some (f.first.getD .zero)
  rest := f.rest.map fun field => (field.1, some (field.2.getD .zero))

/-- Completing puts zeros where numbers were omitted. -/
theorem all_completed (f : Fields) :
    f.completed.all = f.all.map fun n => some (n.getD .zero) := by
  simp [all, completed, Function.comp_def]

/-- Completing does not change what is meant. -/
theorem values_completed (f : Fields) : f.completed.values = f.values := by
  rw [values, values, all_completed, List.map_map]
  refine List.map_congr_left fun n _ => ?_
  cases n with
  | none => decide
  | some n => rfl

/-- Of completed fields the last one is not omitted. -/
theorem not_endsOmitted_completed (f : Fields) : ¬ f.completed.EndsOmitted := by
  refine not_endsOmitted ?_
  rw [all_completed]
  simp

/-- With the zeros written out, all numbers count. -/
theorem params_completed (f : Fields) :
    f.completed.params = if f.EndsOmitted then f.params ++ [0] else f.params := by
  rw [params_of_not_endsOmitted f.not_endsOmitted_completed, values_completed]
  split
  next h => rw [params_of_endsOmitted h]
  next h => rw [params_of_not_endsOmitted h]

end Fields

/-! ## A zero at the end -/

namespace Sequence

/-- Whether the sequence is a request for a rendition. -/
def SelectsRendition (marks : List Char) (final : Char) : Prop :=
  final = 'm' ∧ '?' ∉ marks ∧ '>' ∉ marks

variable (marks : List Char) (params : List Nat) (final : Char)

/-- A zero at the end does not count as a first number. -/
theorem headD_concat_zero : (params ++ [0]).headD 0 = params.headD 0 := by
  cases params <;> rfl

/-- A zero at the end is no count. -/
theorem count_concat_zero :
    count ⟨marks, params ++ [0], final⟩ = count ⟨marks, params, final⟩ := by
  cases params <;> rfl

/-- A zero is as good as no number where a positive one is asked for. -/
theorem positive?_concat_zero (i : Nat) :
    positive? ⟨marks, params ++ [0], final⟩ i = positive? ⟨marks, params, final⟩ i := by
  unfold positive?
  dsimp only
  rcases Nat.lt_trichotomy i params.length with hi | rfl | hi
  · rw [List.getElem?_append_left hi]
  · simp
  · rw [List.getElem?_append_right (Nat.le_of_lt hi), List.getElem?_eq_none (Nat.le_of_lt hi),
      List.getElem?_eq_none (by simp; omega)]

/-- Positions count from one, and a zero is the first one. -/
theorem headD_concat_zero_sub_one : (params ++ [0]).headD 1 - 1 = params.headD 1 - 1 := by
  cases params <;> rfl

/-- A second number that is zero is as good as one. -/
theorem getD_concat_zero_sub_one : (params ++ [0]).getD 1 1 - 1 = params.getD 1 1 - 1 := by
  match params with
  | [] => rfl
  | [_] => rfl
  | _ :: _ :: _ => rfl

end Sequence

namespace Terminal

variable (t : Terminal)

/-- Columns are counted from one, and the column zero is the first as well. -/
theorem cursorColumn_congr {col col' : Nat} (h : col - 1 = col' - 1) :
    t.cursorColumn col = t.cursorColumn col' := by
  rw [cursorColumn, cursorColumn, h]

theorem cursorRow_congr {row row' : Nat} (h : row - 1 = row' - 1) :
    t.cursorRow row = t.cursorRow row' := by
  rw [cursorRow, cursorRow, h]

/-- Places are counted from one in both directions, and zero is as good as one. -/
theorem cursorPosition_congr {row row' col col' : Nat} (hrow : row - 1 = row' - 1)
    (hcol : col - 1 = col' - 1) : t.cursorPosition row col = t.cursorPosition row' col' := by
  rw [cursorPosition, cursorPosition, t.cursorRow_congr hrow, cursorColumn_congr _ hcol]

/-- No mode has the number zero. -/
theorem foldl_concat_zero {switch : Terminal → Nat → Terminal} (h : ∀ t, switch t 0 = t)
    (codes : List Nat) : (codes ++ [0]).foldl switch t = codes.foldl switch t := by
  rw [List.foldl_append]
  exact h _

/-- Two actions that go through come to the same if they leave the same terminal. -/
theorem performAll_singleton_congr {a b : Action} (ha : t.perform a = .ok (t.performSimple a, []))
    (hb : t.perform b = .ok (t.performSimple b, [])) (h : t.performSimple a = t.performSimple b) :
    t.performAll [a] = t.performAll [b] := by
  rw [performAll, performAll, ha, hb, h]

variable (marks : List Char) (params : List Nat) {final : Char}

/-- Any plain sequence but the choice of a style does the same with a zero at its end. -/
theorem performAll_plain_concat_zero (h : final ≠ 'm') :
    t.performAll (Action.ofPlainSequence? ⟨marks, params ++ [0], final⟩).toList =
      t.performAll (Action.ofPlainSequence? ⟨marks, params, final⟩).toList := by
  have hfirst := Sequence.headD_concat_zero_sub_one params
  have hsecond := Sequence.getD_concat_zero_sub_one params
  unfold Action.ofPlainSequence?
  simp only [Sequence.headD_concat_zero, Sequence.count_concat_zero,
    Sequence.positive?_concat_zero]
  split
  -- Most actions are the same.  The others are columns, positions and rows, the lists of modes, the
  -- report, and the rendition, which is excluded.
  all_goals first
    | rfl
    | exact t.performAll_singleton_congr rfl rfl (t.cursorColumn_congr hfirst)
    | exact t.performAll_singleton_congr rfl rfl (t.cursorPosition_congr hfirst hsecond)
    | exact t.performAll_singleton_congr rfl rfl (t.cursorRow_congr hfirst)
    | exact t.performAll_singleton_congr rfl rfl (t.foldl_concat_zero (fun _ => rfl) params)
    | cases params <;> rfl
    | exact absurd rfl h

/-- **A zero at the end** makes a difference to requests for a rendition only. -/
theorem performAll_concat_zero (h : ¬ Sequence.SelectsRendition marks final) :
    t.performAll (Action.ofSequence? ⟨marks, params ++ [0], final⟩).toList =
      t.performAll (Action.ofSequence? ⟨marks, params, final⟩).toList := by
  unfold Action.ofSequence?
  dsimp only
  split
  next hquestion hgreater =>
    refine t.performAll_plain_concat_zero marks params fun hfinal => h ⟨hfinal, ?_, ?_⟩
    · simpa using hquestion
    · simpa using hgreater
  next =>
    split
    · exact t.performAll_singleton_congr rfl rfl (t.foldl_concat_zero (fun _ => rfl) params)
    · split
      · exact t.performAll_singleton_congr rfl rfl (t.foldl_concat_zero (fun _ => rfl) params)
      · rfl
  next => rfl
  next => rfl

/-- The choice of a style does nothing but change the style. -/
theorem performAll_selectRendition {marks : List Char} (h : Sequence.SelectsRendition marks final) :
    t.performAll (Action.ofSequence? ⟨marks, params, final⟩).toList =
      .ok ({ t with style := t.style.select params }, []) := by
  obtain ⟨rfl, hquestion, hgreater⟩ := h
  rw [Action.ofSequence?_plain hquestion hgreater]
  rfl

end Terminal

namespace Interpreter

/-- **Omitted numbers.**  Whichever numbers of a sequence are omitted, it does the same to every
terminal as with zeros in their places and is answered the same, unless it is a request for a
rendition whose last number is omitted: then it does so exactly if the numbers in front come to the
same with and without a zero behind them.  Behind numbers that end no color that zero is a reset. -/
theorem outcome_feedText_completed_iff {i : Interpreter} (hground : i.parser.state = .ground)
    {markers : List Char} (hmarkers : ∀ c ∈ markers, Parser.isMarker c = true) {f : Fields}
    (hlen : f.all.length ≤ Parser.maxParams) {final : Char} (hfinal : Parser.isFinal final = true) :
    ((i.feedText (f.sequence markers final)).map outcome =
        (i.feedText (f.completed.sequence markers final)).map outcome ↔
      (Sequence.SelectsRendition markers final → f.EndsOmitted →
        i.terminal.style.select f.params = i.terminal.style.select (f.params ++ [0]))) ∧
      (Style.Complete f.params → i.terminal.style.select (f.params ++ [0]) = .empty) := by
  refine ⟨?_, fun hcomplete => Style.select_concat_zero hcomplete i.terminal.style⟩
  have hlen' : f.completed.all.length ≤ Parser.maxParams := by
    rw [Fields.all_completed, List.length_map]
    exact hlen
  rw [feedText_eq, feedText_eq, Parser.read_fields hground hmarkers hlen hfinal,
    Parser.read_fields hground hmarkers hlen' hfinal, Fields.params_completed]
  by_cases hends : f.EndsOmitted
  · -- The two sequences have the same numbers but for a zero at the end.
    rw [if_pos hends]
    by_cases hselects : Sequence.SelectsRendition markers final
    · rw [Terminal.performAll_selectRendition _ _ hselects,
        Terminal.performAll_selectRendition _ _ hselects]
      constructor
      · intro hsame _ _
        exact congrArg (fun out => out.2.1.style) (Except.ok.inj hsame)
      · intro hstyle
        dsimp only [Except.map, outcome]
        rw [hstyle hselects hends]
    · rw [Terminal.performAll_concat_zero _ _ _ hselects]
      refine ⟨fun _ h => absurd h hselects, fun _ => ?_⟩
      cases i.terminal.performAll _ with
      | error fault => rfl
      | ok out => rfl
  · rw [if_neg hends]
    exact ⟨fun _ _ h => absurd h hends, fun _ => rfl⟩

/-- A scroll region behind a foreign marker, with its first row and a third number omitted. -/
theorem outcome_feedText_completed_iff_region :
    let i : Interpreter := ⟨{}, Terminal.new 5 3 0⟩
    let two : Numeral := ⟨['0', '2'], by decide, by simp⟩
    let f : Fields := ⟨none, [(.semicolon, some two), (.colon, none)]⟩
    i.parser.state = .ground ∧ (∀ c ∈ ['='], Parser.isMarker c = true) ∧
      f.all.length ≤ Parser.maxParams ∧ Parser.isFinal 'r' = true ∧
      f.sequence ['='] 'r' = "\x1b[=;02:r".toList ∧
      f.completed.sequence ['='] 'r' = "\x1b[=0;02:0r".toList ∧
      (i.feedText (f.sequence ['='] 'r')).map outcome =
        (i.feedText (f.completed.sequence ['='] 'r')).map outcome :=
  ⟨rfl, List.all_eq_true.mp (by decide), by decide, by decide, by decide, by decide,
    (outcome_feedText_completed_iff rfl (List.all_eq_true.mp (by decide)) (by decide)
      (by decide)).1.mpr fun h => absurd h.1 (by decide)⟩

/-- Behind a number, a rendition's omitted one does not reset the style. -/
theorem not_outcome_feedText_completed :
    ¬ ∀ (i : Interpreter) (f : Fields) (markers : List Char) (final : Char),
      i.parser.state = .ground → (∀ c ∈ markers, Parser.isMarker c = true) →
        f.all.length ≤ Parser.maxParams → Parser.isFinal final = true →
          (i.feedText (f.sequence markers final)).map outcome =
            (i.feedText (f.completed.sequence markers final)).map outcome := by
  intro hall
  have hsame := hall ⟨{}, Terminal.new 5 1 0⟩
    ⟨some ⟨['1'], by decide, by simp⟩, [(.semicolon, none)]⟩ [] 'm' rfl (by simp) (by decide)
    (by decide)
  have hstyle := congrArg (Except.map fun out => out.2.1.style) hsame
  revert hstyle
  decide +kernel

end Interpreter

end VideoTerminal
