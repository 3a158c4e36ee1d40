import VideoTerminal.Proofs.Control.Fields
import VideoTerminal.Proofs.Terminal.Sheet
import VideoTerminal.Proofs.Terminal.Shown

/-!
# Texts that only print, end lines and choose styles

Such a text is made of pieces (`Piece`).  Between sequences the parser takes it piece by piece, and
a terminal that displays a sheet displays afterwards what the pieces have made of the sheet
(`Displays.exists_feedText`).

`Sheet.typeset?` is what they make of it, unless a character is counted beyond the greatest
coordinate; then feeding the text is a fault.  `Interpreter.overshootsIn_iff` says that this is so
exactly if some character overshoots on the terminal that has been fed what stands before it.
-/

namespace VideoTerminal

/-- A part of a text: a character, the end of a line, or a request for a rendition. -/
inductive Piece
  | print (c : Char)
  | newLine
  | rendition (f : Fields)

namespace Piece

/-- The piece as it is written. -/
def text : Piece → List Char
  | print c => [c]
  | newLine => ['\r', '\n']
  | rendition f => f.sequence [] 'm'

/-- What the piece asks for. -/
def actions : Piece → List Action
  | print c => [.print c]
  | newLine => [.carriageReturn, .lineFeed]
  | rendition f => [.selectRendition (f.params.take Parser.maxParams)]

/-- The piece is not a control that stands for a character. -/
def Plain (piece : Piece) : Prop := ∀ c, piece = print c → Text.isControl7 c = false

theorem plain_newLine : newLine.Plain := by
  intro c h
  cases h

theorem plain_rendition (f : Fields) : (rendition f).Plain := by
  intro c h
  cases h

end Piece

/-! ## Reading -/

namespace Parser

variable {p : Parser}

/-- A piece is read as what it asks for. -/
theorem exists_read_piece (h : p.state = .ground) {piece : Piece} (hplain : piece.Plain) :
    ∃ q, p.read piece.text = (q, piece.actions) ∧ q.state = .ground := by
  cases piece with
  | print c => exact ⟨p, by rw [Piece.text, read_singleton, step_plain h (hplain c rfl)]; rfl, h⟩
  | newLine =>
      have hreturn : p.step '\r' = (p, [.carriageReturn]) := by
        simp [step, h, Text.isC0, stepControl]
      have hfeed : p.step '\n' = (p, [.lineFeed]) := by
        simp [step, h, Text.isC0, stepControl]
      refine ⟨p, ?_, h⟩
      rw [Piece.text, read_cons, hreturn, read_singleton, hfeed]
      rfl
  | rendition f =>
      obtain ⟨q, hread, hq, hend⟩ := @exists_read_fields p [] (by simp) f
      refine ⟨(q.endNumber.dispatch 'm').1, ?_, rfl⟩
      rw [Piece.text, Fields.sequence, read_cons_of_silent (step_escape h), ← List.cons_append,
        read_append_of_silent hread, read_singleton, hq.step_final (by decide), dispatch, hend]
      rfl

/-- **A text is read piece by piece.** -/
theorem exists_read_pieces (h : p.state = .ground) {pieces : List Piece}
    (hplain : ∀ piece ∈ pieces, piece.Plain) :
    ∃ q, p.read (pieces.flatMap Piece.text) = (q, pieces.flatMap Piece.actions) ∧
      q.state = .ground := by
  induction pieces generalizing p with
  | nil => exact ⟨p, rfl, h⟩
  | cons piece rest ih =>
      obtain ⟨q, hread, hq⟩ := exists_read_piece h (hplain piece List.mem_cons_self)
      obtain ⟨r, hmore, hr⟩ := ih hq fun other hother =>
        hplain other (List.mem_cons_of_mem _ hother)
      refine ⟨r, ?_, hr⟩
      rw [List.flatMap_cons, List.flatMap_cons, read_append, hread]
      dsimp only
      rw [hmore]

end Parser

/-! ## What becomes of a sheet -/

namespace Sheet

variable (cols : Nat) (s : Sheet)

/-- What a piece makes of the sheet; `none` if a character is counted too far. -/
def step? : Piece → Option Sheet
  | .print c => if s.countable cols c then some (s.put cols c) else none
  | .newLine => some (s.newLine cols)
  | .rendition f => some { s with style := s.style.select (f.params.take Parser.maxParams) }

/-- A character that can be counted is put on the sheet. -/
theorem step?_print_of_countable {c : Char} (h : s.countable cols c = true) :
    s.step? cols (.print c) = some (s.put cols c) := if_pos h

/-- Attaching keeps the style of new text. -/
theorem style_attach (c : Char) : (s.attach cols c).style = s.style := by
  unfold attach
  split
  · rfl
  · dsimp only
    split <;> rfl

/-- Printing keeps the style. -/
theorem style_put (c : Char) : (s.put cols c).style = s.style := by
  unfold put
  split
  · rfl
  · split
    · exact s.style_attach cols c
    · repeat' split
      all_goals rfl

variable {cols s} in
/-- Only a character can be counted too far. -/
theorem step?_eq_none_iff {piece : Piece} :
    s.step? cols piece = none ↔ ∃ c, piece = .print c ∧ s.countable cols c = false := by
  cases piece with
  | print c => simp [step?]
  | newLine => simp [step?]
  | rendition f => simp [step?]

variable {cols s} in
/-- Printing keeps the style of new text. -/
theorem style_of_step?_print {c : Char} {s' : Sheet} (h : s.step? cols (.print c) = some s') :
    s'.style = s.style := by
  have hput := (Option.ite_none_right_eq_some.mp h).2
  rw [← Option.some.inj hput, style_put]

/-- What some pieces make of the sheet. -/
def typeset? (pieces : List Piece) : Option Sheet := pieces.foldlM (step? cols) s

theorem typeset?_nil : s.typeset? cols [] = some s := rfl

theorem typeset?_cons (piece : Piece) (rest : List Piece) :
    s.typeset? cols (piece :: rest) = (s.step? cols piece).bind fun s' => s'.typeset? cols rest :=
  rfl

/-- Pieces in two parts are set one part after the other. -/
theorem typeset?_append (front back : List Piece) :
    s.typeset? cols (front ++ back) =
      (s.typeset? cols front).bind fun s' => s'.typeset? cols back :=
  List.foldlM_append

/-- Where pieces make nothing of a sheet, one of their characters is counted too far. -/
theorem typeset?_eq_none_iff {pieces : List Piece} :
    s.typeset? cols pieces = none ↔
      ∃ front c rest s', pieces = front ++ .print c :: rest ∧ s.typeset? cols front = some s' ∧
        s'.countable cols c = false := by
  induction pieces generalizing s with
  | nil => simp [typeset?_nil]
  | cons piece rest ih =>
      rw [typeset?_cons]
      constructor
      · intro h
        cases hstep : s.step? cols piece with
        | none =>
            obtain ⟨c, rfl, hcount⟩ := step?_eq_none_iff.mp hstep
            exact ⟨[], c, rest, s, rfl, rfl, hcount⟩
        | some s₁ =>
            rw [hstep, Option.bind_some] at h
            obtain ⟨front, c, rest', s', rfl, hfront, hcount⟩ := (ih s₁).mp h
            refine ⟨piece :: front, c, rest', s', rfl, ?_, hcount⟩
            rw [typeset?_cons, hstep, Option.bind_some, hfront]
      · rintro ⟨front, c, rest', s', hsplit, hfront, hcount⟩
        cases front with
        | nil =>
            obtain ⟨rfl, rfl⟩ := List.cons.inj hsplit
            obtain rfl := Option.some.inj hfront
            rw [step?_eq_none_iff.mpr ⟨c, rfl, hcount⟩, Option.bind_none]
        | cons first front =>
            obtain ⟨rfl, rfl⟩ := List.cons.inj hsplit
            obtain ⟨s₁, hstep, hfront⟩ := Option.bind_eq_some_iff.mp hfront
            rw [hstep, Option.bind_some]
            exact (ih s₁).mpr ⟨front, c, rest', s', rfl, hfront, hcount⟩

/-- What holds of a sheet and is kept by each piece holds in the end. -/
theorem typeset?_induction {P : Sheet → Prop} {pieces : List Piece}
    (hkeep : ∀ piece ∈ pieces, ∀ s s' : Sheet, P s → s.step? cols piece = some s' → P s')
    {s s' : Sheet} (hs : P s) (h : s.typeset? cols pieces = some s') : P s' := by
  induction pieces generalizing s with
  | nil =>
      obtain rfl := Option.some.inj h
      exact hs
  | cons piece rest ih =>
      obtain ⟨s₁, hstep, hrest⟩ := Option.bind_eq_some_iff.mp h
      exact ih (fun other hother => hkeep other (List.mem_cons_of_mem _ hother))
        (hkeep piece List.mem_cons_self s s₁ hs hstep) hrest

end Sheet

/-! ## Feeding -/

namespace Terminal

namespace Displays

variable {t : Terminal} {cols limit : Nat} {s : Sheet}

/-- Another style of new text is one of the sheet. -/
theorem withStyle (h : t.Displays cols limit s) (style : Style) :
    ({ t with style := style } : Terminal).Displays cols limit { s with style := style } where
  plain := ⟨h.plain.autoWrap, h.plain.insertMode, h.plain.usingAlternate, h.plain.region,
    h.plain.length_rows, h.plain.cols_eq, h.plain.limit_eq⟩
  rows_pos := h.rows_pos
  style_eq := rfl
  fits := h.fits
  cells_eq := h.cells_eq
  row_eq := h.row_eq
  col_eq := h.col_eq
  history := h.history

/-- One piece. -/
theorem exists_performAll_piece (h : t.Displays cols limit s) (piece : Piece) :
    (∃ s' t', s.step? cols piece = some s' ∧ t.performAll piece.actions = .ok (t', []) ∧
        t'.rows = t.rows ∧ t'.Displays cols limit s') ∨
      (s.step? cols piece = none ∧ maxCoordinate < cols + 2 ∧
        ∃ n, t.performAll piece.actions = .error (.tooFar n)) := by
  cases piece with
  | print c =>
      have hperform : t.performAll [.print c] =
          t.putChar c >>= fun t' => pure (t', []) := by
        simp only [performAll, perform_print]
        cases t.putChar c <;> rfl
      cases hcount : s.countable cols c with
      | true =>
          obtain ⟨t', hok, ht'⟩ := h.exists_putChar_of_countable hcount
          refine .inl ⟨_, t', Sheet.step?_print_of_countable cols s hcount, ?_, ?_, ht'⟩
          · rw [Piece.actions, hperform, hok]
            rfl
          · exact (onShown_of_printed (printed_of_putChar hok)).rows_eq
      | false =>
          obtain ⟨hmax, n, herror⟩ := h.exists_putChar_eq_error hcount
          refine .inr ⟨if_neg (Bool.eq_false_iff.mp hcount), hmax, n, ?_⟩
          rw [Piece.actions, hperform, herror]
          rfl
  | newLine =>
      have hrows : t.carriageReturn.lineFeed.rows = t.rows :=
        (t.retouched_carriageReturn.onShown.trans (onShown_lineFeed _)).rows_eq
      exact .inl ⟨_, _, rfl, rfl, hrows, h.lineFeed_carriageReturn⟩
  | rendition f =>
      refine .inl ⟨_, _, rfl, rfl, rfl, ?_⟩
      rw [← h.style_eq]
      exact h.withStyle _

/-- All pieces of a text. -/
theorem exists_performAll (h : t.Displays cols limit s) (pieces : List Piece) :
    (∃ s' t', s.typeset? cols pieces = some s' ∧
        t.performAll (pieces.flatMap Piece.actions) = .ok (t', []) ∧
        t'.rows = t.rows ∧ t'.Displays cols limit s') ∨
      (s.typeset? cols pieces = none ∧ maxCoordinate < cols + 2 ∧
        ∃ n, t.performAll (pieces.flatMap Piece.actions) = .error (.tooFar n)) := by
  induction pieces generalizing t s with
  | nil => exact .inl ⟨s, t, rfl, rfl, rfl, h⟩
  | cons piece rest ih =>
      rw [Sheet.typeset?_cons, List.flatMap_cons, performAll_append]
      rcases h.exists_performAll_piece piece with ⟨s₁, t₁, hstep, hok, hrows, ht₁⟩ |
        ⟨hstep, hmax, n, herror⟩
      · rw [hstep, hok]
        dsimp only [Option.bind, Except.bind]
        rcases ih ht₁ with ⟨s', t', htypeset, hrest, hrows', ht'⟩ | ⟨htypeset, hmax, n, herror⟩
        · rw [hrest]
          exact .inl ⟨s', t', htypeset, rfl, hrows'.trans hrows, ht'⟩
        · rw [herror]
          exact .inr ⟨htypeset, hmax, n, rfl⟩
      · rw [hstep, herror]
        exact .inr ⟨rfl, hmax, n, rfl⟩

/-- **A text is fed** to a terminal that displays a sheet. -/
theorem exists_feedText {i : Interpreter} (hground : i.parser.state = .ground)
    (h : i.terminal.Displays cols limit s) {pieces : List Piece}
    (hplain : ∀ piece ∈ pieces, piece.Plain) :
    (∃ s' j, s.typeset? cols pieces = some s' ∧
        i.feedText (pieces.flatMap Piece.text) = .ok (j, []) ∧
        j.terminal.rows = i.terminal.rows ∧ j.terminal.Displays cols limit s') ∨
      (s.typeset? cols pieces = none ∧ maxCoordinate < cols + 2 ∧
        ∃ n, i.feedText (pieces.flatMap Piece.text) = .error (.tooFar n)) := by
  obtain ⟨q, hread, -⟩ := Parser.exists_read_pieces hground hplain
  rw [Interpreter.feedText_eq, hread]
  rcases h.exists_performAll pieces with ⟨s', t', htypeset, hok, hrows, ht'⟩ |
    ⟨htypeset, hmax, n, herror⟩
  · dsimp only
    rw [hok]
    exact .inl ⟨s', ⟨q, t'⟩, htypeset, rfl, hrows, ht'⟩
  · dsimp only
    rw [herror]
    exact .inr ⟨htypeset, hmax, n, rfl⟩

/-- What the terminal counts too far is what the sheet counts too far. -/
theorem overshoots_print_iff (h : t.Displays cols limit s) (c : Char) :
    t.Overshoots (.print c) ↔ s.countable cols c = false := by
  have hcols := h.plain.cols_eq
  have hcol := h.col_eq
  constructor
  · rintro ⟨w, hwidth, hext, hfit, hsum⟩
    rw [h.previousScalar?_eq] at hext
    refine Bool.eq_false_iff.mpr fun hcount => ?_
    have hle := Sheet.le_of_countable hcount hwidth hext (hcols ▸ hfit)
    omega
  · intro hcount
    obtain ⟨w, hwidth, hext, hfit, hsum⟩ := Sheet.exists_of_not_countable hcount
    exact ⟨w, hwidth, h.previousScalar?_eq ▸ hext, hcols.symm ▸ hfit, hcol.symm ▸ hsum⟩

end Displays

end Terminal

namespace Interpreter

/-- A character among the pieces overshoots where it is printed, behind all that stand before it. -/
def OvershootsIn (i : Interpreter) (pieces : List Piece) : Prop :=
  ∃ front c rest j, pieces = front ++ .print c :: rest ∧
    i.feedText (front.flatMap Piece.text) = .ok (j, []) ∧ j.terminal.Overshoots (.print c)

/-- **The sheet says when that is so.** -/
theorem overshootsIn_iff {i : Interpreter} {cols limit : Nat} {s : Sheet}
    (hground : i.parser.state = .ground) (h : i.terminal.Displays cols limit s)
    {pieces : List Piece} (hplain : ∀ piece ∈ pieces, piece.Plain) :
    i.OvershootsIn pieces ↔ s.typeset? cols pieces = none := by
  have hfed : ∀ {front : List Piece} {c : Char} {rest : List Piece},
      pieces = front ++ .print c :: rest → ∀ piece ∈ front, piece.Plain := by
    rintro front c rest rfl piece hpiece
    exact hplain piece (List.mem_append_left _ hpiece)
  rw [Sheet.typeset?_eq_none_iff]
  constructor
  · rintro ⟨front, c, rest, j, hsplit, hok, hover⟩
    rcases h.exists_feedText hground (hfed hsplit) with
      ⟨s', j', htypeset, hok', -, hj'⟩ | ⟨-, -, n, herror⟩
    · obtain ⟨rfl, -⟩ := Prod.mk.inj (Except.ok.inj (hok'.symm.trans hok))
      exact ⟨front, c, rest, s', hsplit, htypeset, (hj'.overshoots_print_iff c).mp hover⟩
    · rw [hok] at herror
      cases herror
  · rintro ⟨front, c, rest, s', hsplit, htypeset, hcount⟩
    rcases h.exists_feedText hground (hfed hsplit) with
      ⟨s₁, j, htypeset', hok, -, hj⟩ | ⟨hnone, -⟩
    · obtain rfl := Option.some.inj (htypeset'.symm.trans htypeset)
      exact ⟨front, c, rest, j, hsplit, hok, (hj.overshoots_print_iff c).mpr hcount⟩
    · rw [htypeset] at hnone
      cases hnone

end Interpreter

end VideoTerminal
