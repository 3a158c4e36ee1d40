import VideoTerminal.Proofs.Rendering.Pieces

/-!
# What is written of a row

A row is written from its start to its last cell that has a character or a background.  Up to there
each slot shows its sign in its own style: a character, or blanks in the columns of one that is
hidden (`Row.signs`).  In the text every sign stands once, behind the request for its style
(`Renderer.Inscribes`), however cells of one style are run together.

What is left out are spaces without a background.  They look like cells that nothing was written to,
unless they are inverse or underlined: then a blank that is to be seen is lost
(`Renderer.untouched_behind_iff`).
-/

namespace VideoTerminal

/-! ## Signs -/

/-- What a slot shows. -/
inductive Sign
  /-- A character that leads others. -/
  | lead (c : Char)
  /-- A character that belongs to the one before it. -/
  | attached (c : Char)
  | blank
  deriving DecidableEq, Repr

/-- The character that is written for a sign. -/
def Sign.char : Sign → Char
  | lead c => c
  | attached c => c
  | blank => ' '

/-- Whether a cell looks like one that nothing was written to: a space on the screen's own
background, neither inverse nor underlined. -/
def Cell.looksUntouched (c : Cell) : Bool :=
  c.char == ' ' && c.style.background.isNone && !c.style.has .inverse && !c.style.has .underline

namespace Row

variable (row : Row)

/-- The signs of slot `i`.  A wide tail has none, and a hidden character leaves blanks in its
columns. -/
def signsAt (i : Nat) (c : Cell) : List Sign :=
  if c.isWideTail then []
  else if c.style.has .hidden then
    List.replicate (row.cells.line.slotWidth row.cells.length i) .blank
  else if row.cells.line.isStructural i then [.attached c.char]
  else [.lead c.char]

/-- The signs of the first slots, each in the style of its slot. -/
def signs (n : Nat) : List (Style × Sign) :=
  (row.cells.take n).zipIdx.flatMap fun (c, i) => (row.signsAt i c).map fun sign => (c.style, sign)

/-- The cells that are written. -/
def used : Cells := row.cells.take row.usedLength

/-- The last cell that does not look as if nothing was written to it. -/
def lastSeen? : Option Cell := (row.cells.filter fun c => !c.looksUntouched).getLast?

/-- What is written of a row ends with the last cell that is visible there. -/
theorem used_eq :
    row.used = (row.cells.reverse.dropWhile fun c => !isVisibleAtEnd c).reverse := by
  have hsplit : (row.cells.reverse.dropWhile fun c => !isVisibleAtEnd c).reverse ++
      (row.cells.reverse.takeWhile fun c => !isVisibleAtEnd c).reverse = row.cells := by
    rw [← List.reverse_append, List.takeWhile_append_dropWhile, List.reverse_reverse]
  rw [used, usedLength, ← List.length_reverse]
  nth_rewrite 2 [← hsplit]
  exact List.take_left

/-- What is left out are spaces without a background. -/
theorem exists_blanks :
    ∃ blanks, row.cells = row.used ++ blanks ∧ row.used.length = row.usedLength ∧
      ∀ cell ∈ blanks, cell.char = ' ' ∧ cell.style.background = none := by
  refine ⟨(row.cells.reverse.takeWhile fun c => !isVisibleAtEnd c).reverse, ?_, ?_, ?_⟩
  · rw [used_eq, ← List.reverse_append, List.takeWhile_append_dropWhile, List.reverse_reverse]
  · rw [used_eq, List.length_reverse, usedLength]
  · intro cell hcell
    have hinvisible := List.mem_takeWhile_imp (List.mem_reverse.mp hcell)
    simpa [isVisibleAtEnd] using hinvisible

/-- A cell is visible at the end if it is not blank or has a background. -/
theorem isVisibleAtEnd_iff {cell : Cell} :
    isVisibleAtEnd cell = true ↔ cell.char ≠ ' ' ∨ cell.style.background ≠ none := by
  simp [isVisibleAtEnd, Option.isSome_iff_ne_none]

/-- The last cell that is written is not one of these. -/
theorem isVisibleAtEnd_of_getLast?_used {cell : Cell} (h : row.used.getLast? = some cell) :
    isVisibleAtEnd cell = true := by
  have hhead := List.head?_dropWhile_not (fun c => !isVisibleAtEnd c) row.cells.reverse
  rw [used_eq, List.getLast?_reverse] at h
  rw [h] at hhead
  simpa using hhead

/-! ## Where a row is cut off -/

variable {row}

/-- What is visible has been touched. -/
theorem not_looksUntouched_of_isVisibleAtEnd {cell : Cell} (h : isVisibleAtEnd cell = true) :
    cell.looksUntouched = false := by
  unfold Cell.looksUntouched
  rcases isVisibleAtEnd_iff.mp h with hchar | hback
  · rw [beq_false_of_ne hchar, Bool.false_and, Bool.false_and, Bool.false_and]
  · rw [Option.isNone_eq_false_iff.mpr (Option.isSome_iff_ne_none.mpr hback), Bool.and_false,
      Bool.false_and, Bool.false_and]

/-- **What is left out looks untouched** if and only if the last cell that does not has a character
or a background. -/
theorem forall_dropped_looksUntouched_iff :
    (∀ cell ∈ row.cells.drop row.usedLength, cell.looksUntouched = true) ↔
      ∀ cell, row.lastSeen? = some cell → isVisibleAtEnd cell = true := by
  obtain ⟨blanks, hsplit, hlen, hblanks⟩ := row.exists_blanks
  have hdrop : row.cells.drop row.usedLength = blanks := by
    rw [hsplit, ← hlen, List.drop_left]
  rw [hdrop, lastSeen?, hsplit, List.filter_append, List.getLast?_append]
  constructor
  · intro huntouched cell hcell
    -- The last cell that is written is seen, so that no other one is the last.
    have hnone : blanks.filter (fun c => !c.looksUntouched) = [] := by
      simpa [List.filter_eq_nil_iff] using huntouched
    rw [hnone, List.getLast?_nil, Option.none_or] at hcell
    cases hlast : row.used.getLast? with
    | none =>
        rw [List.getLast?_eq_none_iff.mp hlast] at hcell
        cases hcell
    | some last =>
        have hvisible := row.isVisibleAtEnd_of_getLast?_used hlast
        obtain ⟨front, hfront⟩ := List.getLast?_eq_some_iff.mp hlast
        rw [hfront, List.filter_append, List.filter_singleton,
          not_looksUntouched_of_isVisibleAtEnd hvisible, List.getLast?_append] at hcell
        obtain rfl : last = cell := Option.some.inj hcell
        exact hvisible
  · intro hseen cell hcell
    by_contra htouched
    have hne : blanks.filter (fun c => !c.looksUntouched) ≠ [] :=
      List.ne_nil_of_mem (List.mem_filter.mpr ⟨hcell, by simpa using htouched⟩)
    obtain ⟨last, hlast⟩ := Option.ne_none_iff_exists'.mp fun hnone =>
      hne (List.getLast?_eq_none_iff.mp hnone)
    have hvisible := hseen last (by rw [hlast, Option.some_or])
    obtain ⟨hchar, hback⟩ := hblanks last (List.mem_of_mem_filter (List.mem_of_getLast? hlast))
    rcases isVisibleAtEnd_iff.mp hvisible with h | h
    · exact h hchar
    · exact h hback

end Row

/-! ## Signs as they are written -/

namespace Row

variable (row : Row)

/-- The letters that are written. -/
def letters : List (Style × Char) :=
  (row.signs row.usedLength).map fun sign => (sign.1, sign.2.char)

/-- What is written for a cell is the character of its sign. -/
theorem glyph_eq {i : Nat} {c : Cell} (hslot : row.cells.line i = some c.char)
    (htail : c.isWideTail = false) : row.glyph i c = (row.signsAt i c).map Sign.char := by
  have hstructural : row.cells.line.isStructural i =
      extendsPrevious (row.cells.line.before? i) c.char := by
    rw [Line.isStructural, hslot]
  unfold glyph signsAt
  dsimp only
  rw [htail, if_neg Bool.false_ne_true, Line.slotWidth, ← hstructural]
  cases row.cells.line.isStructural i with
  | true => split <;> rfl
  | false =>
      rw [if_neg Bool.false_ne_true, if_neg Bool.false_ne_true, if_neg Bool.false_ne_true]
      split
      · rw [List.map_replicate]
        rfl
      · rfl

/-- The texts of the slots are their signs. -/
theorem spelled_glyphs : spelled row.glyphs = row.letters := by
  have hslots : ∀ p ∈ (row.cells.take row.usedLength).zipIdx,
      row.cells.line p.2 = some p.1.char := by
    rintro ⟨c, i⟩ hp
    have hcell := List.mk_mem_zipIdx_iff_getElem?.mp hp
    have hlt : i < row.usedLength :=
      (List.getElem?_eq_some_iff.mp hcell).1.trans_le (List.length_take_le _ _)
    rw [List.getElem?_take_of_lt hlt] at hcell
    rw [Cells.line, hcell]
    rfl
  rw [letters, signs, List.map_flatMap, glyphs]
  generalize (row.cells.take row.usedLength).zipIdx = slots at hslots
  induction slots with
  | nil => rfl
  | cons p slots ih =>
      obtain ⟨hslot, hrest⟩ := List.forall_mem_cons.mp hslots
      rw [List.flatMap_cons, ← ih hrest]
      cases htail : p.1.isWideTail with
      | true => simp [signsAt, htail]
      | false => simp [spelled, htail, row.glyph_eq hslot htail]

end Row

namespace Renderer

/-- A text in which letters are written in order, each behind the request for its own style: one
style is asked for, unless the text is plain, then its letters follow, then the next one. -/
inductive Inscribes (r : Renderer) : List (Style × Char) → List Char → Prop
  | nil : Inscribes r [] []
  | run {style : Style} {run : List Char} {rest : List (Style × Char)} {text : List Char}
      (hrun : run ≠ []) (hrest : Inscribes r rest text) :
      Inscribes r (run.map (fun c => (style, c)) ++ rest)
        ((if r.plain then [] else (r.styleText style).toList) ++ run ++ text)

/-- What is written for a row: its signs, and the end of the line. -/
def Writes (r : Renderer) (row : Row) (line : List Char) : Prop :=
  ∃ text, r.Inscribes row.letters text ∧
    line = text ++ (if r.plain then [] else resetText.toList) ++ ['\n']

variable (r : Renderer)

/-- Runs write what they spell. -/
theorem inscribes_runs {runs : List (Style × List Char)} (h : ∀ run ∈ runs, run.2 ≠ []) :
    r.Inscribes (spelled runs) (runs.flatMap fun run => (r.runText run).toList) := by
  induction runs with
  | nil => exact .nil
  | cons run runs ih =>
      obtain ⟨hrun, hruns⟩ := List.forall_mem_cons.mp h
      have htext : (r.runText run).toList =
          (if r.plain then [] else (r.styleText run.1).toList) ++ run.2 := by
        rw [runText, String.toList_append, String.toList_ofList]
        split <;> rfl
      rw [List.flatMap_cons, htext]
      exact .run hrun (ih hruns)

/-- The text of a row writes the row. -/
theorem writes_rowText (row : Row) : r.Writes row (r.rowText row).toList := by
  refine ⟨row.runs.flatMap fun run => (r.runText run).toList, ?_, ?_⟩
  · rw [← row.spelled_glyphs, ← Row.spelled_joinRuns]
    exact r.inscribes_runs fun run hrun => Row.ne_nil_of_mem_joinRuns hrun
  · rw [rowText, String.toList_append, String.toList_append, String.toList_join, List.flatMap_map]
    split <;> rfl

/-- Row by row. -/
theorem exists_lines (t : Terminal) :
    ∃ lines, (r.render t).toList = lines.flatten ∧ List.Forall₂ r.Writes t.active.rows lines := by
  refine ⟨t.active.rows.map fun row => (r.rowText row).toList, ?_, ?_⟩
  · rw [render, String.toList_join, List.flatMap_map, List.flatMap_def]
  · rw [List.forall₂_map_right_iff]
    exact List.forall₂_same.mpr fun row _ => r.writes_rowText row

/-- **What is left out looks untouched, but for inverse and underlined blanks.**  The lines of a
rendered text are the rows: up to its last cell that has a character or a background every slot of a
row is written once, in order and in its own style.  Behind it there are spaces without a
background, and they look as if nothing was written to them if and only if the last cell of the row
that does not look so has a character or a background. -/
theorem untouched_behind_iff (t : Terminal) :
    (∃ lines, (r.render t).toList = lines.flatten ∧
        List.Forall₂ r.Writes t.active.rows lines) ∧
      ∀ row ∈ t.active.rows,
        (∀ cell, row.used.getLast? = some cell →
          cell.char ≠ ' ' ∨ cell.style.background ≠ none) ∧
        (∀ cell ∈ row.cells.drop row.usedLength,
          cell.char = ' ' ∧ cell.style.background = none) ∧
        ((∀ cell ∈ row.cells.drop row.usedLength, cell.looksUntouched = true) ↔
          ∀ cell, row.lastSeen? = some cell →
            cell.char ≠ ' ' ∨ cell.style.background ≠ none) := by
  refine ⟨r.exists_lines t, fun row _ => ⟨fun cell hcell => ?_, ?_, ?_⟩⟩
  · exact Row.isVisibleAtEnd_iff.mp (row.isVisibleAtEnd_of_getLast?_used hcell)
  · obtain ⟨blanks, hsplit, hlen, hblanks⟩ := row.exists_blanks
    rwa [hsplit, ← hlen, List.drop_left]
  · simp only [← Row.isVisibleAtEnd_iff]
    exact Row.forall_dropped_looksUntouched_iff

/-- A hidden character with a mark leaves blanks, and a blank at the end shows its background. -/
theorem untouched_behind_iff_hidden :
    ∃ (i : Interpreter) (row : Row),
      (⟨{}, Terminal.new 8 1 0⟩ : Interpreter).feedText
        "\x1b[8m\u4E2D\u0301\x1b[0;7ma \x1b[0;44m ".toList = .ok (i, []) ∧
      i.terminal.active.rows = [row] ∧
      row.cells.slots = ['\u4E2D', '\u0301', wideTail, 'a', ' ', ' ', ' ', ' '] ∧
      (∃ lines, (render ⟨.trueColor, .standard, false⟩ i.terminal).toList = lines.flatten ∧
        List.Forall₂ (Writes ⟨.trueColor, .standard, false⟩) [row] lines) ∧
      row.letters.map Prod.snd = [' ', ' ', 'a', ' ', ' '] ∧
      ∀ cell ∈ row.cells.drop row.usedLength, cell.looksUntouched = true := by
  have hrun : ((⟨{}, Terminal.new 8 1 0⟩ : Interpreter).feedText
      "\x1b[8m\u4E2D\u0301\x1b[0;7ma \x1b[0;44m ".toList).toOption.map (fun out =>
        (out.2, out.1.terminal.active.rows.map fun row =>
          (row.cells.slots, row.letters.map Prod.snd, row.lastSeen?.all Row.isVisibleAtEnd))) =
      some ([], [(['\u4E2D', '\u0301', wideTail, 'a', ' ', ' ', ' ', ' '],
        [' ', ' ', 'a', ' ', ' '], true)]) := by
    decide +kernel
  obtain ⟨⟨i, sent⟩, hfeed, hfacts⟩ := Option.map_eq_some_iff.mp hrun
  obtain ⟨rfl, hrows⟩ := Prod.mk.inj hfacts
  obtain ⟨row, hrow, hfacts⟩ := List.map_eq_singleton_iff.mp hrows
  obtain ⟨hslots, hfacts⟩ := Prod.mk.inj hfacts
  obtain ⟨hletters, hseen⟩ := Prod.mk.inj hfacts
  obtain ⟨hlines, hall⟩ := untouched_behind_iff ⟨.trueColor, .standard, false⟩ i.terminal
  rw [hrow] at hlines hall
  obtain ⟨-, -, huntouched⟩ := hall row List.mem_cons_self
  refine ⟨i, row, Terminal.eq_ok_of_toOption hfeed, hrow, hslots, hlines, hletters,
    huntouched.mpr fun cell hcell => Row.isVisibleAtEnd_iff.mp ?_⟩
  rwa [hcell] at hseen

/-- An underlined blank is lost. -/
theorem not_untouched_behind :
    ∃ (i : Interpreter) (row : Row) (cell : Cell),
      (⟨{}, Terminal.new 5 1 0⟩ : Interpreter).feedText "\x1b[4m ".toList = .ok (i, []) ∧
      i.terminal.active.rows = [row] ∧
      render ⟨.trueColor, .standard, false⟩ i.terminal = resetText ++ "\n" ∧
      cell ∈ row.cells.drop row.usedLength ∧ cell.looksUntouched = false := by
  have hrun : ((⟨{}, Terminal.new 5 1 0⟩ : Interpreter).feedText "\x1b[4m ".toList).toOption.map
      (fun out => (out.2, render ⟨.trueColor, .standard, false⟩ out.1.terminal,
        out.1.terminal.active.rows.map fun row =>
          (row.cells.drop row.usedLength).find? fun cell => !cell.looksUntouched)) =
      some ([], resetText ++ "\n", [some ⟨' ', { attributes := .underline }⟩]) := by
    decide +kernel
  obtain ⟨⟨i, sent⟩, hfeed, hfacts⟩ := Option.map_eq_some_iff.mp hrun
  obtain ⟨rfl, hfacts⟩ := Prod.mk.inj hfacts
  obtain ⟨htext, hrows⟩ := Prod.mk.inj hfacts
  obtain ⟨row, hrow, hfind⟩ := List.map_eq_singleton_iff.mp hrows
  exact ⟨i, row, _, Terminal.eq_ok_of_toOption hfeed, hrow, htext, List.mem_of_find?_eq_some hfind,
    by decide⟩

end Renderer

end VideoTerminal
