import VideoTerminal.Proofs.Rendering.Written
import VideoTerminal.Proofs.Line.Characters
import VideoTerminal.Proofs.Screen.Slots

/-!
# Hiding keeps the columns

A hidden character leaves blanks, as many as are counted along its slots; one that is shown is as
wide as the table of widths says.  In a whole row both are the same, slot by slot
(`Row.width_signsAt`).  So every character of a plain text stands in its own column, whatever is
hidden before it (`Renderer.column_of_written`).
-/

namespace VideoTerminal

/-- The columns that a sign takes. -/
def Sign.width : Sign → Nat
  | lead c => (Text.columns? c).getD 0
  | attached _ => 0
  | blank => 1

namespace Row

/-- The columns that signs take. -/
def signColumns (signs : List (Style × Sign)) : Nat := (signs.map fun sign => sign.2.width).sum

/-- Every slot that leads a character holds one of one column or two. -/
def LeadsTakeColumns (row : Row) : Prop :=
  ∀ i, (h : i < row.cells.length) → row.cells.line.isStructural i = false →
    Text.columns? row.cells[i].char = some 1 ∨ Text.columns? row.cells[i].char = some 2

instance (row : Row) : Decidable row.LeadsTakeColumns :=
  inferInstanceAs (Decidable (∀ i, (h : i < row.cells.length) →
    row.cells.line.isStructural i = false →
      Text.columns? row.cells[i].char = some 1 ∨ Text.columns? row.cells[i].char = some 2))

variable {row : Row} {cell : Cell} {i n m : Nat}

/-- The columns of signs are counted in one part and then in the other. -/
theorem signColumns_append (before after : List (Style × Sign)) :
    signColumns (before ++ after) = signColumns before + signColumns after := by
  rw [signColumns, List.map_append, List.sum_append]
  rfl

/-! ## Slot by slot -/

/-- What is written of more cells begins with what is written of fewer. -/
theorem signs_append (h : n ≤ m) : ∃ rest, row.signs m = row.signs n ++ rest := by
  obtain ⟨rest, hrest⟩ := List.take_prefix_take_left (l := row.cells) h
  rw [signs, signs, ← hrest, List.zipIdx_append, List.flatMap_append]
  exact ⟨_, rfl⟩

/-- One cell more is written behind those before it. -/
theorem signs_succ (h : row.cells[i]? = some cell) :
    row.signs (i + 1) =
      row.signs i ++ (row.signsAt i cell).map fun sign => (cell.style, sign) := by
  have hlen : (row.cells.take i).length = i := by
    rw [List.length_take, min_eq_left]
    exact (List.getElem?_eq_some_iff.mp h).1.le
  rw [signs, signs, List.take_add_one, h, Option.toList_some, List.zipIdx_append,
    List.flatMap_append, List.zipIdx_singleton, List.flatMap_singleton, hlen, Nat.zero_add]

/-- The line shows the character of the cell. -/
theorem line_eq_some (h : row.cells[i]? = some cell) : row.cells.line i = some cell.char := by
  rw [Cells.line, h]
  rfl

/-- A cell that begins a character is no tail. -/
theorem isWideTail_of_lead (h : row.cells[i]? = some cell)
    (hlead : row.cells.line.isStructural i = false) : cell.isWideTail = false := by
  by_contra htail
  have hchar : cell.char = wideTail := by simpa [Cell.isWideTail] using htail
  have hslot := line_eq_some h
  rw [hchar] at hslot
  rw [Line.isStructural_of_wideTail hslot] at hlead
  cases hlead

/-- A slot that leads a character is written as that one, or its blanks begin. -/
theorem exists_signsAt_of_lead (h : row.cells[i]? = some cell)
    (hlead : row.cells.line.isStructural i = false) :
    ∃ rest, row.signsAt i cell =
      (if cell.style.has .hidden then .blank else .lead cell.char) :: rest := by
  rw [signsAt, isWideTail_of_lead h hlead, if_neg Bool.false_ne_true, hlead,
    if_neg Bool.false_ne_true]
  split
  · rw [Line.slotWidth, hlead, if_neg Bool.false_ne_true]
    rcases row.cells.line.characterWidth_eq_one_or_two i row.cells.length with hone | htwo
    · exact ⟨[], by rw [hone]; rfl⟩
    · exact ⟨[.blank], by rw [htwo]; rfl⟩
  · exact ⟨[], rfl⟩

/-- In a whole row a character is as wide as its tail says. -/
theorem slotWidth_of_lead (hwhole : Slots.Whole row.cells.slots) (h : row.cells[i]? = some cell)
    (hlead : row.cells.line.isStructural i = false) :
    row.cells.line.slotWidth row.cells.length i =
      if Text.columns? cell.char = some 2 then 2 else 1 := by
  obtain ⟨hlt, rfl⟩ := List.getElem?_eq_some_iff.mp h
  have hsplit : row.cells.slots =
      Cells.slots (row.cells.take i) ++ row.cells[i].char ::
        Cells.slots (row.cells.drop (i + 1)) := by
    rw [Cells.slots, Cells.slots, Cells.slots, ← List.map_cons, List.getElem_cons_drop,
      ← List.map_append, List.take_append_drop]
  have hlen : (Cells.slots (row.cells.take i)).length = i := by
    rw [Cells.length_slots, List.length_take, min_eq_left hlt.le]
  have hwidth := (hsplit ▸ hwhole).slotWidth_eq
  have hext := Line.isStructural_ofList (Cells.slots (row.cells.take i))
    (Cells.slots (row.cells.drop (i + 1))) row.cells[i].char
  rw [← hsplit, hlen, ← Cells.line_eq_ofList] at hwidth hext
  rw [← row.cells.length_slots, hwidth, Slots.leadColumns, ← hext, hlead]
  rfl

/-- **A slot is written as wide as it is**, hidden or not. -/
theorem width_signsAt (hwhole : Slots.Whole row.cells.slots) (hleads : row.LeadsTakeColumns)
    (h : row.cells[i]? = some cell) :
    ((row.signsAt i cell).map Sign.width).sum =
      row.cells.line.slotWidth row.cells.length i := by
  cases hstructural : row.cells.line.isStructural i with
  | true =>
      rw [signsAt, Line.slotWidth, hstructural, if_pos rfl, if_pos rfl]
      split
      · rfl
      · split <;> rfl
  | false =>
      rw [signsAt, isWideTail_of_lead h hstructural, if_neg Bool.false_ne_true, hstructural,
        if_neg Bool.false_ne_true]
      split
      · simp [Sign.width]
      · -- Only here the table of widths is asked.
        obtain ⟨hlt, rfl⟩ := List.getElem?_eq_some_iff.mp h
        rw [slotWidth_of_lead hwhole h hstructural]
        rcases hleads i hlt hstructural with hone | htwo
        · simp [Sign.width, hone]
        · simp [Sign.width, htwo]

/-- The first slots are written as wide as they are. -/
theorem signColumns_signs (hwhole : Slots.Whole row.cells.slots) (hleads : row.LeadsTakeColumns)
    (hn : n ≤ row.cells.length) :
    signColumns (row.signs n) = row.cells.line.columnsBefore row.cells.length n := by
  induction n with
  | zero => rfl
  | succ n ih =>
      have hcell : row.cells[n]? = some row.cells[n] := List.getElem?_eq_getElem hn
      rw [signs_succ hcell, signColumns_append, ih (by omega), Line.columnsBefore,
        ← width_signsAt hwhole hleads hcell, signColumns, List.map_map]
      rfl

end Row

namespace Renderer

variable {r : Renderer}

/-- Plain letters are written as they are. -/
theorem Inscribes.eq_of_plain (hplain : r.plain = true) {letters : List (Style × Char)}
    {text : List Char} (h : r.Inscribes letters text) : text = letters.map Prod.snd := by
  induction h with
  | nil => rfl
  | run hrun hrest ih =>
      rw [if_pos hplain, List.nil_append, List.map_append, List.map_map, ih]
      exact congrArg (· ++ _) (List.map_id _).symm

/-- Plain rendering writes the letters of a row and nothing else. -/
theorem Writes.eq_of_plain (hplain : r.plain = true) {row : Row} {line : List Char}
    (h : r.Writes row line) : line = row.letters.map Prod.snd ++ ['\n'] := by
  obtain ⟨text, htext, rfl⟩ := h
  rw [if_pos hplain, List.append_nil, htext.eq_of_plain hplain]

/-- Plain rendering writes the letters of each row, and a line break behind them. -/
theorem render_of_plain (hplain : r.plain = true) (t : Terminal) :
    (r.render t).toList =
      t.active.rows.flatMap fun row => row.letters.map Prod.snd ++ ['\n'] := by
  obtain ⟨lines, hlines, hwritten⟩ := r.exists_lines t
  have heq : lines = t.active.rows.map fun row => row.letters.map Prod.snd ++ ['\n'] := by
    rw [← List.forall₂_eq_eq_eq, List.forall₂_map_right_iff]
    exact (List.Forall₂.imp (fun _ _ h => h.eq_of_plain hplain) hwritten).flip
  rw [hlines, heq, List.flatMap_def]

/-- **Hiding keeps the columns.**  A plain text is what the rows show, one line each.  Take a row that
is whole and in which every character takes one column or two.  Whatever is hidden in it, each slot
that leads a character and is written begins, with the character or with the blanks in its place,
behind as many columns as are counted before the slot. -/
theorem column_of_written (hplain : r.plain = true) (t : Terminal) :
    (r.render t).toList =
        t.active.rows.flatMap (fun row => row.letters.map Prod.snd ++ ['\n']) ∧
      ∀ row ∈ t.active.rows, Slots.Whole row.cells.slots → row.LeadsTakeColumns →
        ∀ i cell, i < row.usedLength → row.cells[i]? = some cell →
          row.cells.line.isStructural i = false →
          ∃ rest, row.signs row.usedLength = row.signs i ++
              (cell.style, if cell.style.has .hidden then .blank else .lead cell.char) :: rest ∧
            Row.signColumns (row.signs i) =
              row.cells.line.visualColumn i row.cells.length := by
  refine ⟨render_of_plain hplain t, fun row _ hwhole hleads i cell hi hcell hlead => ?_⟩
  have hlt : i < row.cells.length := (List.getElem?_eq_some_iff.mp hcell).1
  obtain ⟨own, hown⟩ := Row.exists_signsAt_of_lead hcell hlead
  obtain ⟨rest, hrest⟩ : ∃ rest, row.signs row.usedLength = row.signs (i + 1) ++ rest :=
    Row.signs_append hi
  refine ⟨own.map (fun sign => (cell.style, sign)) ++ rest, ?_, ?_⟩
  · rw [hrest, Row.signs_succ hcell, hown, List.map_cons, List.append_assoc, List.cons_append]
  · rw [Row.signColumns_signs hwhole hleads hlt.le, Line.visualColumn, min_eq_left hlt.le]

/-- Hidden, a wide character with a mark leaves two blanks; two pictographs that are tied together
stay in the columns behind it. -/
theorem column_of_written_hidden :
    ∃ (i : Interpreter) (row : Row) (rest : List (Style × Sign)),
      (⟨{}, Terminal.new 10 1 0⟩ : Interpreter).feedText
        "a\x1b[8m\u4E2D\u0301\x1b[0m\u231A\u200D\u2642b".toList = .ok (i, []) ∧
      row ∈ i.terminal.active.rows ∧ Slots.Whole row.cells.slots ∧ row.LeadsTakeColumns ∧
      row.cells.slots = ['a', '\u4E2D', '\u0301', wideTail, '\u231A', '\u200D', '\u2642',
        wideTail, 'b', ' '] ∧
      (render ⟨.trueColor, .standard, true⟩ i.terminal).toList =
        ['a', ' ', ' ', '\u231A', '\u200D', '\u2642', 'b', '\n'] ∧
      row.signs row.usedLength = row.signs 8 ++ ({}, .lead 'b') :: rest ∧
      Row.signColumns (row.signs 8) = row.cells.line.visualColumn 8 row.cells.length ∧
      row.cells.line.visualColumn 8 row.cells.length = 5 := by
  have hrun : ((⟨{}, Terminal.new 10 1 0⟩ : Interpreter).feedText
      "a\x1b[8m\u4E2D\u0301\x1b[0m\u231A\u200D\u2642b".toList).toOption.map (fun out =>
        (out.2, (render ⟨.trueColor, .standard, true⟩ out.1.terminal).toList)) =
      some ([], ['a', ' ', ' ', '\u231A', '\u200D', '\u2642', 'b', '\n']) := by
    decide +kernel
  have hpage : ((⟨{}, Terminal.new 10 1 0⟩ : Interpreter).feedText
      "a\x1b[8m\u4E2D\u0301\x1b[0m\u231A\u200D\u2642b".toList).toOption.map (fun out =>
        out.1.terminal.active.rows.map fun row => (row.cells.slots, row.cells[8]?,
          decide (row.LeadsTakeColumns ∧ row.usedLength = 9 ∧
            row.cells.line.isStructural 8 = false ∧
            row.cells.line.visualColumn 8 row.cells.length = 5))) =
      some [(['a', '\u4E2D', '\u0301', wideTail, '\u231A', '\u200D', '\u2642', wideTail, 'b', ' '],
        some ⟨'b', {}⟩, true)] := by
    decide +kernel
  obtain ⟨⟨i, sent⟩, hfeed, hfacts⟩ := Option.map_eq_some_iff.mp hrun
  obtain ⟨rfl, htext⟩ := Prod.mk.inj hfacts
  rw [hfeed] at hpage
  obtain ⟨row, hrow, hfacts⟩ := List.map_eq_singleton_iff.mp (Option.some.inj hpage)
  obtain ⟨hslots, hfacts⟩ := Prod.mk.inj hfacts
  obtain ⟨hcell, hfacts⟩ := Prod.mk.inj hfacts
  obtain ⟨hleads, hused, hlead, hcolumn⟩ := of_decide_eq_true hfacts
  have hmem : row ∈ i.terminal.active.rows := by
    rw [hrow]
    exact List.mem_cons_self
  have hwhole : Slots.Whole row.cells.slots := by
    rw [hslots]
    exact Slots.whole_iff_accepts.mpr ⟨.narrow, by decide +kernel, by decide⟩
  obtain ⟨rest, hsigns, hcolumns⟩ :=
    (column_of_written (r := ⟨.trueColor, .standard, true⟩) rfl i.terminal).2 row hmem hwhole
      hleads 8 ⟨'b', {}⟩ (by omega) hcell hlead
  exact ⟨i, row, rest, Terminal.eq_ok_of_toOption hfeed, hmem, hwhole, hleads, hslots, htext, hsigns,
    hcolumns, hcolumn⟩

end Renderer

end VideoTerminal
