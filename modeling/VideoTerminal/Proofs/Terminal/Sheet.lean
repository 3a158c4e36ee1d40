import VideoTerminal.Proofs.Screen.Composed
import VideoTerminal.Proofs.Screen.Cut
import VideoTerminal.Proofs.Screen.History
import VideoTerminal.Proofs.Terminal.Layout
import VideoTerminal.Proofs.Terminal.Print
import VideoTerminal.Proofs.Terminal.Steps

/-!
# A terminal as a sheet that is written from top to bottom

As long as text is only printed, lines are ended and styles are changed, nothing above the cursor's
row is touched again and nothing stands behind the cursor.  What such a terminal shows comes from a
`Sheet`: the complete rows and the cells in front of the cursor.  The screen shows the last rows of
the sheet (`Sheet.screen`), and what is printed on it is printed on the sheet (`Sheet.put`).

`Displays.putChar` says so for any character and any size of the screen: the terminal goes on
displaying the sheet, or columns are counted beyond the greatest coordinate.
-/

namespace VideoTerminal

/-- A character that begins a new one takes columns. -/
theorem pos_of_extendsPrevious_eq_false {c : Char} {w : Nat} {prev : Option Char}
    (hwidth : Text.columns? c = some w) (hext : extendsPrevious prev c = false) : 0 < w := by
  refine Nat.pos_of_ne_zero ?_
  rintro rfl
  rw [extendsPrevious_of_columns?_eq_zero hwidth] at hext
  cases hext

/-- What has been written so far: complete rows, and the cells in front of the cursor. -/
structure Sheet where
  past : List Cells := []
  front : Cells := []
  /-- Style of newly printed text. -/
  style : Style := .empty

namespace Sheet

variable (cols : Nat) (s : Sheet)

/-- Ends the line. -/
def newLine : Sheet := { s with past := s.past ++ [s.front.pad cols], front := [] }

/-- Puts a mark to the last character, which leaves a full row with it unless it fills that row. -/
def attach (c : Char) : Sheet :=
  if s.front.length < cols then { s with front := s.front.mark c s.style }
  else
    let start := Terminal.lastClusterStart s.front (cols - 1)
    if start = 0 then s
    else
      { s with
        past := s.past ++ [s.front.take start ++ List.replicate (cols - start) (Cell.blank s.style)]
        front := Cells.mark (s.front.drop start) c s.style }

/-- Prints a character. -/
def put (c : Char) : Sheet :=
  match Text.columns? c with
  | none => s
  | some w =>
    if extendsPrevious (Slots.scalarBefore s.front.slots) c then s.attach cols c
    else if cols < w then s
    else if cols < s.front.length + w then
      { s.newLine cols with front := Cells.glyph c s.style }
    else { s with front := s.front ++ Cells.glyph c s.style }

/-- A character that begins a new one is not counted beyond the greatest coordinate. -/
def countable (c : Char) : Bool :=
  extendsPrevious (Slots.scalarBefore s.front.slots) c ||
    (Text.columns? c).all fun w => decide (w ≤ cols → s.front.length + w ≤ maxCoordinate)

/-- The rows of a screen that shows the end of the sheet. -/
def screen (rows : Nat) : List Cells :=
  s.past.rtake (rows - 1) ++
    s.front.pad cols :: List.replicate (rows - 1 - s.past.length) (Cells.pad cols [])

/-- The last rows are as many as asked for, or as there are. -/
theorem length_rtake {α : Type} (l : List α) (n : Nat) : (l.rtake n).length = min l.length n := by
  rw [List.rtake, List.length_drop]
  omega

/-- The last rows are rows. -/
theorem mem_of_mem_rtake {α : Type} {l : List α} {n : Nat} {x : α} (h : x ∈ l.rtake n) : x ∈ l :=
  List.mem_of_mem_drop h

/-- What rows a screen has. -/
theorem mem_screen {cols rows : Nat} {s : Sheet} {line : Cells} (h : line ∈ s.screen cols rows) :
    line ∈ s.past ∨ line = s.front.pad cols ∨ line = Cells.pad cols [] := by
  unfold screen at h
  rcases List.mem_append.mp h with hold | hnew
  · exact .inl (mem_of_mem_rtake hold)
  · exact .inr ((List.mem_cons.mp hnew).imp_right List.eq_of_mem_replicate)

/-- One row more, while the screen has room. -/
theorem screen_of_lt {rows : Nat} (line : Cells) (h : s.past.length + 1 < rows) :
    ({ s with past := s.past ++ [line], front := [] } : Sheet).screen cols rows =
      s.past ++ line :: List.replicate (rows - 1 - s.past.length) (Cells.pad cols []) := by
  obtain ⟨k, hk⟩ : ∃ k, rows - 1 - s.past.length = k + 1 := ⟨rows - s.past.length - 2, by omega⟩
  have hrest : rows - 1 - (s.past ++ [line]).length = k := by
    rw [List.length_append, List.length_singleton]
    omega
  unfold screen
  dsimp only
  rw [rtake_of_length_le (by simp; omega), hrest, hk, List.replicate_succ]
  simp

/-- Afterwards the top row goes. -/
theorem screen_of_le {rows : Nat} (line : Cells) (hpos : 0 < rows) (h : rows ≤ s.past.length + 1) :
    ({ s with past := s.past ++ [line], front := [] } : Sheet).screen cols rows =
      (s.past.rtake (rows - 1) ++ [line]).tail ++ [Cells.pad cols []] := by
  have hlen := length_rtake s.past (rows - 1)
  have hrest : rows - 1 - (s.past ++ [line]).length = 0 := by
    rw [List.length_append, List.length_singleton]
    omega
  unfold screen
  dsimp only
  rw [hrest, ← rtake_append, List.rtake, List.length_append, List.length_singleton,
    ← List.drop_one, List.replicate_zero]
  congr 2
  omega

section Countable

variable {cols : Nat} {s : Sheet} {c : Char} {w : Nat}

/-- A character that can be counted ends at a column that can be counted. -/
theorem le_of_countable (h : s.countable cols c = true) (hwidth : Text.columns? c = some w)
    (hext : extendsPrevious (Slots.scalarBefore s.front.slots) c = false) (hfit : w ≤ cols) :
    s.front.length + w ≤ maxCoordinate := by
  simpa [countable, hext, hwidth, hfit] using h

/-- A character that can not be counted begins a new one and ends too far. -/
theorem exists_of_not_countable (h : s.countable cols c = false) :
    ∃ w, Text.columns? c = some w ∧ extendsPrevious (Slots.scalarBefore s.front.slots) c = false ∧
      w ≤ cols ∧ maxCoordinate < s.front.length + w := by
  unfold countable at h
  obtain ⟨hext, hall⟩ := Bool.or_eq_false_iff.mp h
  cases hwidth : Text.columns? c with
  | none =>
      rw [hwidth] at hall
      cases hall
  | some w =>
      rw [hwidth, Option.all_some, decide_eq_false_iff_not, Classical.not_imp] at hall
      exact ⟨w, rfl, hext, hall.1, Nat.not_le.mp hall.2⟩

/-- Where a whole row can be counted, so can a character that fits on it. -/
theorem countable_of_le (hcols : cols ≤ maxCoordinate) (hwidth : Text.columns? c = some w)
    (hfit : s.front.length + w ≤ cols) : s.countable cols c = true := by
  have hle := Nat.le_trans hfit hcols
  simp [countable, hwidth, hle]

/-- A mark takes no column to be counted. -/
theorem countable_of_extendsPrevious
    (h : extendsPrevious (Slots.scalarBefore s.front.slots) c = true) :
    s.countable cols c = true := by
  rw [countable, h, Bool.true_or]

end Countable

/-! ## Composed sheets -/

/-- The search for the last character ends at one, or at the start of the row. -/
theorem lastClusterStart_spec (cells : Cells) (i : Nat) :
    Terminal.lastClusterStart cells i = 0 ∨
      cells.isAttached (Terminal.lastClusterStart cells i) = false := by
  induction i with
  | zero => exact .inl rfl
  | succ i ih =>
      unfold Terminal.lastClusterStart
      split
      · exact ih
      · next h =>
        rw [Bool.or_eq_true, not_or] at h
        exact .inr (Bool.eq_false_iff.mpr h.2)

/-- All rows are full and come from printing, and so do the cells in front of the cursor. -/
structure Composed : Prop where
  past : ∀ line ∈ s.past, Cells.Composed line ∧ line.length = cols
  front : Cells.Composed s.front
  fits : s.front.length ≤ cols

variable {cols : Nat} {s : Sheet}

/-- An empty sheet is composed. -/
theorem composed_empty (cols : Nat) : ({} : Sheet).Composed cols where
  past := by simp
  front := .nil
  fits := Nat.zero_le cols

namespace Composed

theorem push (h : s.Composed cols) {line front : Cells} (hline : Cells.Composed line)
    (hlen : line.length = cols) (hfront : Cells.Composed front) (hfits : front.length ≤ cols) :
    ({ s with past := s.past ++ [line], front := front } : Sheet).Composed cols where
  past := List.forall_mem_append.mpr ⟨h.past, List.forall_mem_singleton.mpr ⟨hline, hlen⟩⟩
  front := hfront
  fits := hfits

/-- A line may be ended. -/
theorem newLine (h : s.Composed cols) : (s.newLine cols).Composed cols :=
  h.push (h.front.append_replicate _ _) (Cells.length_pad h.fits) .nil (Nat.zero_le cols)

theorem restyle (h : s.Composed cols) (style : Style) :
    ({ s with style := style } : Sheet).Composed cols := ⟨h.past, h.front, h.fits⟩

theorem withFront (h : s.Composed cols) {front : Cells} (hfront : Cells.Composed front)
    (hfits : front.length ≤ cols) : ({ s with front := front } : Sheet).Composed cols :=
  ⟨h.past, hfront, hfits⟩

/-- A mark may be attached, and take its character to the next row. -/
theorem attach (h : s.Composed cols) {c : Char} (hwidth : (Text.columns? c).isSome)
    (hc : c ≠ wideTail) (hext : extendsPrevious (Slots.scalarBefore s.front.slots) c = true) :
    (s.attach cols c).Composed cols := by
  have hfits := h.fits
  unfold Sheet.attach
  split
  · next hroom =>
    exact h.withFront (h.front.mark s.style hwidth hc hext) (by rw [Cells.length_mark]; exact hroom)
  · next hfull =>
    dsimp only
    have hspec := lastClusterStart_spec s.front (cols - 1)
    have hle := Terminal.lastClusterStart_le s.front (cols - 1)
    generalize Terminal.lastClusterStart s.front (cols - 1) = start at hspec hle
    split
    · exact h
    · next hpos =>
      obtain ⟨hbefore, hmoved, hscalar⟩ := h.front.cut (by omega) (hspec.resolve_left hpos)
      refine h.push (hbefore.append_replicate _ _) ?_ ?_ ?_
      · rw [List.length_append, List.length_take, List.length_replicate]
        omega
      · exact hmoved.mark s.style hwidth hc (by rw [hscalar]; exact hext)
      · rw [Cells.length_mark, List.length_drop]
        omega

/-- Every row of the screen comes from printing. -/
theorem of_mem_screen (h : s.Composed cols) {rows : Nat} {line : Cells}
    (hline : line ∈ s.screen cols rows) : Cells.Composed line ∧ line.length = cols := by
  rcases mem_screen hline with hold | rfl | rfl
  · exact h.past line hold
  · exact ⟨h.front.append_replicate _ _, Cells.length_pad h.fits⟩
  · exact ⟨Cells.Composed.nil.append_replicate _ _, Cells.length_pad (Nat.zero_le cols)⟩

/-- Printing composes, unless it is a wide tail that is printed. -/
theorem put (h : s.Composed cols) {c : Char} (hc : c ≠ wideTail) :
    (s.put cols c).Composed cols := by
  unfold Sheet.put
  cases hwidth : Text.columns? c with
  | none => exact h
  | some w =>
      have hsome : (Text.columns? c).isSome := Option.isSome_iff_exists.mpr ⟨w, hwidth⟩
      dsimp only
      cases hext : extendsPrevious (Slots.scalarBefore s.front.slots) c with
      | true => exact h.attach hsome hc hext
      | false =>
          have hpos := pos_of_extendsPrevious_eq_false hwidth hext
          have hlen := Cells.length_glyph hwidth hpos s.style
          rw [if_neg Bool.false_ne_true]
          split
          · exact h
          · next hfit =>
            split
            · -- At the start of the next row.
              have hfirst : Cells.Composed ([] ++ Cells.glyph c s.style) :=
                Cells.Composed.nil.glyph s.style hsome
                  (extendsPrevious_eq_false_of_ne hext (by simp [Slots.scalarBefore_nil]))
              exact h.newLine.withFront hfirst (by rw [hlen]; omega)
            · next hroom =>
              refine h.withFront (h.front.glyph s.style hsome hext) ?_
              rw [List.length_append, hlen]
              omega

end Composed

end Sheet

namespace Terminal

/-- The terminal shows a sheet: its screen and its cursor are where the sheet ends, and its history
keeps rows of it. -/
structure Displays (t : Terminal) (cols limit : Nat) (s : Sheet) : Prop where
  plain : t.Plain cols limit
  rows_pos : 0 < t.rows
  style_eq : t.style = s.style
  fits : s.front.length ≤ cols
  cells_eq : t.active.rows.map Row.cells = s.screen cols t.rows
  row_eq : t.cursor.row = min s.past.length (t.rows - 1)
  col_eq : t.cursor.col = s.front.length
  history : ∀ r ∈ t.active.scrollback.toList, r.cells ∈ s.past

/-- The cells of the row in which the cursor stands. -/
def cursorCells? (t : Terminal) : Option Cells := t.active.rows[t.cursor.row]?.map Row.cells

namespace Displays

variable {t t' : Terminal} {cols limit : Nat} {s : Sheet}

/-- A fresh terminal shows an empty sheet. -/
theorem new {rows : Nat} (h : 1 ≤ rows) :
    (Terminal.new cols rows limit).Displays cols limit {} where
  plain := (Shows.new h).plain
  rows_pos := h
  style_eq := rfl
  fits := Nat.zero_le cols
  cells_eq := by
    obtain ⟨k, rfl⟩ := Nat.exists_eq_add_of_le' h
    change (List.replicate (k + 1) (Row.new cols)).map Row.cells = _
    rw [List.map_replicate, List.replicate_succ, Sheet.screen]
    simp [Row.new, Cells.pad_nil, Terminal.new]
  row_eq := (Nat.zero_min _).symm
  col_eq := rfl
  history := by simp [Terminal.new, active, Page.new]

/-- The row of the cursor shows the cells in front of it. -/
theorem getElem?_cells (h : t.Displays cols limit s) :
    (s.screen cols t.rows)[t.cursor.row]? = some (s.front.pad cols) := by
  unfold Sheet.screen
  rw [h.row_eq, List.getElem?_append_right (by rw [Sheet.length_rtake]), Sheet.length_rtake,
    Nat.sub_self]
  rfl

/-- In the row of the cursor the rest is blank. -/
theorem cursorCells?_eq (h : t.Displays cols limit s) :
    t.cursorCells? = some (s.front.pad cols) := by
  have hrow := h.getElem?_cells
  rw [← h.cells_eq, List.getElem?_map] at hrow
  exact hrow

/-- The cursor stands in a row. -/
theorem exists_cursorRow (h : t.Displays cols limit s) :
    ∃ r, t.active.rows[t.cursor.row]? = some r ∧ r.cells = s.front.pad cols :=
  Option.map_eq_some_iff.mp h.cursorCells?_eq

/-- What is shown is there to be attached to. -/
theorem previousScalar?_eq (h : t.Displays cols limit s) :
    t.previousScalar? = Slots.scalarBefore s.front.slots := by
  obtain ⟨r, hr, hcells⟩ := h.exists_cursorRow
  have hrow : t.grid[t.cursor.row]? =
      some (s.front.slots ++ List.replicate (cols - s.front.length) ' ') :=
    getElem?_grid_eq_some_iff.mpr ⟨r, hr, by rw [hcells, Cells.slots_pad]⟩
  exact Terminal.previousScalar?_eq hrow (by rw [h.col_eq, Cells.length_slots])

/-- Another row in the place of the cursor's. -/
theorem map_cells_of_retouched (h : t.Displays cols limit s) (ht : t.Retouched t') {line : Cells}
    (hline : t'.cursorCells? = some line) :
    t'.active.rows.map Row.cells = s.past.rtake (t.rows - 1) ++
      line :: List.replicate (t.rows - 1 - s.past.length) (Cells.pad cols []) := by
  obtain ⟨edit, hrows⟩ := ht.active.rows_eq
  obtain ⟨r, hr, -⟩ := h.exists_cursorRow
  have hlt := (List.getElem?_eq_some_iff.mp hr).1
  have hset : t'.active.rows = t.active.rows.set t.cursor.row (edit r) := by
    rw [hrows, List.modify_eq_set_getElem?, ← cursor, hr]
    rfl
  have hedit : (edit r).cells = line := by
    rw [cursorCells?, ht.row_eq, hset, List.getElem?_set_self hlt] at hline
    exact Option.some.inj hline
  rw [hset, List.map_set, h.cells_eq, hedit, Sheet.screen, h.row_eq,
    List.set_append_right _ _ (by rw [Sheet.length_rtake]), Sheet.length_rtake, Nat.sub_self,
    List.set_cons_zero]

/-- Work on the cursor's row leaves the modes and the size. -/
theorem plain_of_retouched (h : t.Displays cols limit s) (ht : t.Retouched t') :
    t'.Plain cols limit := by
  obtain ⟨edit, hrows⟩ := ht.active.rows_eq
  rw [ht.frame]
  refine h.plain.modifyActive ?_ ht.active.limit_eq
  rw [hrows, List.length_modify]

theorem rows_of_retouched (ht : t.Retouched t') : t'.rows = t.rows := by
  rw [ht.frame, rows_modifyActive]

theorem style_of_retouched (ht : t.Retouched t') : t'.style = t.style := by
  rw [ht.frame, style_modifyActive]

/-- Other cells in front of the cursor. -/
theorem retouched (h : t.Displays cols limit s) (ht : t.Retouched t') {front : Cells}
    (hrow : t'.cursorCells? = some (front.pad cols)) (hcol : t'.cursor.col = front.length)
    (hfits : front.length ≤ cols) : t'.Displays cols limit { s with front := front } where
  plain := h.plain_of_retouched ht
  rows_pos := rows_of_retouched ht ▸ h.rows_pos
  style_eq := (style_of_retouched ht).trans h.style_eq
  fits := hfits
  cells_eq := by
    rw [h.map_cells_of_retouched ht hrow, rows_of_retouched ht]
    rfl
  row_eq := by rw [ht.row_eq, h.row_eq, rows_of_retouched ht]
  col_eq := hcol
  history := by
    rw [ht.active.scrollback_eq]
    exact h.history

/-- The history has rows it had, and the new one. -/
theorem mem_scrollback_pushScrollback {p : Page} {r x : Row}
    (h : x ∈ (p.pushScrollback r).scrollback.toList) : x ∈ p.scrollback.toList ∨ x = r := by
  unfold Page.pushScrollback at h
  split at h
  · exact .inl h
  · dsimp only at h
    rw [Array.toList_push, List.mem_append, List.mem_singleton] at h
    refine h.imp_left fun hx => ?_
    split at hx
    · rw [Array.toList_extract, List.extract_eq_take_drop] at hx
      exact List.mem_of_mem_drop (List.mem_of_mem_take hx)
    · exact hx

/-- Going down a row from its start completes the row. -/
theorem index (h : t.Displays cols limit s) (ht : t.Retouched t') {line : Cells}
    (hline : t'.cursorCells? = some line) (hcol : t'.cursor.col = 0) :
    t'.index.Displays cols limit { s with past := s.past ++ [line], front := [] } := by
  have hplain := h.plain_of_retouched ht
  have hcells := h.map_cells_of_retouched ht hline
  have hrows := rows_of_retouched ht
  have hpos := h.rows_pos
  have hrow : t'.cursor.row = min s.past.length (t'.rows - 1) := by
    rw [ht.row_eq, h.row_eq, hrows]
  have hhistory : ∀ r ∈ t'.active.scrollback.toList, r.cells ∈ s.past ++ [line] := by
    rw [ht.active.scrollback_eq]
    exact fun r hr => List.mem_append_left _ (h.history r hr)
  by_cases hbottom : t'.cursor.row + 1 = t'.rows
  · -- The screen scrolls.
    obtain ⟨r, rest, hsplit, hindex⟩ := hplain.exists_index_eq hbottom
    have hnone : t.rows - 1 - s.past.length = 0 := by omega
    rw [hsplit, hnone, List.replicate_zero, List.map_cons] at hcells
    have hrest := congrArg List.tail hcells
    rw [List.tail_cons] at hrest
    rw [hindex]
    refine ⟨hplain.modifyActive ?_ ?_, ?_, ?_, Nat.zero_le cols, ?_, ?_, ?_, ?_⟩
    · simp [Page.markAllDirty, hsplit]
    · exact Page.scrollbackLimit_pushScrollback _ r
    · rw [rows_modifyActive, hrows]
      exact hpos
    · rw [style_modifyActive, style_of_retouched ht]
      exact h.style_eq
    · rw [active_modifyActive, rows_modifyActive,
        Sheet.screen_of_le cols s line (by omega) (by omega), hrows, ← hrest]
      change (rest ++ [Row.new cols]).map Row.cells = _
      rw [List.map_append]
      rfl
    · rw [cursor_modifyActive, rows_modifyActive, List.length_append, List.length_singleton]
      change (t'.active.pushScrollback r).cursor.row = _
      rw [Page.cursor_pushScrollback, ← cursor]
      omega
    · rw [cursor_modifyActive]
      change (t'.active.pushScrollback r).cursor.col = _
      rw [Page.cursor_pushScrollback, ← cursor, hcol]
      rfl
    · rw [active_modifyActive]
      intro x hx
      rcases mem_scrollback_pushScrollback hx with hx | rfl
      · exact hhistory x hx
      · have hmem : x.cells ∈ s.past.rtake (t.rows - 1) ++ [line] := by
          rw [← hcells]
          exact List.mem_cons_self
        rcases List.mem_append.mp hmem with hmem | hmem
        · exact List.mem_append_left _ (Sheet.mem_of_mem_rtake hmem)
        · exact List.mem_append_right _ hmem
  · have hlt : s.past.length + 1 < t'.rows := by omega
    rw [hplain.index_of_lt (by omega)]
    refine ⟨hplain.modifyActive rfl rfl, ?_, ?_, Nat.zero_le cols, ?_, ?_, ?_, ?_⟩
    · rw [rows_modifyActive, hrows]
      exact hpos
    · rw [style_modifyActive, style_of_retouched ht]
      exact h.style_eq
    · rw [active_modifyActive, rows_modifyActive, Sheet.screen_of_lt cols s line hlt]
      change t'.active.rows.map Row.cells = _
      rw [hcells, rtake_of_length_le (by omega), hrows]
    · rw [cursor_modifyActive, rows_modifyActive, List.length_append, List.length_singleton]
      change t'.cursor.row + 1 = _
      omega
    · rw [cursor_modifyActive]
      exact hcol
    · rw [active_modifyActive]
      exact hhistory

/-! ## Ending a line -/

/-- A change of the cursor's row, seen in its cells. -/
theorem cursorCells?_modifyActive {f : Page → Page} {g : Row → Row} {r : Row}
    (hr : t.active.rows[t.cursor.row]? = some r)
    (hrows : (f t.active).rows = t.active.rows.modify t.cursor.row g)
    (hrow : (f t.active).cursor.row = t.cursor.row) :
    (t.modifyActive f).cursorCells? = some (g r).cells := by
  rw [cursorCells?, getElem?_cursorRow_modifyActive hr hrows hrow]
  rfl

/-- Moving in the row leaves its cells. -/
theorem cursorCells?_moveToCol (t : Terminal) (col : Nat) :
    (t.modifyActive fun p => p.moveToCol col).cursorCells? = t.cursorCells? := by
  rw [cursorCells?, active_modifyActive, cursor_modifyActive]
  rfl

/-- **A line is ended** by a carriage return and a line feed. -/
theorem lineFeed_carriageReturn (h : t.Displays cols limit s) :
    t.carriageReturn.lineFeed.Displays cols limit (s.newLine cols) := by
  have hreturned := t.retouched_carriageReturn
  have hcells : t.carriageReturn.cursorCells? = some (s.front.pad cols) := by
    rw [← h.cursorCells?_eq, carriageReturn, cursorCells?, active_modifyActive,
      cursor_modifyActive]
    rfl
  have hcol : t.carriageReturn.cursor.col = 0 := by
    rw [carriageReturn, cursor_modifyActive]
    rfl
  unfold lineFeed
  split
  · refine h.index (hreturned.trans (t.carriageReturn.retouched_moveToCol 0)) ?_ ?_
    · rw [cursorCells?_moveToCol, hcells]
    · rw [cursor_modifyActive]
      rfl
  · exact h.index hreturned hcells hcol

/-- Wrapping ends the line. -/
theorem exists_wrapRow (h : t.Displays cols limit s) :
    ∃ t', t.wrapRow = .ok t' ∧ t'.Displays cols limit (s.newLine cols) := by
  obtain ⟨r, hr, hcells⟩ := h.exists_cursorRow
  refine ⟨t.wrapping.index, if_pos (List.getElem?_eq_some_iff.mp hr).1, ?_⟩
  refine h.index (retouched_modifyActive ⟨⟨_, rfl⟩, ⟨0, rfl⟩, rfl, rfl⟩) ?_ ?_
  · rw [← hcells]
    exact cursorCells?_modifyActive (g := fun r => { r with wrapped := true }) hr rfl rfl
  · exact congrArg Cursor.col (cursor_modifyActive t _)

/-! ## Printing -/

/-- Putting a mark behind the cells. -/
theorem exists_attachHere (h : t.Displays cols limit s) (hroom : s.front.length < cols) (c : Char) :
    ∃ t', t.attachHere c = .ok t' ∧
      t'.Displays cols limit { s with front := s.front.mark c s.style } := by
  obtain ⟨r, hr, hcells⟩ := h.exists_cursorRow
  have hlen : r.cells.length = cols := by rw [hcells, Cells.length_pad h.fits]
  have hok := attachHere_eq hr (by rw [hlen, h.col_eq]; exact hroom) c
  refine ⟨_, hok, h.retouched (retouched_of_attachHere hok) ?_ ?_ ?_⟩
  · rw [cursorCells?_modifyActive (g := fun r' =>
      { r' with cells := Cells.attach r.cells t.cursor.col c t.style }) hr rfl rfl]
    dsimp only
    rw [hcells, h.col_eq, h.style_eq, Cells.attach_pad hroom]
  · rw [cursor_modifyActive, Cells.length_mark, ← h.col_eq]
    rfl
  · rw [Cells.length_mark]
    exact hroom

/-- Nothing is covered where a character is to be written. -/
theorem exists_releaseCovered (h : t.Displays cols limit s) (w : Nat) :
    ∃ t', t.releaseCovered t.cursor.row t.cursor.col w = .ok t' ∧ t'.Displays cols limit s := by
  obtain ⟨r, hr, hcells⟩ := h.exists_cursorRow
  have hok : t.releaseCovered t.cursor.row t.cursor.col w = .ok (t.modifyActive fun p =>
      p.modifyRow t.cursor.row fun r' =>
        { r' with cells := Cells.releaseCovered r'.cells t.cursor.col w t.blank }) :=
    if_pos (List.getElem?_eq_some_iff.mp hr).1
  refine ⟨_, hok, h.retouched (retouched_of_releaseCovered hok) ?_ ?_ h.fits⟩
  · rw [cursorCells?_modifyActive (g := fun r' =>
      { r' with cells := Cells.releaseCovered r'.cells t.cursor.col w t.blank }) hr rfl rfl]
    dsimp only
    rw [hcells, h.col_eq, Cells.releaseCovered_pad]
  · rw [cursor_modifyActive]
    exact h.col_eq

/-- A character is written behind those in front of the cursor. -/
theorem exists_writeHere (h : t.Displays cols limit s) {c : Char} {w : Nat}
    (hwidth : Text.columns? c = some w) (hpos : 0 < w) (hfit : s.front.length + w ≤ cols) :
    ∃ t', t.writeHere c w = .ok t' ∧
      t'.Displays cols limit { s with front := s.front ++ Cells.glyph c s.style } := by
  obtain ⟨r, hr, hcells⟩ := h.exists_cursorRow
  have hlen : r.cells.length = cols := by rw [hcells, Cells.length_pad h.fits]
  have hcol := h.col_eq
  have hok : t.writeHere c w = .ok (t.modifyActive fun p =>
      ((p.modifyRow t.cursor.row fun r' =>
        { r' with cells := Cells.overwrite r.cells t.cursor.col c w t.style }).markDirty
          t.cursor.row).moveToCol (t.cursor.col + w)) := by
    simp only [writeHere, hr]
    rw [if_neg (by omega), if_neg (by omega)]
    rfl
  have hlength : (s.front ++ Cells.glyph c s.style).length = s.front.length + w := by
    rw [List.length_append, Cells.length_glyph hwidth hpos]
  refine ⟨_, hok, h.retouched (retouched_of_writeHere hok) ?_ ?_ ?_⟩
  · rw [cursorCells?_modifyActive (g := fun r' =>
      { r' with cells := Cells.overwrite r.cells t.cursor.col c w t.style }) hr rfl rfl]
    dsimp only
    rw [hcells, hcol, h.style_eq, Cells.overwrite_pad hwidth hpos hfit]
  · rw [cursor_modifyActive, hlength, ← hcol]
    rfl
  · rw [hlength]
    exact hfit

/-- A character is written over blanks, of which none needs to be released. -/
theorem exists_overwrite (h : t.Displays cols limit s) {c : Char} {w : Nat}
    (hwidth : Text.columns? c = some w) (hpos : 0 < w) (hfit : s.front.length + w ≤ cols) :
    ∃ t', (t.releaseCovered t.cursor.row t.cursor.col w >>= fun released =>
        released.writeHere c w) = .ok t' ∧
      t'.Displays cols limit { s with front := s.front ++ Cells.glyph c s.style } := by
  obtain ⟨released, hok, hreleased⟩ := h.exists_releaseCovered w
  obtain ⟨t', hwrite, ht'⟩ := hreleased.exists_writeHere hwidth hpos hfit
  exact ⟨t', by rw [hok]; exact hwrite, ht'⟩

/-- Behind a full row, its last character goes to the next row unless it fills this one. -/
theorem exists_wrapLastCluster (h : t.Displays cols limit s) (hfull : s.front.length = cols)
    {start : Nat} (hstart : lastClusterStart s.front (cols - 1) = start) :
    (start = 0 ∧ t.wrapLastCluster = .ok none) ∨
      (0 < start ∧ start < cols ∧ ∃ t', t.wrapLastCluster = .ok (some t') ∧
        t'.Displays cols limit { s with
          past := s.past ++
            [s.front.take start ++ List.replicate (cols - start) (Cell.blank s.style)]
          front := s.front.drop start }) := by
  obtain ⟨r, hr, hcells⟩ := h.exists_cursorRow
  rw [Cells.pad_eq s.front (n := 0) hfull, List.replicate_zero, List.append_nil] at hcells
  have hlen : r.cells.length = cols := by rw [hcells, hfull]
  have hle := lastClusterStart_le s.front (cols - 1)
  rw [hstart] at hle
  have hsplit : r.cells = s.front.take start ++ s.front.drop start ++ [] := by
    rw [List.append_nil, List.take_append_drop, hcells]
  unfold wrapLastCluster
  simp only [hr, h.plain.cols_eq, hlen, Nat.min_self]
  rw [hcells, hstart]
  by_cases hzero : start = 0
  · rw [if_pos hzero]
    exact .inl ⟨hzero, rfl⟩
  · rw [if_neg hzero]
    refine .inr ⟨Nat.pos_of_ne_zero hzero, by omega, ?_⟩
    -- The row without its last character.
    obtain ⟨emptied, hemptied⟩ : ∃ emptied, (t.modifyActive fun p =>
        ((p.modifyRow t.cursor.row fun r =>
          ⟨Cells.fill r.cells start cols t.blank, true⟩).markDirty t.cursor.row).moveToCol 0) =
        emptied := ⟨_, rfl⟩
    have hretouched : t.Retouched emptied := by
      rw [← hemptied]
      exact retouched_modifyActive (.write _ _ _ _)
    have hline : emptied.cursorCells? = some
        (s.front.take start ++ List.replicate (cols - start) (Cell.blank s.style)) := by
      have hfill := Cells.fill_append (s.front.take start) (s.front.drop start) [] t.blank
      rw [← hsplit, List.length_take, List.length_drop, hfull, Nat.min_eq_left (by omega),
        Nat.add_sub_cancel' (by omega), List.append_nil] at hfill
      rw [← hemptied, cursorCells?_modifyActive (g := fun r =>
        ⟨Cells.fill r.cells start cols t.blank, true⟩) hr rfl rfl]
      dsimp only
      rw [hfill, blank, h.style_eq]
    have hbelow := h.index hretouched hline (by rw [← hemptied, cursor_modifyActive]; rfl)
    obtain ⟨released, hrelease, hreleased⟩ :=
      hbelow.exists_releaseCovered (s.front.drop start).length
    have hcol : emptied.index.cursor.col = 0 := hbelow.col_eq
    rw [hcol] at hrelease
    -- On the next row it is put over untouched cells.
    have hrow : released.cursor.row = emptied.index.cursor.row :=
      (retouched_of_releaseCovered hrelease).row_eq
    obtain ⟨r', hr', hcells'⟩ := hreleased.exists_cursorRow
    have hmoved : (s.front.drop start).length ≤ cols := by
      rw [List.length_drop]
      omega
    have hplaced : released.Retouched (released.modifyActive fun p =>
        ((p.modifyRow released.cursor.row fun r =>
          { r with cells := (s.front.drop start).take r.cells.length ++
            r.cells.drop (s.front.drop start).length }).markDirty
          released.cursor.row).moveToCol (s.front.drop start).length) :=
      retouched_modifyActive (.write _ _ _ _)
    rw [hemptied, List.take_of_length_le h.fits, hrelease, ← hrow]
    refine ⟨_, rfl, hreleased.retouched hplaced ?_ ?_ hmoved⟩
    · rw [cursorCells?_modifyActive (g := fun r =>
        { r with cells := (s.front.drop start).take r.cells.length ++
          r.cells.drop (s.front.drop start).length }) hr' rfl rfl]
      dsimp only
      rw [hcells', Cells.pad_nil, List.length_replicate, List.take_of_length_le hmoved,
        List.drop_replicate]
      rfl
    · rw [cursor_modifyActive]
      rfl

/-- **Printing a mark.** -/
theorem exists_attach (h : t.Displays cols limit s) (c : Char) :
    ∃ t', t.attach c = .ok t' ∧ t'.Displays cols limit (s.attach cols c) := by
  have hrow : ¬ t.active.rows.length ≤ t.cursor.row := by
    obtain ⟨r, hr, -⟩ := h.exists_cursorRow
    exact Nat.not_le.mpr (List.getElem?_eq_some_iff.mp hr).1
  unfold attach Sheet.attach
  rw [if_neg hrow, h.plain.cols_eq, h.col_eq]
  by_cases hroom : s.front.length < cols
  · rw [if_pos hroom, if_neg (Nat.not_le.mpr hroom)]
    exact h.exists_attachHere hroom c
  · rw [if_neg hroom, if_pos (Nat.not_lt.mp hroom), if_pos h.plain.autoWrap]
    dsimp only
    have hfull : s.front.length = cols := Nat.le_antisymm h.fits (Nat.not_lt.mp hroom)
    generalize hstart : lastClusterStart s.front (cols - 1) = start
    rcases h.exists_wrapLastCluster hfull hstart with ⟨rfl, hok⟩ | ⟨hpos, hlt, t', hok, ht'⟩
    · rw [if_pos rfl, hok]
      exact ⟨t, rfl, h⟩
    · rw [if_neg (Nat.ne_of_gt hpos), hok]
      exact ht'.exists_attachHere (by simp; omega) c

/-- **Printing a character**, if it is not counted too far. -/
theorem exists_putChar_of_countable (h : t.Displays cols limit s) {c : Char}
    (hcount : s.countable cols c = true) :
    ∃ t', t.putChar c = .ok t' ∧ t'.Displays cols limit (s.put cols c) := by
  have hprevious := h.previousScalar?_eq
  have hcols := h.plain.cols_eq
  have hcol := h.col_eq
  have hfits := h.fits
  unfold Sheet.put
  cases hwidth : Text.columns? c with
  | none => exact ⟨t, by rw [putChar_eq, hwidth]; rfl, h⟩
  | some w =>
      dsimp only
      cases hext : extendsPrevious (Slots.scalarBefore s.front.slots) c with
      | true =>
          rw [putChar_of_attached hwidth (hprevious ▸ hext)]
          exact h.exists_attach c
      | false =>
          have hlead : extendsPrevious t.previousScalar? c = false := hprevious ▸ hext
          have hpos := pos_of_extendsPrevious_eq_false hwidth hext
          rw [if_neg Bool.false_ne_true]
          by_cases hwide : cols < w
          · rw [if_pos hwide]
            exact ⟨t, putChar_of_lt hwidth hlead (hcols ▸ hwide), h⟩
          · rw [if_neg hwide]
            have hfit : w ≤ t.cols := hcols ▸ Nat.not_lt.mp hwide
            have hmax : t.cursor.col + w ≤ maxCoordinate := by
              rw [hcol]
              exact Sheet.le_of_countable hcount hwidth hext (Nat.not_lt.mp hwide)
            have hroom := makeRoom_of_le hmax
            by_cases hover : cols < s.front.length + w
            · rw [if_pos hover]
              rw [if_pos (by omega), if_pos h.plain.autoWrap] at hroom
              obtain ⟨roomy, hwrap, hroomy⟩ := h.exists_wrapRow
              rw [hwrap] at hroom
              obtain ⟨t', hok, ht'⟩ := hroomy.exists_overwrite hwidth hpos
                (by rw [Sheet.newLine, List.length_nil]; omega)
              refine ⟨t', ?_, ht'⟩
              rw [putChar_of_makeRoom_ok hwidth hlead hfit hroom hroomy.plain.insertMode, hok]
            · rw [if_neg hover]
              rw [if_neg (by omega)] at hroom
              obtain ⟨t', hok, ht'⟩ := h.exists_overwrite hwidth hpos (Nat.not_lt.mp hover)
              refine ⟨t', ?_, ht'⟩
              rw [putChar_of_makeRoom_ok hwidth hlead hfit hroom h.plain.insertMode, hok]

/-- Otherwise printing it is a fault. -/
theorem exists_putChar_eq_error (h : t.Displays cols limit s) {c : Char}
    (hcount : s.countable cols c = false) :
    maxCoordinate < cols + 2 ∧ ∃ n, t.putChar c = .error (.tooFar n) := by
  obtain ⟨w, hwidth, hext, hfit, hmax⟩ := Sheet.exists_of_not_countable hcount
  have htwo := Text.columns?_le_two hwidth
  have hfits := h.fits
  rw [← h.col_eq] at hmax
  rw [← h.previousScalar?_eq] at hext
  exact ⟨by rw [h.col_eq] at hmax; omega, _, putChar_of_makeRoom_error hwidth hext
    (h.plain.cols_eq ▸ hfit) (makeRoom_of_lt hmax)⟩

/-- **Printing a character**, unless columns are counted beyond the greatest coordinate. -/
theorem exists_putChar (h : t.Displays cols limit s) (c : Char) :
    (∃ t', t.putChar c = .ok t' ∧ t'.Displays cols limit (s.put cols c)) ∨
      (maxCoordinate < cols + 2 ∧ ∃ n, t.putChar c = .error (.tooFar n)) := by
  cases hcount : s.countable cols c with
  | true => exact .inl (h.exists_putChar_of_countable hcount)
  | false => exact .inr (h.exists_putChar_eq_error hcount)

/-- **Printing goes on the sheet**, where it comes to a result. -/
theorem of_putChar (h : t.Displays cols limit s) {c : Char} (hok : t.putChar c = .ok t') :
    t'.Displays cols limit (s.put cols c) := by
  rcases h.exists_putChar c with ⟨t'', hok', ht''⟩ | ⟨-, n, herror⟩
  · obtain rfl := Except.ok.inj (hok.symm.trans hok')
    exact ht''
  · rw [hok] at herror
    cases herror

end Displays

/-- A text with one character more is printed with that character last. -/
theorem putText_concat_of_ok {t t' : Terminal} {text : List Char} (h : t.putText text = .ok t')
    (c : Char) : t.putText (text ++ [c]) = t'.putChar c := by
  rw [putText_concat, h]
  rfl

/-- **Printing a text.** -/
theorem Displays.exists_putText {t : Terminal} {cols limit : Nat} {s : Sheet}
    (h : t.Displays cols limit s) (text : List Char) :
    (∃ t', t.putText text = .ok t' ∧ t'.Displays cols limit (text.foldl (Sheet.put cols) s)) ∨
      (maxCoordinate < cols + 2 ∧ ∃ n, t.putText text = .error (.tooFar n)) := by
  induction text using List.reverseRecOn with
  | nil => exact .inl ⟨t, t.putText_nil, h⟩
  | append_singleton text c ih =>
      rw [putText_concat, List.foldl_concat]
      rcases ih with ⟨t', hok, ht'⟩ | ⟨hmax, n, herror⟩
      · rw [hok]
        exact ht'.exists_putChar c
      · rw [herror]
        exact .inr ⟨hmax, n, rfl⟩

end Terminal

end VideoTerminal
