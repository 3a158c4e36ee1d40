import VideoTerminal.Proofs.Line.Characters
import VideoTerminal.Proofs.Screen.Edits
import VideoTerminal.Proofs.Terminal.Steps
import VideoTerminal.Proofs.Terminal.Whole

/-!
# Editing a screen of whole characters

Inserting, removing and erasing cells, and another width, cut rows wherever they are told to.
Printing repairs the wide characters that it cuts; these operations do not.
`Terminal.EditBreaks` says when it matters, and a screen whose rows are whole stays so exactly when
it does not (`AllWhole.edit_iff`); then columns are still counted as the characters are wide.
-/

namespace VideoTerminal

/-- The operations that change cells where they stand. -/
inductive Edit
  | insertChars (n : Nat)
  | deleteChars (n : Nat)
  | eraseChars (n : Nat)
  | eraseInLine (part : Nat)
  | eraseInDisplay (part : Nat)
  | resize (cols rows : Nat)
  deriving DecidableEq, Repr

namespace Slots

/-- Erasing from the cursor on, or up to the cursor, splits a wide character. -/
def ErasePartBreaks (slots : List Char) (col : Nat) : Nat → Prop
  | 0 => SplitAt slots col
  | 1 => SplitAt slots (col + 1)
  | _ => False

/-- What an edit breaks in the row of the cursor, which stands at `col`. -/
def EditBreaks (slots : List Char) (col : Nat) : Edit → Prop
  | .insertChars n => InsertBreaks slots col n
  | .deleteChars n => DeleteBreaksAt slots col n
  | .eraseChars n => EraseBreaks slots col n
  | .eraseInLine part => ErasePartBreaks slots col part
  | .eraseInDisplay part => ErasePartBreaks slots col part
  | .resize cols _ => SplitAt slots cols

instance (slots : List Char) (col : Nat) : (part : Nat) → Decidable (ErasePartBreaks slots col part)
  | 0 => inferInstanceAs (Decidable (SplitAt slots col))
  | 1 => inferInstanceAs (Decidable (SplitAt slots (col + 1)))
  | _ + 2 => isFalse id

instance (slots : List Char) (col : Nat) : (e : Edit) → Decidable (EditBreaks slots col e)
  | .insertChars n => inferInstanceAs (Decidable (InsertBreaks slots col n))
  | .deleteChars n => inferInstanceAs (Decidable (DeleteBreaksAt slots col n))
  | .eraseChars n => inferInstanceAs (Decidable (EraseBreaks slots col n))
  | .eraseInLine part => inferInstanceAs (Decidable (ErasePartBreaks slots col part))
  | .eraseInDisplay part => inferInstanceAs (Decidable (ErasePartBreaks slots col part))
  | .resize cols _ => inferInstanceAs (Decidable (SplitAt slots cols))

end Slots

/-- A row of which a part has been erased, with the cursor at `col`. -/
def Row.erasePart (r : Row) (part col : Nat) (blank : Cell) : Row :=
  match part with
  | 0 => ⟨Cells.fill r.cells (min col r.cells.length) r.cells.length blank, false⟩
  | 1 => ⟨Cells.fill r.cells 0 (min (col + 1) r.cells.length) blank, r.wrapped⟩
  | 2 => ⟨Cells.fill r.cells 0 r.cells.length blank, false⟩
  | _ => r

/-- A row that is erased in part stays whole unless the part ends within a character. -/
theorem Row.whole_erasePart_iff {r : Row} {blank : Cell} (hblank : blank.char = ' ')
    (h : Slots.Whole r.cells.slots) (part col : Nat) :
    Slots.Whole (r.erasePart part col blank).cells.slots ↔
      ¬ Slots.ErasePartBreaks r.cells.slots col part := by
  have hlength : r.cells.slots.length = r.cells.length := r.cells.length_slots
  have hend : ¬ Slots.SplitAt r.cells.slots r.cells.length :=
    Slots.not_splitAt_of_length_le (Nat.le_of_eq hlength)
  have hmin : ∀ i, Slots.SplitAt r.cells.slots (min i r.cells.length) ↔
      Slots.SplitAt r.cells.slots i := fun i => hlength ▸ Slots.splitAt_min_length
  match part with
  | 0 =>
    rw [Row.erasePart, Cells.whole_fill_iff hblank h (Nat.min_le_right _ _) (Nat.le_refl _), hmin]
    refine not_congr ⟨fun hbreaks => hbreaks.2.resolve_right hend, fun hsplit => ⟨?_, .inl hsplit⟩⟩
    have hlt := hsplit.lt_length
    omega
  | 1 =>
    rw [Row.erasePart, Cells.whole_fill_iff hblank h (Nat.zero_le _) (Nat.min_le_right _ _), hmin]
    refine not_congr ⟨fun hbreaks => hbreaks.2.resolve_left h.not_splitAt_zero,
      fun hsplit => ⟨?_, .inr hsplit⟩⟩
    have hlt := hsplit.lt_length
    omega
  | 2 =>
    rw [Row.erasePart, Cells.whole_fill_iff hblank h (Nat.zero_le _) (Nat.le_refl _)]
    exact not_congr (iff_of_false (fun hbreaks => hbreaks.2.elim h.not_splitAt_zero hend) id)
  | _ + 3 => exact iff_of_true h id

namespace Terminal

/-- Carries out an edit. -/
def edit (t : Terminal) : Edit → Terminal
  | .insertChars n => t.insertChars n
  | .deleteChars n => t.deleteChars n
  | .eraseChars n => t.eraseChars n
  | .eraseInLine part => t.eraseInLine part
  | .eraseInDisplay part => t.eraseInDisplay part
  | .resize cols rows => t.resize cols rows

/-- What an edit breaks: in the row of the cursor, or, if it is another width, in any row that
stays. -/
def EditBreaks (t : Terminal) : Edit → Prop
  | .resize cols rows => ∃ slots ∈ t.grid.take rows, Slots.SplitAt slots cols
  | e => ∃ slots, t.grid[t.cursor.row]? = some slots ∧ Slots.EditBreaks slots t.cursor.col e

variable {t t' : Terminal}

/-- A screen stays whole if the row of the cursor does and no other row suffers. -/
theorem AllWhole.iff_of_rows (h : t.AllWhole) {f : Nat → Row → Row} {breaks : List Char → Prop}
    (hrows : ∀ i, t'.active.rows[i]? = t.active.rows[i]?.map (f i))
    (hothers : ∀ i r, i ≠ t.cursor.row → Slots.Whole r.cells.slots →
      Slots.Whole (f i r).cells.slots)
    (hcursor : ∀ r, Slots.Whole r.cells.slots →
      (Slots.Whole (f t.cursor.row r).cells.slots ↔ ¬ breaks r.cells.slots)) :
    t'.AllWhole ↔ ¬ ∃ slots, t.grid[t.cursor.row]? = some slots ∧ breaks slots := by
  have hold : ∀ {i} {r : Row}, t.active.rows[i]? = some r → Slots.Whole r.cells.slots := fun hr =>
    h.whole (getElem?_grid_eq_some_iff.mpr ⟨_, hr, rfl⟩)
  constructor
  · rintro h' ⟨slots, hslots, hbreaks⟩
    obtain ⟨r, hr, rfl⟩ := getElem?_grid_eq_some_iff.mp hslots
    have hnew : t'.active.rows[t.cursor.row]? = some (f t.cursor.row r) := by
      rw [hrows, hr]
      rfl
    exact (hcursor r (hold hr)).mp
      (h'.whole (getElem?_grid_eq_some_iff.mpr ⟨_, hnew, rfl⟩)) hbreaks
  · intro hkept slots hslots
    obtain ⟨i, hi⟩ := List.mem_iff_getElem?.mp hslots
    obtain ⟨r', hr', rfl⟩ := getElem?_grid_eq_some_iff.mp hi
    rw [hrows] at hr'
    obtain ⟨r, hr, rfl⟩ := Option.map_eq_some_iff.mp hr'
    by_cases hrow : i = t.cursor.row
    · subst hrow
      refine (hcursor r (hold hr)).mpr fun hbreaks => hkept ⟨_, ?_, hbreaks⟩
      exact getElem?_grid_eq_some_iff.mpr ⟨r, hr, rfl⟩
    · exact hothers i r hrow (hold hr)

/-! ## What the edits do to the rows -/

/-- An edit of one row leaves the others. -/
theorem getElem?_rows_editRow (p : Page) (row : Nat) (f : Row → Row) (i : Nat) :
    (p.editRow row f).rows[i]? = p.rows[i]?.map fun r => if i = row then f r else r := by
  have hmodify : (p.rows.modify row f)[i]? =
      p.rows[i]?.map fun r => if i = row then f r else r := by
    simp only [List.getElem?_modify, eq_comm (a := row), Option.map_eq_map]
  unfold Page.editRow
  split
  · exact hmodify
  · next hrow =>
    rw [← hmodify, List.modify_eq_self (Nat.not_lt.mp hrow)]

/-- An edit at the cursor changes its row, where the cursor stands on a cell. -/
theorem getElem?_rows_editCursorRow (t : Terminal) (edit : Cells → Nat → Cells) (i : Nat) :
    (t.editCursorRow edit).active.rows[i]? = t.active.rows[i]?.map fun r =>
      if i = t.cursor.row ∧ t.cursor.col < r.cells.length then
        { r with cells := edit r.cells t.cursor.col }
      else r := by
  unfold editCursorRow
  rw [active_modifyActive]
  change _ = t.active.rows[i]?.map fun r =>
    if i = t.active.cursor.row ∧ t.active.cursor.col < r.cells.length then
      { r with cells := edit r.cells t.active.cursor.col }
    else r
  generalize t.active = p
  cases hrow : p.rows[p.cursor.row]? with
  | none =>
      by_cases hi : i = p.cursor.row
      · rw [hi, hrow]
        rfl
      · simp [hi]
  | some row =>
      dsimp only
      by_cases hcol : p.cursor.col < row.cells.length
      · rw [if_pos hcol, getElem?_rows_editRow]
        by_cases hi : i = p.cursor.row
        · simp [hi, hrow, hcol]
        · simp [hi]
      · rw [if_neg hcol]
        by_cases hi : i = p.cursor.row
        · simp [hi, hrow, hcol]
        · simp [hi]

/-- Rows are cleared from the first up to the last, and the others are left. -/
theorem getElem?_rows_clearRows (p : Page) (start stop : Nat) (blank : Cell) (i : Nat) :
    (p.clearRows start stop blank).rows[i]? =
      p.rows[i]?.map fun r => if start ≤ i ∧ i < stop then r.clear blank else r := by
  rw [Page.clearRows, List.getElem?_mapIdx]

/-- An edit of the cells of the cursor's row, of which the cursor stands on one. -/
theorem AllWhole.editCursorRow_iff (h : t.AllWhole) {edit : Cells → Nat → Cells}
    {breaks : List Char → Prop}
    (hedit : ∀ cells : Cells, Slots.Whole cells.slots → t.cursor.col < cells.length →
      (Slots.Whole (edit cells t.cursor.col).slots ↔ ¬ breaks cells.slots))
    (hbehind : ∀ slots : List Char, slots.length ≤ t.cursor.col → ¬ breaks slots) :
    (t.editCursorRow edit).AllWhole ↔
      ¬ ∃ slots, t.grid[t.cursor.row]? = some slots ∧ breaks slots := by
  refine h.iff_of_rows (t.getElem?_rows_editCursorRow edit) ?_ ?_
  · intro i r hi hr
    rw [if_neg fun hin => hi hin.1]
    exact hr
  · intro r hr
    by_cases hcol : t.cursor.col < r.cells.length
    · rw [if_pos ⟨rfl, hcol⟩]
      exact hedit r.cells hr hcol
    · rw [if_neg fun hin => hcol hin.2]
      exact iff_of_true hr (hbehind _ (by rw [Cells.length_slots]; omega))

/-- The cell that erasing leaves is a blank. -/
theorem blank_char (t : Terminal) : t.blank.char = ' ' := rfl

/-- **Inserting blanks** leaves all rows whole unless it breaks the cursor's. -/
theorem AllWhole.insertChars_iff (h : t.AllWhole) (n : Nat) :
    (t.insertChars n).AllWhole ↔ ¬ ∃ slots, t.grid[t.cursor.row]? = some slots ∧
      Slots.InsertBreaks slots t.cursor.col n :=
  h.editCursorRow_iff
    (fun _ hcells hcol => Cells.whole_insertBlanks_iff t.blank_char hcells hcol n)
    fun _ => Slots.not_insertBreaks_of_length_le

/-- **Deleting cells** leaves all rows whole unless it breaks the cursor's. -/
theorem AllWhole.deleteChars_iff (h : t.AllWhole) (n : Nat) :
    (t.deleteChars n).AllWhole ↔ ¬ ∃ slots, t.grid[t.cursor.row]? = some slots ∧
      Slots.DeleteBreaksAt slots t.cursor.col n :=
  h.editCursorRow_iff
    (fun _ hcells hcol => Cells.whole_deleteCells_iff t.blank_char hcells (Nat.le_of_lt hcol) n)
    fun _ => Slots.not_deleteBreaksAt_of_length_le

/-- **Erasing cells** leaves all rows whole unless it breaks the cursor's. -/
theorem AllWhole.eraseChars_iff (h : t.AllWhole) (n : Nat) :
    (t.eraseChars n).AllWhole ↔ ¬ ∃ slots, t.grid[t.cursor.row]? = some slots ∧
      Slots.EraseBreaks slots t.cursor.col n :=
  h.editCursorRow_iff
    (fun _ hcells hcol => Cells.whole_eraseCells_iff t.blank_char hcells (Nat.le_of_lt hcol) n)
    fun _ => Slots.not_eraseBreaks_of_length_le

/-- Erasing in a row leaves the other rows. -/
theorem getElem?_rows_eraseInLine (t : Terminal) (part i : Nat) :
    (t.eraseInLine part).active.rows[i]? = t.active.rows[i]?.map fun r =>
      if i = t.cursor.row then r.erasePart part t.cursor.col t.blank else r := by
  unfold eraseInLine
  rw [active_modifyActive]
  match part with
  | 0 | 1 | 2 => exact getElem?_rows_editRow _ _ _ _
  | part + 3 => simp [Row.erasePart]

/-- Erasing a part of the cursor's row, and clearing other rows. -/
theorem AllWhole.eraseInLine_clearRows_iff (h : t.AllWhole) (part : Nat) {start stop : Nat}
    (hout : ¬ (start ≤ t.cursor.row ∧ t.cursor.row < stop)) :
    ((t.eraseInLine part).modifyActive fun p => p.clearRows start stop t.blank).AllWhole ↔
      ¬ ∃ slots, t.grid[t.cursor.row]? = some slots ∧
        Slots.ErasePartBreaks slots t.cursor.col part := by
  refine h.iff_of_rows (f := fun i r =>
    if start ≤ i ∧ i < stop then
      (if i = t.cursor.row then r.erasePart part t.cursor.col t.blank else r).clear t.blank
    else if i = t.cursor.row then r.erasePart part t.cursor.col t.blank else r) ?_ ?_ ?_
  · intro i
    rw [active_modifyActive, getElem?_rows_clearRows, getElem?_rows_eraseInLine, Option.map_map]
    rfl
  · intro i r hi hr
    simp only [hi, if_false]
    split
    · rw [Row.slots_clear _ _ t.blank_char]
      exact (Slots.follows_replicate _).whole
    · exact hr
  · intro r hr
    rw [if_neg hout, if_pos rfl]
    exact Row.whole_erasePart_iff t.blank_char hr part _

/-- Clearing rows alone breaks nothing. -/
theorem AllWhole.of_cleared (h : t.AllWhole) {start stop : Nat}
    (hrows : t'.active.rows = (t.active.clearRows start stop t.blank).rows) : t'.AllWhole := by
  intro slots hslots
  obtain ⟨i, hi⟩ := List.mem_iff_getElem?.mp hslots
  obtain ⟨r', hr', rfl⟩ := getElem?_grid_eq_some_iff.mp hi
  rw [hrows, getElem?_rows_clearRows] at hr'
  obtain ⟨r, hr, rfl⟩ := Option.map_eq_some_iff.mp hr'
  split
  · rw [Row.slots_clear _ _ t.blank_char]
    exact (Slots.follows_replicate _).whole
  · exact h.whole (getElem?_grid_eq_some_iff.mpr ⟨r, hr, rfl⟩)

/-- **Erasing in a row** leaves all rows whole unless it breaks this one. -/
theorem AllWhole.eraseInLine_iff (h : t.AllWhole) (part : Nat) :
    (t.eraseInLine part).AllWhole ↔ ¬ ∃ slots, t.grid[t.cursor.row]? = some slots ∧
      Slots.ErasePartBreaks slots t.cursor.col part := by
  refine h.iff_of_rows (t.getElem?_rows_eraseInLine part) ?_ ?_
  · intro i r hi hr
    rw [if_neg hi]
    exact hr
  · intro r hr
    rw [if_pos rfl]
    exact Row.whole_erasePart_iff t.blank_char hr part _

/-- **Erasing on the screen** leaves all rows whole unless it breaks the cursor's. -/
theorem AllWhole.eraseInDisplay_iff (h : t.AllWhole) (part : Nat) :
    (t.eraseInDisplay part).AllWhole ↔ ¬ ∃ slots, t.grid[t.cursor.row]? = some slots ∧
      Slots.ErasePartBreaks slots t.cursor.col part := by
  -- Where all rows are cleared, or none, nothing breaks.
  have hnone : ∀ part, ¬ ∃ slots, t.grid[t.cursor.row]? = some slots ∧
      Slots.ErasePartBreaks slots t.cursor.col (part + 2) :=
    fun part ⟨_, _, hbreaks⟩ => hbreaks
  have hrow : ∀ part, (t.eraseInLine part).active.cursor.row = t.cursor.row :=
    fun part => (t.retouched_eraseInLine part).row_eq
  have hcleared : ∀ f : Page → Page,
      (f t.active).rows = (t.active.clearRows 0 t.rows t.blank).rows →
        (t.modifyActive f).AllWhole :=
    fun f hf => h.of_cleared (by rw [active_modifyActive, hf])
  match part with
  | 0 =>
    rw [eraseInDisplay, modifyActive_congr (g := fun p =>
      p.clearRows (t.cursor.row + 1) t.rows t.blank) (by rw [hrow])]
    exact h.eraseInLine_clearRows_iff 0 (by omega)
  | 1 =>
    rw [eraseInDisplay, modifyActive_congr (g := fun p =>
      p.clearRows 0 t.cursor.row t.blank) (by rw [hrow])]
    exact h.eraseInLine_clearRows_iff 1 (by omega)
  | 2 => exact iff_of_true (hcleared _ rfl) (hnone 0)
  | 3 => exact iff_of_true (hcleared _ rfl) (hnone 1)
  | part + 4 => exact iff_of_true h (hnone (part + 2))

/-- The page that is shown takes the new size. -/
theorem active_resize (t : Terminal) (cols rows : Nat) :
    (t.resize cols rows).active = t.active.resize cols rows := by
  change (if t.usingAlternate then t.alternate.resize cols rows
    else t.primary.resize cols rows) = _
  unfold active
  split <;> rfl

/-- **Another size** leaves all rows whole unless one of them is cut within a character. -/
theorem AllWhole.resize_iff (h : t.AllWhole) (cols rows : Nat) :
    (t.resize cols rows).AllWhole ↔ ¬ ∃ slots ∈ t.grid.take rows, Slots.SplitAt slots cols := by
  have hkept : ∀ r ∈ t.active.rows.take rows,
      (Slots.Whole (r.resize cols).cells.slots ↔ ¬ Slots.SplitAt r.cells.slots cols) :=
    fun r hr => Row.whole_resize_iff (h _ (List.mem_map_of_mem (List.mem_of_mem_take hr))) cols
  have hnew : Slots.Whole ((Row.new cols).resize cols).cells.slots := by
    rw [Row.slots_resize, Row.slots_new, Row.length_new, Nat.sub_self, List.take_replicate,
      List.replicate_zero, List.append_nil]
    exact (Slots.follows_replicate _).whole
  have hrows : (t.resize cols rows).active.rows =
      (t.active.rows.take rows ++ List.replicate (rows - t.active.rows.length) (Row.new cols)).map
        fun r => r.resize cols := by
    rw [active_resize]
    rfl
  constructor
  · rintro h' ⟨slots, hslots, hsplit⟩
    rw [grid, ← List.map_take] at hslots
    obtain ⟨r, hr, rfl⟩ := List.mem_map.mp hslots
    refine (hkept r hr).mp (h' _ ?_) hsplit
    rw [grid, hrows, List.map_map, List.map_append]
    exact List.mem_append_left _ (List.mem_map_of_mem hr)
  · intro hbreaks slots hslots
    rw [grid, hrows, List.map_map] at hslots
    obtain ⟨r, hr, rfl⟩ := List.mem_map.mp hslots
    rcases List.mem_append.mp hr with hold | hblank
    · refine (hkept r hold).mpr fun hsplit => hbreaks ⟨_, ?_, hsplit⟩
      rw [grid, ← List.map_take]
      exact List.mem_map_of_mem hold
    · rw [List.eq_of_mem_replicate hblank]
      exact hnew

/-- **An edit keeps the rows of a screen whole** unless it breaks a wide character; then the columns
before each slot are those of the characters that begin there. -/
theorem AllWhole.edit_iff (h : t.AllWhole) (e : Edit) :
    ((t.edit e).AllWhole ↔ ¬ t.EditBreaks e) ∧
    (¬ t.EditBreaks e → ∀ front back, front ++ back ∈ (t.edit e).grid →
      (Line.ofList (front ++ back)).visualColumn front.length (front ++ back).length =
        Slots.leadColumns none front) := by
  have hiff : (t.edit e).AllWhole ↔ ¬ t.EditBreaks e := by
    cases e with
    | insertChars n => exact h.insertChars_iff n
    | deleteChars n => exact h.deleteChars_iff n
    | eraseChars n => exact h.eraseChars_iff n
    | eraseInLine part => exact h.eraseInLine_iff part
    | eraseInDisplay part => exact h.eraseInDisplay_iff part
    | resize cols rows => exact h.resize_iff cols rows
  refine ⟨hiff, fun hbreaks front back hmem => ?_⟩
  have hwhole := hiff.mpr hbreaks _ hmem
  rw [Line.visualColumn, Nat.min_eq_left (by simp), hwhole.columnsBefore_eq]

/-- The cursor of `cursorOnMark` goes to where the wide character begins. -/
def cursorOnLead : Terminal := WellFormed.cursorOnMark.cursorColumn 1

/-- All rows of the example are whole. -/
theorem allWhole_cursorOnLead : cursorOnLead.AllWhole := WellFormed.allWhole_cursorOnMark

/-- The mark alone can be taken out of the wide character, and the first slot can not be erased. -/
theorem edit_iff_mark :
    (WellFormed.cursorOnMark.edit (.deleteChars 1)).AllWhole ∧
      ¬ (cursorOnLead.edit (.eraseChars 1)).AllWhole := by
  constructor
  · refine (WellFormed.allWhole_cursorOnMark.edit_iff (.deleteChars 1)).1.mpr ?_
    rintro ⟨slots, hslots, hbreaks⟩
    obtain rfl := Option.some.inj hslots
    exact absurd hbreaks (by decide +kernel)
  · intro hwhole
    refine (allWhole_cursorOnLead.edit_iff (.eraseChars 1)).1.mp hwhole ⟨_, rfl, ?_⟩
    decide +kernel

/-- Erasing it leaves the mark and the tail behind. -/
theorem not_allWhole_edit :
    ¬ ∀ (t : Terminal) (cols rows limit : Nat) (e : Edit), t.WellFormed cols rows limit →
      t.AllWhole → (t.edit e).AllWhole := by
  intro hall
  have hwhole := hall cursorOnLead 5 1 0 (.eraseChars 1)
    (WellFormed.wellFormed_cursorOnMark.cursorColumn 1) allWhole_cursorOnLead
    [' ', '\u0301', wideTail, ' ', ' '] ?_
  · obtain ⟨g, hread, -⟩ := Slots.whole_iff_accepts.mp hwhole
    have hnone : Glyph.narrow.read none [' ', '\u0301', wideTail, ' ', ' '] = none := by
      decide +kernel
    rw [hnone] at hread
    cases hread
  · decide +kernel

end Terminal

end VideoTerminal
