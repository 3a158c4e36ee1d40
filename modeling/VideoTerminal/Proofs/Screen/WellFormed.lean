import Mathlib.Data.List.InsertIdx
import VideoTerminal.Screen.Page

/-!
# Well-formed pages

A page of a given size has as many rows as the size says, on the screen and in the history each row
has as many cells, and the cursor stands on a row of the screen, at most one column behind its last
cell; so does what was saved of it.  The history is no longer than its limit.

Each way to change a page has one lemma here: whoever calls it with rows and columns of the screen
leaves a well-formed page.
-/

namespace VideoTerminal

/-- A cursor that stands on a screen, together with what was saved of it.  A column equal to the
width is that of a pending wrap. -/
structure Cursor.OnScreen (c : Cursor) (cols rows : Nat) : Prop where
  row_lt : c.row < rows
  col_le : c.col ≤ cols
  saved : ∀ s ∈ c.saved, s.row < rows ∧ s.col ≤ cols

/-- A page of the given size and with the given limit to its history. -/
structure Page.WellFormed (p : Page) (cols rows limit : Nat) : Prop where
  length_rows : p.rows.length = rows
  length_cells : ∀ r ∈ p.rows, r.cells.length = cols
  length_history : ∀ r ∈ p.scrollback, r.cells.length = cols
  cursor : p.cursor.OnScreen cols rows
  limit_eq : p.scrollbackLimit = limit
  size_history : p.scrollback.size ≤ limit

/-- A fresh cursor stands in the corner of every screen, whatever was saved. -/
theorem Cursor.onScreen_home {cols rows : Nat} (h : 0 < rows) {saved : Option SavedCursor}
    (hs : ∀ s ∈ saved, s.row < rows ∧ s.col ≤ cols) :
    Cursor.OnScreen { saved := saved } cols rows :=
  ⟨h, Nat.zero_le cols, hs⟩

/-- Whatever the cursor was, it is moved back onto the screen. -/
theorem Cursor.onScreen_clamp (c : Cursor) {cols rows : Nat} (h : 0 < rows) :
    (c.clamp cols rows).OnScreen cols rows := by
  refine ⟨?_, ?_, ?_⟩
  · simp only [clamp]
    omega
  · simp only [clamp]
    omega
  · intro s hs
    obtain ⟨old, -, rfl⟩ := Option.map_eq_some_iff.mp hs
    constructor
    · dsimp only
      omega
    · dsimp only
      omega

namespace Page.WellFormed

variable {p : Page} {cols rows limit : Nat}

/-- A new page is well-formed. -/
theorem new (h : 0 < rows) : (Page.new cols rows limit).WellFormed cols rows limit where
  length_rows := by simp [Page.new]
  length_cells := by
    intro r hr
    rw [(List.mem_replicate.mp hr).2]
    exact Row.length_new cols
  length_history := by simp [Page.new]
  cursor := Cursor.onScreen_home h (by simp)
  limit_eq := rfl
  size_history := Nat.zero_le limit

/-- A page of which only the cursor, and what is to be drawn, has changed. -/
theorem of_frame {q : Page} (h : p.WellFormed cols rows limit) (hrows : q.rows = p.rows)
    (hback : q.scrollback = p.scrollback) (hlimit : q.scrollbackLimit = p.scrollbackLimit)
    (hcursor : q.cursor.OnScreen cols rows) : q.WellFormed cols rows limit where
  length_rows := hrows ▸ h.length_rows
  length_cells := hrows ▸ h.length_cells
  length_history := hback ▸ h.length_history
  cursor := hcursor
  limit_eq := hlimit ▸ h.limit_eq
  size_history := hback ▸ h.size_history

/-- Other rows of the same length. -/
theorem withRows (h : p.WellFormed cols rows limit) {rs : List Row} (hlen : rs.length = rows)
    (hcells : ∀ r ∈ rs, r.cells.length = cols) :
    { p with rows := rs }.WellFormed cols rows limit where
  length_rows := hlen
  length_cells := hcells
  length_history := h.length_history
  cursor := h.cursor
  limit_eq := h.limit_eq
  size_history := h.size_history

/-- Another cursor on the screen keeps a page well-formed. -/
theorem withCursor (h : p.WellFormed cols rows limit) {c : Cursor} (hc : c.OnScreen cols rows) :
    { p with cursor := c }.WellFormed cols rows limit :=
  h.of_frame rfl rfl rfl hc

theorem markDirty (h : p.WellFormed cols rows limit) (line : Nat) :
    (p.markDirty line).WellFormed cols rows limit :=
  h.of_frame rfl rfl rfl h.cursor

theorem markAllDirty (h : p.WellFormed cols rows limit) :
    p.markAllDirty.WellFormed cols rows limit :=
  h.of_frame rfl rfl rfl h.cursor

theorem clearDirty (h : p.WellFormed cols rows limit) :
    p.clearDirty.WellFormed cols rows limit :=
  h.of_frame rfl rfl rfl h.cursor

/-- The cursor may go to any column, and behind the last one. -/
theorem moveToCol (h : p.WellFormed cols rows limit) {col : Nat} (hcol : col ≤ cols) :
    (p.moveToCol col).WellFormed cols rows limit :=
  h.withCursor ⟨h.cursor.row_lt, hcol, h.cursor.saved⟩

theorem moveToRow (h : p.WellFormed cols rows limit) {row : Nat} (hrow : row < rows) :
    (p.moveToRow row).WellFormed cols rows limit :=
  h.withCursor ⟨hrow, h.cursor.col_le, h.cursor.saved⟩

/-- A row may be changed in any way that keeps its length. -/
theorem modifyRow (h : p.WellFormed cols rows limit) (row : Nat) {f : Row → Row}
    (hf : ∀ r, r.cells.length = cols → (f r).cells.length = cols) :
    (p.modifyRow row f).WellFormed cols rows limit := by
  refine h.withRows ?_ ?_
  · rw [List.length_modify]
    exact h.length_rows
  · intro r hr
    obtain ⟨i, hi⟩ := List.mem_iff_getElem?.mp hr
    rw [List.getElem?_modify] at hi
    obtain ⟨old, hold, rfl⟩ := Option.map_eq_some_iff.mp hi
    have hlen := h.length_cells old (List.mem_of_getElem? hold)
    by_cases hrow : row = i
    · rw [if_pos hrow]
      exact hf old hlen
    · rw [if_neg hrow]
      exact hlen

/-- An edit that keeps the width of rows keeps a page well-formed. -/
theorem editRow (h : p.WellFormed cols rows limit) (row : Nat) {f : Row → Row}
    (hf : ∀ r, r.cells.length = cols → (f r).cells.length = cols) :
    (p.editRow row f).WellFormed cols rows limit := by
  unfold Page.editRow
  split
  · exact (h.modifyRow row hf).markDirty row
  · exact h

theorem clearRows (h : p.WellFormed cols rows limit) (start stop : Nat) (blank : Cell) :
    (p.clearRows start stop blank).WellFormed cols rows limit where
  length_rows := by
    rw [Page.clearRows, List.length_mapIdx]
    exact h.length_rows
  length_cells := by
    intro r hr
    obtain ⟨i, hi, rfl⟩ := List.mem_mapIdx.mp hr
    have hlen := h.length_cells _ (List.getElem_mem hi)
    split
    · rw [Row.length_clear]
      exact hlen
    · exact hlen
  length_history := h.length_history
  cursor := h.cursor
  limit_eq := h.limit_eq
  size_history := h.size_history

/-- The oldest row makes place for the new one when the history is full. -/
theorem pushScrollback (h : p.WellFormed cols rows limit) {r : Row} (hr : r.cells.length = cols) :
    (p.pushScrollback r).WellFormed cols rows limit := by
  unfold Page.pushScrollback
  have hlimit := h.limit_eq
  have hsize := h.size_history
  split
  · exact h
  · next hpos =>
    refine ⟨h.length_rows, h.length_cells, ?_, h.cursor, h.limit_eq, ?_⟩
    · intro x hx
      rcases Array.mem_push.mp hx with hx | rfl
      · split at hx
        · obtain ⟨k, hk, rfl⟩ := Array.mem_extract_iff_getElem.mp hx
          exact h.length_history _ (Array.getElem_mem _)
        · exact h.length_history x hx
      · exact hr
    · simp only [Array.size_push]
      split
      · simp only [Array.size_extract]
        omega
      · omega

/-- A row taken out at one place and an untouched one put in at another. -/
theorem replaceRow (h : p.WellFormed cols rows limit) {out into : Nat} (hout : out < rows)
    (hinto : into < rows) :
    { p with rows := (p.rows.eraseIdx out).insertIdx into (Row.new cols) }.WellFormed
      cols rows limit := by
  have hlen := h.length_rows
  refine h.withRows ?_ ?_
  · rw [List.length_insertIdx, List.length_eraseIdx]
    split <;> split <;> omega
  · intro r hr
    rcases List.eq_or_mem_of_mem_insertIdx hr with rfl | hr
    · exact Row.length_new cols
    · exact h.length_cells r (List.mem_of_mem_eraseIdx hr)

/-- Scrolling up by a row keeps a page well-formed. -/
theorem scrollUpOnce (h : p.WellFormed cols rows limit) {top bottom : Nat} (htop : top ≤ bottom)
    (hbottom : bottom < rows) (keep : Bool) :
    (p.scrollUpOnce top bottom cols keep).WellFormed cols rows limit := by
  unfold Page.scrollUpOnce
  have hlen := h.length_rows
  split
  · next removed hr =>
    have hcells := h.length_cells removed (List.mem_of_getElem? hr)
    cases keep with
    | false => exact h.replaceRow (by omega) hbottom
    | true =>
        have htop : top < rows := by omega
        have hpush := (h.pushScrollback hcells).replaceRow htop hbottom
        rw [Page.rows_pushScrollback] at hpush
        simpa only [if_true, Page.rows_pushScrollback] using hpush
  · exact h

theorem scrollUp (h : p.WellFormed cols rows limit) {top bottom : Nat} (htop : top ≤ bottom)
    (hbottom : bottom < rows) (keep : Bool) (n : Nat) :
    (p.scrollUp top bottom cols keep n).WellFormed cols rows limit := by
  induction n generalizing p with
  | zero => exact h
  | succ n ih => exact ih (h.scrollUpOnce htop hbottom keep)

theorem scrollDown (h : p.WellFormed cols rows limit) {top bottom : Nat} (htop : top ≤ bottom)
    (hbottom : bottom < rows) (n : Nat) :
    (p.scrollDown top bottom cols n).WellFormed cols rows limit := by
  induction n generalizing p with
  | zero => exact h
  | succ n ih => exact ih (h.replaceRow hbottom (by omega))

/-- A well-formed page of any size becomes one of the new size. -/
theorem resize (h : p.WellFormed cols rows limit) (newCols : Nat) {newRows : Nat}
    (hpos : 0 < newRows) : (p.resize newCols newRows).WellFormed newCols newRows limit where
  length_rows := by
    simp only [Page.resize, Page.markAllDirty, List.length_map, List.length_append,
      List.length_take, List.length_replicate]
    omega
  length_cells := by
    intro r hr
    obtain ⟨old, -, rfl⟩ := List.mem_map.mp hr
    exact Row.length_resize old newCols
  length_history := by
    intro r hr
    obtain ⟨old, -, rfl⟩ := Array.mem_map.mp hr
    exact Row.length_resize old newCols
  cursor := Cursor.onScreen_clamp p.cursor hpos
  limit_eq := h.limit_eq
  size_history := by
    simp only [Page.resize, Page.markAllDirty, Array.size_map]
    exact h.size_history

/-- The row on which the cursor stands. -/
theorem exists_cursorRow (h : p.WellFormed cols rows limit) :
    ∃ r, p.rows[p.cursor.row]? = some r ∧ r.cells.length = cols := by
  have hlt : p.cursor.row < p.rows.length := h.length_rows ▸ h.cursor.row_lt
  exact ⟨p.rows[p.cursor.row], List.getElem?_eq_getElem hlt, h.length_cells _ (List.getElem_mem hlt)⟩

end Page.WellFormed

end VideoTerminal
