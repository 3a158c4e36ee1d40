import Mathlib.Data.List.InsertIdx
import VideoTerminal.Screen.Page

/-!
# What a page records of its changes

A page keeps a list of the rows that are to be drawn, unless all of them are, and notes whether
anything has changed at all.  `Page.Recorded` says that from one page to a later one this was done
well: nothing noted before was forgotten, and no row has other cells now without being noted.

Before a character is written, what it covers of others is blanked without a note, since the write
itself will make one.  Until then the row is *owed*: `Recorded` may leave one row out, and
`Recorded.settle` puts it back in once it is noted.
-/

namespace VideoTerminal.Page

/-- The cells of a row of the screen. -/
def cells? (p : Page) (i : Nat) : Option Cells := p.rows[i]?.map Row.cells

/-- All that changed from `p` to `q` is recorded, but for the row that is owed.  Only rows up to
`last` are recorded anew. -/
structure Recorded (owed : Option Nat) (last : Nat) (p q : Page) : Prop where
  length_rows : q.rows.length = p.rows.length
  /-- Nothing that was recorded is forgotten. -/
  dirty : ∀ i ∈ p.dirty, i ∈ q.dirty
  fullRedraw : p.fullRedraw = true → q.fullRedraw = true
  changed : p.changed = true → q.changed = true
  le_last : ∀ i ∈ q.dirty, i ∈ p.dirty ∨ i ≤ last
  cells : ∀ i, owed ≠ some i →
    q.cells? i = p.cells? i ∨ q.changed = true ∧ (q.fullRedraw = true ∨ i ∈ q.dirty)

namespace Recorded

variable {owed : Option Nat} {last : Nat} {p q r : Page}

/-- The record and the rows are as they were, whatever the cursor does. -/
theorem of_frame (hrows : q.rows = p.rows) (hdirty : q.dirty = p.dirty)
    (hredraw : q.fullRedraw = p.fullRedraw) (hchanged : q.changed = p.changed) :
    p.Recorded owed last q where
  length_rows := by rw [hrows]
  dirty := by simp [hdirty]
  fullRedraw := by simp [hredraw]
  changed := by simp [hchanged]
  le_last := fun _ hi => .inl (hdirty ▸ hi)
  cells := fun i _ => .inl (by rw [cells?, cells?, hrows])

theorem refl (p : Page) : p.Recorded owed last p := of_frame rfl rfl rfl rfl

theorem trans (h : p.Recorded owed last q) (h' : q.Recorded owed last r) :
    p.Recorded owed last r where
  length_rows := h'.length_rows.trans h.length_rows
  dirty := fun i hi => h'.dirty i (h.dirty i hi)
  fullRedraw := fun hp => h'.fullRedraw (h.fullRedraw hp)
  changed := fun hp => h'.changed (h.changed hp)
  le_last := by
    intro i hi
    rcases h'.le_last i hi with hold | hle
    · exact h.le_last i hold
    · exact .inr hle
  cells := by
    intro i howed
    rcases h'.cells i howed with hsame | hnoted
    · rcases h.cells i howed with hsame' | ⟨hchanged, hredraw | hdirty⟩
      · exact .inl (hsame.trans hsame')
      · exact .inr ⟨h'.changed hchanged, .inl (h'.fullRedraw hredraw)⟩
      · exact .inr ⟨h'.changed hchanged, .inr (h'.dirty i hdirty)⟩
    · exact .inr hnoted

/-- With nothing owed, any row may be. -/
theorem owing (h : p.Recorded none last q) : p.Recorded owed last q :=
  { h with cells := fun i _ => h.cells i (by simp) }

/-- The row that was owed has been recorded. -/
theorem settle {row : Nat} (h : p.Recorded (some row) last q) (hrow : row ∈ q.dirty)
    (hchanged : q.changed = true) : p.Recorded none last q where
  length_rows := h.length_rows
  dirty := h.dirty
  fullRedraw := h.fullRedraw
  changed := h.changed
  le_last := h.le_last
  cells := by
    intro i _
    by_cases hi : row = i
    · exact .inr ⟨hchanged, .inr (hi ▸ hrow)⟩
    · exact h.cells i (by simpa using hi)

/-- All is to be drawn. -/
theorem of_markAllDirty (hlength : q.rows.length = p.rows.length) (hdirty : q.dirty = p.dirty) :
    p.Recorded owed last q.markAllDirty where
  length_rows := hlength
  dirty := fun _ hi => hdirty.symm ▸ hi
  fullRedraw := fun _ => rfl
  changed := fun _ => rfl
  le_last := fun _ hi => .inl (hdirty ▸ hi)
  cells := fun _ _ => .inr ⟨rfl, .inl rfl⟩

/-- Recording all rows misses none. -/
theorem markAllDirty (p : Page) : p.Recorded owed last p.markAllDirty := of_markAllDirty rfl rfl

/-- Recording a row misses none. -/
theorem markDirty (p : Page) {line : Nat} (hline : line ≤ last) :
    p.Recorded owed last (p.markDirty line) where
  length_rows := rfl
  dirty := fun _ hi => mem_insertLine.mpr (.inr hi)
  fullRedraw := id
  changed := fun _ => rfl
  le_last := by
    intro i hi
    rcases mem_insertLine.mp hi with rfl | hi
    · exact .inr hline
    · exact .inl hi
  cells := fun _ _ => .inl rfl

/-- A row that is recorded is among those recorded. -/
theorem mem_dirty_markDirty (p : Page) (line : Nat) : line ∈ (p.markDirty line).dirty :=
  mem_insertLine.mpr (.inl rfl)

/-- Moving the cursor in its row changes no row. -/
theorem moveToCol (p : Page) (col : Nat) : p.Recorded owed last (p.moveToCol col) :=
  of_frame rfl rfl rfl rfl

theorem moveToRow (p : Page) (row : Nat) : p.Recorded owed last (p.moveToRow row) :=
  of_frame rfl rfl rfl rfl

/-- A row that is changed is still to be recorded. -/
theorem modifyRow (p : Page) (row : Nat) (f : Row → Row) :
    p.Recorded (some row) last (p.modifyRow row f) where
  length_rows := List.length_modify _ _ _
  dirty := fun _ => id
  fullRedraw := id
  changed := id
  le_last := fun _ => .inl
  cells := by
    intro i howed
    left
    rw [cells?, cells?, Page.modifyRow, List.getElem?_modify_ne]
    simpa using howed

/-- A row that has other marks, but its old cells. -/
theorem modifyRow_of_cells_eq (p : Page) (row : Nat) {f : Row → Row}
    (hf : ∀ r, (f r).cells = r.cells) : p.Recorded owed last (p.modifyRow row f) where
  length_rows := List.length_modify _ _ _
  dirty := fun _ => id
  fullRedraw := id
  changed := id
  le_last := fun _ => .inl
  cells := by
    intro i _
    left
    rw [cells?, cells?, Page.modifyRow, List.getElem?_modify, Option.map_eq_map,
      Option.map_map]
    refine congrArg (fun g => p.rows[i]?.map g) (funext fun r => ?_)
    by_cases hi : row = i
    · simp [hi, hf]
    · simp [hi]

/-- How printing puts something into a row. -/
theorem write (p : Page) {row : Nat} (f : Row → Row) (col : Nat) (hrow : row ≤ last) :
    p.Recorded none last (((p.modifyRow row f).markDirty row).moveToCol col) :=
  settle (((modifyRow p row f).trans (markDirty _ hrow)).trans (moveToCol _ col))
    (mem_dirty_markDirty _ row) rfl

/-- A row that is edited is recorded. -/
theorem editRow (p : Page) {row : Nat} (f : Row → Row) (hrow : row ≤ last) :
    p.Recorded none last (p.editRow row f) := by
  unfold Page.editRow
  split
  · exact settle ((modifyRow p row f).trans (markDirty _ hrow)) (mem_dirty_markDirty _ row) rfl
  · exact refl p

/-- Recording some lines records each of them. -/
theorem mem_foldl_insertLine {lines dirty : List Nat} {i : Nat} :
    i ∈ lines.foldl (fun d line => insertLine line d) dirty ↔ i ∈ lines ∨ i ∈ dirty := by
  induction lines generalizing dirty with
  | nil => simp
  | cons line lines ih =>
      rw [List.foldl_cons, ih, mem_insertLine, List.mem_cons]
      tauto

/-- Each row that is cleared is recorded. -/
theorem clearRows (p : Page) (start stop : Nat) (blank : Cell) (hlast : p.rows.length ≤ last + 1) :
    p.Recorded none last (p.clearRows start stop blank) where
  length_rows := List.length_mapIdx
  dirty := fun _ hi => mem_foldl_insertLine.mpr (.inr hi)
  fullRedraw := id
  changed := fun hp => by simp [Page.clearRows, hp]
  le_last := by
    intro i hi
    rcases mem_foldl_insertLine.mp hi with hcleared | hold
    · rw [List.mem_range'_1] at hcleared
      exact .inr (by omega)
    · exact .inl hold
  cells := by
    intro i _
    by_cases hin : (start ≤ i ∧ i < stop) ∧ i < p.rows.length
    · refine .inr ⟨?_, .inr (mem_foldl_insertLine.mpr (.inl ?_))⟩
      · simp only [Page.clearRows, Bool.or_eq_true, decide_eq_true_eq]
        omega
      · rw [List.mem_range'_1]
        omega
    · left
      rw [cells?, cells?, Page.clearRows, List.getElem?_mapIdx]
      by_cases hlt : i < p.rows.length
      · rw [List.getElem?_eq_getElem hlt, Option.map_some, if_neg fun h => hin ⟨h, hlt⟩]
      · rw [List.getElem?_eq_none (Nat.not_lt.mp hlt), Option.map_none]

end Recorded

/-! ## Scrolling

Rows move, none is lost, and nothing is recorded until all is marked at the end. -/

/-- One row out and one row in leaves as many rows. -/
theorem length_insertIdx_eraseIdx {α : Type} {l : List α} {x : α} {out into : Nat}
    (hout : out < l.length) (hinto : into < l.length) :
    ((l.eraseIdx out).insertIdx into x).length = l.length := by
  rw [List.length_insertIdx, List.length_eraseIdx, if_pos hout, if_pos (by omega)]
  omega

/-- Scrolling by a row neither changes the number of rows nor records one. -/
theorem scrollUpOnce_frame (p : Page) {top bottom : Nat} (htop : top ≤ bottom)
    (hbottom : bottom < p.rows.length) (cols : Nat) (keep : Bool) :
    (p.scrollUpOnce top bottom cols keep).rows.length = p.rows.length ∧
      (p.scrollUpOnce top bottom cols keep).dirty = p.dirty := by
  unfold scrollUpOnce
  split
  · next removed _ =>
    have hkept : (if keep = true then p.pushScrollback removed else p).rows = p.rows ∧
        (if keep = true then p.pushScrollback removed else p).dirty = p.dirty := by
      unfold pushScrollback
      split
      · split <;> exact ⟨rfl, rfl⟩
      · exact ⟨rfl, rfl⟩
    dsimp only
    rw [hkept.1]
    exact ⟨length_insertIdx_eraseIdx (by omega) hbottom, hkept.2⟩
  · exact ⟨rfl, rfl⟩

/-- Scrolling up neither changes the number of rows nor records one. -/
theorem scrollUp_frame (p : Page) {top bottom : Nat} (htop : top ≤ bottom) (cols : Nat)
    (keep : Bool) {n : Nat} (hbottom : 0 < n → bottom < p.rows.length) :
    (p.scrollUp top bottom cols keep n).rows.length = p.rows.length ∧
      (p.scrollUp top bottom cols keep n).dirty = p.dirty := by
  induction n generalizing p with
  | zero => exact ⟨rfl, rfl⟩
  | succ n ih =>
      have hlt := hbottom (Nat.succ_pos n)
      obtain ⟨hlength, hdirty⟩ := p.scrollUpOnce_frame htop hlt cols keep
      obtain ⟨hlength', hdirty'⟩ :=
        ih (p.scrollUpOnce top bottom cols keep) fun _ => hlength ▸ hlt
      exact ⟨hlength'.trans hlength, hdirty'.trans hdirty⟩

theorem scrollDown_frame (p : Page) {top bottom : Nat} (htop : top ≤ bottom) (cols : Nat) {n : Nat}
    (hbottom : 0 < n → bottom < p.rows.length) :
    (p.scrollDown top bottom cols n).rows.length = p.rows.length ∧
      (p.scrollDown top bottom cols n).dirty = p.dirty := by
  induction n generalizing p with
  | zero => exact ⟨rfl, rfl⟩
  | succ n ih =>
      have hlt := hbottom (Nat.succ_pos n)
      have hlength : (p.scrollDownOnce top bottom cols).rows.length = p.rows.length :=
        length_insertIdx_eraseIdx hlt (by omega)
      obtain ⟨hlength', hdirty'⟩ := ih (p.scrollDownOnce top bottom cols) fun _ => hlength ▸ hlt
      exact ⟨hlength'.trans hlength, hdirty'⟩

namespace Recorded

variable {owed : Option Nat} {last : Nat}

/-- Where all rows are recorded afterwards, scrolling up misses none. -/
theorem scrollUp (p : Page) {top bottom : Nat} (htop : top ≤ bottom) (cols : Nat) (keep : Bool)
    {n : Nat} (hbottom : 0 < n → bottom < p.rows.length) :
    p.Recorded owed last (p.scrollUp top bottom cols keep n).markAllDirty := by
  obtain ⟨hlength, hdirty⟩ := p.scrollUp_frame htop cols keep hbottom
  exact of_markAllDirty hlength hdirty

theorem scrollDown (p : Page) {top bottom : Nat} (htop : top ≤ bottom) (cols : Nat) {n : Nat}
    (hbottom : 0 < n → bottom < p.rows.length) :
    p.Recorded owed last (p.scrollDown top bottom cols n).markAllDirty := by
  obtain ⟨hlength, hdirty⟩ := p.scrollDown_frame htop cols hbottom
  exact of_markAllDirty hlength hdirty

end Recorded

end VideoTerminal.Page
