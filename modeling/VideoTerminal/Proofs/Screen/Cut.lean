import VideoTerminal.Proofs.Screen.Edits

/-!
# A screen cut at a slot

Edits and erasures act where the cursor stands.  A screen that is cut there falls into the rows
above, the cells before the slot, those from it on, and the rows below, and what each operation
leaves is said in these parts (`CutScreen`).  Erasing what follows the cut and erasing what precedes
it come to erasing everything, in either order (`CutScreen.eraseInDisplay_both`).

The edits of a row of cells leave what is before the cut; `Cells.insertBlanks_append`,
`Cells.deleteCells_append` and `Cells.eraseCells_append` say what becomes of the rest.
-/

namespace VideoTerminal

namespace Cells

variable (left middle right : Cells) (n : Nat) (blank : Cell)

/-- The cells between two places are replaced. -/
theorem fill_append :
    fill (left ++ middle ++ right) left.length (left.length + middle.length) blank =
      left ++ List.replicate middle.length blank ++ right := by
  refine List.ext_getElem? fun i => ?_
  grind [getElem?_fill]

/-- All cells are replaced. -/
theorem fill_all (cells : Cells) :
    fill cells 0 cells.length blank = List.replicate cells.length blank := by
  have hfill := fill_append [] cells [] blank
  rw [List.nil_append, List.append_nil, List.nil_append, List.append_nil, List.length_nil,
    Nat.zero_add] at hfill
  exact hfill

/-- Those behind the cut are. -/
theorem fill_from :
    fill (left ++ right) (min left.length (left ++ right).length) (left ++ right).length blank =
      left ++ List.replicate right.length blank := by
  have hfill := fill_append left right [] blank
  rw [List.append_nil, List.append_nil] at hfill
  rw [List.length_append, Nat.min_eq_left (Nat.le_add_right _ _), hfill]

/-- Those up to the first one behind the cut are. -/
theorem fill_upTo :
    fill (left ++ right) 0 (min (left.length + 1) (left ++ right).length) blank =
      List.replicate left.length blank ++
        (List.replicate (min 1 right.length) blank ++ right.drop 1) := by
  have hstop : min (left.length + 1) (left ++ right).length = (left ++ right.take 1).length := by
    rw [List.length_append, List.length_append, List.length_take]
    omega
  have hcells : left ++ right = [] ++ (left ++ right.take 1) ++ right.drop 1 := by
    rw [List.nil_append, List.append_assoc, List.take_append_drop]
  have hfill := fill_append [] (left ++ right.take 1) (right.drop 1) blank
  rw [← hcells, List.length_nil, Nat.zero_add] at hfill
  rw [hstop, hfill, List.nil_append, List.length_append, List.length_take,
    ← List.replicate_append_replicate, List.append_assoc]

/-- Blanks move the cells behind the cut to the right. -/
theorem insertBlanks_append :
    insertBlanks (left ++ right) left.length n blank =
      left ++ (List.replicate (min n right.length) blank ++
        right.take (right.length - min n right.length)) := by
  have hcount : min n ((left ++ right).length - left.length) = min n right.length := by
    rw [List.length_append, Nat.add_sub_cancel_left]
  unfold insertBlanks
  dsimp only
  rw [hcount]
  generalize hk : min n right.length = k
  have hlength : (right.drop (right.length - k)).length = k := by
    rw [List.length_drop]
    omega
  have hfill := fill_append left (right.drop (right.length - k)) (right.take (right.length - k))
    blank
  rw [hlength] at hfill
  rw [List.take_left, List.drop_left, rotateRight_eq (by omega), ← List.append_assoc, hfill,
    List.append_assoc]

/-- The cells that are left move up to the cut, and blanks follow them. -/
theorem deleteCells_append :
    deleteCells (left ++ right) left.length n blank =
      left ++ (right.drop (min n right.length) ++
        List.replicate (min n right.length) blank) := by
  have hcount : min n ((left ++ right).length - left.length) = min n right.length := by
    rw [List.length_append, Nat.add_sub_cancel_left]
  unfold deleteCells
  dsimp only
  rw [hcount]
  generalize hk : min n right.length = k
  have hlength : (right.take k).length = k := by
    rw [List.length_take]
    omega
  have hstart : (left ++ right).length - k = (left ++ right.drop k).length := by
    simp only [List.length_append, List.length_drop]
    omega
  have hstop : (left ++ right).length = (left ++ right.drop k).length + k := by
    simp only [List.length_append, List.length_drop]
    omega
  have hfill := fill_append (left ++ right.drop k) (right.take k) [] blank
  rw [hlength, List.append_nil, List.append_nil] at hfill
  rw [hstart, hstop, List.take_left, List.drop_left, rotateLeft_eq (by omega),
    ← List.append_assoc, hfill, List.append_assoc]

/-- The first cells behind the cut are blanked. -/
theorem eraseCells_append :
    eraseCells (left ++ right) left.length n blank =
      left ++ (List.replicate (min n right.length) blank ++ right.drop (min n right.length)) := by
  have hstop : min (left.length + n) (left ++ right).length =
      left.length + (right.take (min n right.length)).length := by
    rw [List.length_append, List.length_take]
    omega
  have hfill := fill_append left (right.take (min n right.length))
    (right.drop (min n right.length)) blank
  rw [List.append_assoc, List.take_append_drop] at hfill
  unfold eraseCells
  rw [hstop, hfill, List.length_take, Nat.min_eq_left (Nat.min_le_right _ _), List.append_assoc]

end Cells

/-- A screen that is cut at a slot: the rows above, the cells of its row before the slot and from it
on, whether that row goes on in the next, and the rows below. -/
structure CutScreen where
  above : List Row
  left : Cells
  right : Cells
  wrapped : Bool
  below : List Row
  deriving DecidableEq

namespace CutScreen

/-- All rows of the screen. -/
def rows (s : CutScreen) : List Row := s.above ++ ⟨s.left ++ s.right, s.wrapped⟩ :: s.below

/-- Opens `n` slots at the cut; as many cells at the end are lost. -/
def insertBlanks (s : CutScreen) (n : Nat) (blank : Cell) : CutScreen :=
  { s with right := List.replicate n blank ++ s.right.take (s.right.length - n) }

/-- Takes out `n` cells from the cut on; as many blanks follow at the end. -/
def deleteCells (s : CutScreen) (n : Nat) (blank : Cell) : CutScreen :=
  { s with right := s.right.drop n ++ List.replicate n blank }

/-- Blanks `n` cells from the cut on. -/
def eraseCells (s : CutScreen) (n : Nat) (blank : Cell) : CutScreen :=
  { s with right := List.replicate n blank ++ s.right.drop n }

/-- Blanks a part of the row: 0 from the cut on, 1 up to the slot behind the cut, 2 all of it.  If
the end of the row is among it, the text no longer goes on in the next row. -/
def eraseInLine (s : CutScreen) (blank : Cell) : Nat → CutScreen
  | 0 => { s with right := List.replicate s.right.length blank, wrapped := false }
  | 1 =>
    { s with
      left := List.replicate s.left.length blank
      right := List.replicate (min 1 s.right.length) blank ++ s.right.drop 1 }
  | 2 =>
    { s with
      left := List.replicate s.left.length blank
      right := List.replicate s.right.length blank
      wrapped := false }
  | _ => s

/-- Blank rows of `cols` cells. -/
def blankRows (cols : Nat) (blank : Cell) (rows : List Row) : List Row :=
  List.replicate rows.length ⟨List.replicate cols blank, false⟩

/-- Blanks a part of the screen: 0 from the cut on, 1 up to the slot behind the cut, 2 and 3 all of
it. -/
def eraseInDisplay (s : CutScreen) (cols : Nat) (blank : Cell) : Nat → CutScreen
  | 0 => { s.eraseInLine blank 0 with below := blankRows cols blank s.below }
  | 1 => { s.eraseInLine blank 1 with above := blankRows cols blank s.above }
  | 2 | 3 =>
    { s.eraseInLine blank 2 with
      above := blankRows cols blank s.above, below := blankRows cols blank s.below }
  | _ => s

/-- The screen has a size: as many rows as it says, and as many cells in each. -/
structure Sized (s : CutScreen) (cols rows : Nat) : Prop where
  length_rows : s.above.length + 1 + s.below.length = rows
  length_cells : s.left.length + s.right.length = cols
  length_above : ∀ r ∈ s.above, r.cells.length = cols
  length_below : ∀ r ∈ s.below, r.cells.length = cols

/-- Blank rows are as wide as the screen. -/
theorem length_blankRows {cols : Nat} {blank : Cell} {rows : List Row} :
    ∀ r ∈ blankRows cols blank rows, r.cells.length = cols := by
  intro r hr
  rw [List.eq_of_mem_replicate hr]
  exact List.length_replicate

/-- Erasing moves nothing. -/
theorem Sized.eraseInDisplay {s : CutScreen} {cols rows : Nat} (h : s.Sized cols rows)
    (blank : Cell) (part : Nat) :
    let erased := s.eraseInDisplay cols blank part
    erased.Sized cols rows ∧ erased.above.length = s.above.length ∧
      erased.left.length = s.left.length := by
  obtain ⟨hrows, hcells, habove, hbelow⟩ := h
  have hright : min 1 s.right.length + (s.right.length - 1) = s.right.length := by omega
  match part with
  | 0 =>
    refine ⟨⟨?_, ?_, habove, length_blankRows⟩, rfl, rfl⟩
    · simpa [CutScreen.eraseInDisplay, eraseInLine, blankRows] using hrows
    · simpa [CutScreen.eraseInDisplay, eraseInLine] using hcells
  | 1 =>
    refine ⟨⟨?_, ?_, length_blankRows, hbelow⟩, List.length_replicate, List.length_replicate⟩
    · simpa [CutScreen.eraseInDisplay, eraseInLine, blankRows] using hrows
    · simpa [CutScreen.eraseInDisplay, eraseInLine, hright] using hcells
  | 2 | 3 =>
    refine ⟨⟨?_, ?_, length_blankRows, length_blankRows⟩, List.length_replicate,
      List.length_replicate⟩
    · simpa [CutScreen.eraseInDisplay, eraseInLine, blankRows] using hrows
    · simpa [CutScreen.eraseInDisplay, eraseInLine] using hcells
  | part + 4 => exact ⟨⟨hrows, hcells, habove, hbelow⟩, rfl, rfl⟩

variable (s : CutScreen) (cols : Nat) (blank : Cell)

/-- **All that precedes the cut and all that follows it** is the whole screen. -/
theorem eraseInDisplay_both :
    (s.eraseInDisplay cols blank 0).eraseInDisplay cols blank 1 =
        s.eraseInDisplay cols blank 2 ∧
      (s.eraseInDisplay cols blank 1).eraseInDisplay cols blank 0 =
        s.eraseInDisplay cols blank 2 := by
  have hright : min 1 s.right.length + (s.right.length - 1) = s.right.length := by omega
  constructor
  · simp [eraseInDisplay, eraseInLine, blankRows, hright]
  · simp [eraseInDisplay, eraseInLine, blankRows, hright]

/-- Clearing rows leaves blank ones in their place. -/
theorem map_clear_eq {rows : List Row} (hcells : ∀ r ∈ rows, r.cells.length = cols) :
    rows.map (fun r => r.clear blank) = blankRows cols blank rows := by
  refine List.eq_replicate_iff.mpr ⟨List.length_map _, fun cleared hcleared => ?_⟩
  obtain ⟨r, hr, rfl⟩ := List.mem_map.mp hcleared
  rw [Row.clear, List.map_const', hcells r hr]

end CutScreen

namespace Page

variable {p : Page} {above below : List Row}

/-- One row is changed. -/
theorem rows_editRow_append {r : Row} {row : Nat} (hrows : p.rows = above ++ r :: below)
    (hrow : above.length = row) (f : Row → Row) :
    (p.editRow row f).rows = above ++ f r :: below := by
  subst hrow
  have hlength : above.length < p.rows.length := by
    rw [hrows, List.length_append, List.length_cons]
    omega
  unfold editRow
  rw [if_pos hlength]
  change p.rows.modify above.length f = _
  rw [List.modify_eq_take_cons_drop hlength]
  simp [hrows]

/-- The rows between two places are cleared. -/
theorem rows_clearRows_append {middle : List Row} {start stop : Nat}
    (hrows : p.rows = above ++ middle ++ below) (hstart : above.length = start)
    (hstop : above.length + middle.length = stop) (blank : Cell) :
    (p.clearRows start stop blank).rows =
      above ++ middle.map (fun r => r.clear blank) ++ below := by
  subst hstart hstop
  refine List.ext_getElem? fun i => ?_
  rw [clearRows, List.getElem?_mapIdx, hrows]
  grind

end Page

end VideoTerminal
