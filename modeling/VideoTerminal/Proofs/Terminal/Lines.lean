import VideoTerminal.Proofs.Screen.Lines
import VideoTerminal.Proofs.Terminal.Confined

/-!
# The four line operations

Scrolling up and down moves the lines of the scroll region, and inserting and removing lines moves
those from the cursor to the end of the region.  What enters is untouched, and what is pushed out is
lost to the screen.  `Terminal.relined_lines` says so for all four, as splices of the list of rows,
and that nothing else of the terminal changes.

All that is asked for is that the region lies on the screen, as on every well-formed terminal.
-/

namespace VideoTerminal

/-- A region that lies on a screen ends where its height says. -/
theorem Region.top_add_height {r : Region} {rows : Nat} (h : r.fits rows = true) :
    r.top + r.height = r.bottom + 1 := by
  simp only [Region.fits, Bool.and_eq_true, decide_eq_true_eq] at h
  rw [Region.height]
  omega

namespace Terminal

/-- `t'` is `t` with other rows on the page that is shown.  The history of that page, and what is to
be drawn of it, is left open. -/
structure Relined (t t' : Terminal) (rows : List Row) : Prop where
  rows_eq : t'.active.rows = rows
  cursor_eq : t'.cursor = t.cursor
  /-- The style, the region, the modes, the other page and all else are those of `t`. -/
  frame : t' = t.modifyActive fun _ => t'.active

/-- Other rows under the same cursor are other lines. -/
theorem relined_modifyActive {t : Terminal} {f : Page → Page} {rows : List Row}
    (hrows : (f t.active).rows = rows) (hcursor : (f t.active).cursor = t.cursor) :
    t.Relined (t.modifyActive f) rows where
  rows_eq := by rw [active_modifyActive, hrows]
  cursor_eq := by rw [cursor_modifyActive, hcursor]
  frame := modifyActive_congr (by rw [active_modifyActive])

/-- Nothing is done. -/
theorem relined_self {t : Terminal} {rows : List Row} (hrows : t.active.rows = rows) :
    t.Relined t rows where
  rows_eq := hrows
  cursor_eq := rfl
  frame := (modifyActive_eq_self rfl).symm

namespace Relined

variable {t t' t'' : Terminal} {rows rows' : List Row}

/-- Other lines leave the region. -/
theorem region_eq (h : t.Relined t' rows) : t'.region = t.region := by
  rw [h.frame, region_modifyActive]

/-- Other lines leave the width. -/
theorem cols_eq (h : t.Relined t' rows) : t'.cols = t.cols := by
  rw [h.frame, cols_modifyActive]

/-- Only the last rows count. -/
theorem trans (h : t.Relined t' rows) (h' : t'.Relined t'' rows') : t.Relined t'' rows' where
  rows_eq := h'.rows_eq
  cursor_eq := h'.cursor_eq.trans h.cursor_eq
  frame := by
    rw [h'.frame, h.frame, modifyActive_modifyActive, active_modifyActive]

end Relined

/-! ## The rows of the region, and those from the cursor on -/

section Lines

variable {t : Terminal} {above lines below : List Row}

/-- The region of a well-formed terminal lies on its screen. -/
theorem WellFormed.fits {cols rows limit : Nat} (h : t.WellFormed cols rows limit) :
    t.region.fits t.active.rows.length = true := by
  simp [Region.fits, h.length_rows, h.bottom_lt, h.top_le_bottom]

/-- **Scrolling up** raises the lines of the region. -/
theorem relined_scrollUp (hfits : t.region.fits t.active.rows.length = true)
    (hrows : t.active.rows = above ++ lines ++ below) (habove : above.length = t.region.top)
    (hlines : lines.length = t.region.height) (n : Nat) :
    t.Relined (t.scrollUp n)
      (above ++ Lines.raised t.cols (min n t.region.height) lines ++ below) := by
  have hend : above.length + lines.length = t.region.bottom + 1 := by
    rw [habove, hlines, Region.top_add_height hfits]
  unfold scrollUp
  dsimp only
  rw [if_pos hfits, ← hlines, ← habove]
  refine relined_modifyActive ?_ ?_
  · exact Page.rows_scrollUp hrows hend (Nat.min_le_right _ _) _
  · exact Page.cursor_scrollUp _ _ _ _ _ _

/-- **Scrolling down** lowers the lines of the region. -/
theorem relined_scrollDown (hfits : t.region.fits t.active.rows.length = true)
    (hrows : t.active.rows = above ++ lines ++ below) (habove : above.length = t.region.top)
    (hlines : lines.length = t.region.height) (n : Nat) :
    t.Relined (t.scrollDown n)
      (above ++ Lines.lowered t.cols (min n t.region.height) lines ++ below) := by
  have hend : above.length + lines.length = t.region.bottom + 1 := by
    rw [habove, hlines, Region.top_add_height hfits]
  unfold scrollDown
  dsimp only
  rw [if_pos hfits, ← hlines, ← habove]
  refine relined_modifyActive ?_ ?_
  · exact Page.rows_scrollDown hrows hend (Nat.min_le_right _ _)
  · exact Page.cursor_scrollDown _ _ _ _ _

/-- **Inserting lines** lowers those from the cursor on. -/
theorem exists_insertLines_relined (hin : t.InRegion)
    (hrows : t.active.rows = above ++ lines ++ below) (habove : above.length = t.cursor.row)
    (hend : above.length + lines.length = t.region.bottom + 1) (n : Nat) :
    ∃ opened, t.insertLines n = .ok opened ∧ t.Relined opened
      (above ++ Lines.lowered t.cols (min n lines.length) lines ++ below) := by
  obtain ⟨htop, hbottom⟩ := hin
  have hcount : t.region.bottom - t.cursor.row + 1 = lines.length := by omega
  have hlength : t.region.bottom < t.active.rows.length := by
    rw [hrows, List.length_append, List.length_append]
    omega
  unfold insertLines
  dsimp only
  rw [if_neg (by omega), if_neg (by omega), hcount, ← habove]
  refine ⟨_, rfl, relined_modifyActive ?_ ?_⟩
  · exact Page.rows_scrollDown hrows hend (Nat.min_le_right _ _)
  · exact Page.cursor_scrollDown _ _ _ _ _

/-- **Deleting lines** raises those from the cursor on. -/
theorem exists_deleteLines_relined (hin : t.InRegion)
    (hrows : t.active.rows = above ++ lines ++ below) (habove : above.length = t.cursor.row)
    (hend : above.length + lines.length = t.region.bottom + 1) (n : Nat) :
    ∃ closed, t.deleteLines n = .ok closed ∧ t.Relined closed
      (above ++ Lines.raised t.cols (min n lines.length) lines ++ below) := by
  obtain ⟨htop, hbottom⟩ := hin
  have hcount : t.region.bottom - t.cursor.row + 1 = lines.length := by omega
  have hlength : t.region.bottom < t.active.rows.length := by
    rw [hrows, List.length_append, List.length_append]
    omega
  unfold deleteLines
  dsimp only
  rw [if_neg (by omega), if_neg (by omega), hcount, ← habove]
  refine ⟨_, rfl, relined_modifyActive ?_ ?_⟩
  · exact Page.rows_scrollUp hrows hend (Nat.min_le_right _ _) _
  · exact Page.cursor_scrollUp _ _ _ _ _ _

/-- Outside the region no lines are opened or removed. -/
theorem lines_of_not_inRegion (hout : ¬ t.InRegion) (n : Nat) :
    t.insertLines n = .ok t ∧ t.deleteLines n = .ok t := by
  have hrow : t.cursor.row < t.region.top ∨ t.region.bottom < t.cursor.row := by
    unfold InRegion at hout
    omega
  unfold insertLines deleteLines
  dsimp only
  rw [if_pos hrow, if_pos hrow]
  exact ⟨rfl, rfl⟩

end Lines

/-- **The four line operations are splices.**  With `region` the rows of the screen that scroll,
scrolling by `n` raises or lowers them by `n`, or by their number if that is less.  With the cursor
in the region and `lines` the rows from it to the end, so do removing and inserting `n` lines with
these; elsewhere they do nothing.  All other rows, the cursor, the style and the other page stay.
Lines that are inserted and then removed again leave all but those that were pushed out. -/
theorem relined_lines {t : Terminal} (hfits : t.region.fits t.active.rows.length = true)
    {above region below : List Row} (hrows : t.active.rows = above ++ region ++ below)
    (habove : above.length = t.region.top) (hregion : region.length = t.region.height) (n : Nat) :
    t.Relined (t.scrollUp n)
        (above ++ Lines.raised t.cols (min n t.region.height) region ++ below) ∧
      t.Relined (t.scrollDown n)
        (above ++ Lines.lowered t.cols (min n t.region.height) region ++ below) ∧
      (¬ t.InRegion → t.insertLines n = .ok t ∧ t.deleteLines n = .ok t) ∧
      (t.InRegion → ∃ kept lines, region = kept ++ lines ∧ (above ++ kept).length = t.cursor.row ∧
        let k := min n (t.region.bottom - t.cursor.row + 1)
        ∃ opened closed back, t.insertLines n = .ok opened ∧ t.deleteLines n = .ok closed ∧
          opened.deleteLines n = .ok back ∧
          t.Relined opened (above ++ kept ++ Lines.lowered t.cols k lines ++ below) ∧
          t.Relined closed (above ++ kept ++ Lines.raised t.cols k lines ++ below) ∧
          t.Relined back (above ++ kept ++ (lines.take (lines.length - k) ++
            List.replicate k (Row.new t.cols)) ++ below)) := by
  refine ⟨relined_scrollUp hfits hrows habove hregion n,
    relined_scrollDown hfits hrows habove hregion n, fun hout => lines_of_not_inRegion hout n,
    fun hin => ?_⟩
  obtain ⟨htop, hbottom⟩ := id hin
  rw [Region.height] at hregion
  -- The region is cut in two above the cursor.
  obtain ⟨kept, lines, rfl, hkept⟩ : ∃ kept lines, region = kept ++ lines ∧
      (above ++ kept).length = t.cursor.row := by
    refine ⟨region.take (t.cursor.row - t.region.top), region.drop (t.cursor.row - t.region.top),
      (List.take_append_drop _ _).symm, ?_⟩
    rw [List.length_append, List.length_take]
    omega
  have hend : (above ++ kept).length + lines.length = t.region.bottom + 1 := by
    rw [List.length_append] at hregion hkept ⊢
    omega
  have hcount : t.region.bottom - t.cursor.row + 1 = lines.length := by omega
  rw [← List.append_assoc above] at hrows
  obtain ⟨opened, hopen, hopened⟩ := exists_insertLines_relined hin hrows hkept hend n
  obtain ⟨closed, hclose, hclosed⟩ := exists_deleteLines_relined hin hrows hkept hend n
  refine ⟨kept, lines, rfl, hkept, opened, closed, ?_⟩
  rw [hcount]
  -- The lines that have been lowered are as many as before, and are raised again.
  generalize hk : min n lines.length = k at hopened hclosed ⊢
  have hlength : (Lines.lowered t.cols k lines).length = lines.length :=
    Lines.length_lowered (by omega)
  have hin' : opened.InRegion := by
    rw [InRegion, hopened.region_eq, hopened.cursor_eq]
    exact hin
  obtain ⟨back, hback, hbacked⟩ := exists_deleteLines_relined hin' hopened.rows_eq
    (hopened.cursor_eq ▸ hkept) (by rw [hlength, hopened.region_eq, hend]) n
  rw [hlength, hk, hopened.cols_eq, Lines.raised_lowered] at hbacked
  exact ⟨back, hopen, hclose, hback, hopened, hclosed, hopened.trans hbacked⟩

/-- Four rows of one cell, of which the last three scroll, with the cursor in the middle of them. -/
def lettered : Terminal :=
  { Terminal.new 1 4 0 with
    primary :=
      { Page.new 1 4 0 with
        rows := [⟨[⟨'a', .empty⟩], false⟩, ⟨[⟨'b', .empty⟩], false⟩, ⟨[⟨'c', .empty⟩], true⟩,
          ⟨[⟨'d', .empty⟩], false⟩]
        cursor := { row := 2 } }
    region := ⟨1, 3⟩ }

/-- The example is well-formed. -/
theorem wellFormed_lettered : lettered.WellFormed 1 4 0 :=
  { WellFormed.new (by decide : Addressable 1 4) 0 with
    primary :=
      { Page.WellFormed.new (by decide : 0 < 4) with
        length_rows := rfl
        length_cells := by decide
        cursor := ⟨by decide, by decide, by simp [lettered]⟩ }
    top_le_bottom := by decide
    bottom_lt := by decide }

/-- Two rows leave at the top, and the last row is lost when one is inserted before it. -/
theorem relined_lines_lettered :
    lettered.region.fits lettered.active.rows.length = true ∧ lettered.InRegion ∧
      (lettered.scrollUp 2).active.rows =
        [⟨[⟨'a', .empty⟩], false⟩, ⟨[⟨'d', .empty⟩], false⟩, Row.new 1, Row.new 1] ∧
      ∃ opened back, lettered.insertLines 1 = .ok opened ∧ opened.deleteLines 1 = .ok back ∧
        back.active.rows = [⟨[⟨'a', .empty⟩], false⟩, ⟨[⟨'b', .empty⟩], false⟩,
          ⟨[⟨'c', .empty⟩], true⟩, Row.new 1] := by
  have hfits := wellFormed_lettered.fits
  have hin : lettered.InRegion := by decide
  have hrows : lettered.active.rows = [⟨[⟨'a', .empty⟩], false⟩] ++
      [⟨[⟨'b', .empty⟩], false⟩, ⟨[⟨'c', .empty⟩], true⟩, ⟨[⟨'d', .empty⟩], false⟩] ++ [] := rfl
  have hsplice := relined_lines hfits hrows rfl rfl
  obtain ⟨kept, lines, hregion, hkept, opened, -, back, hopen, -, hback, -, -, hbacked⟩ :=
    (hsplice 1).2.2.2 hin
  obtain ⟨r, rfl⟩ := List.length_eq_one_iff.mp (Nat.succ.inj hkept : kept.length = 1)
  obtain ⟨rfl, rfl⟩ := List.cons.inj hregion
  exact ⟨hfits, hin, (hsplice 2).1.rows_eq, opened, back, hopen, hback, hbacked.rows_eq⟩

end Terminal

end VideoTerminal
