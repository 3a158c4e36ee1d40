import VideoTerminal.Proofs.Terminal.Slots

/-!
# Letters that take the place of others

A letter of the seven-bit alphabet takes one column and begins a new character.  Where it is printed
over another one, and no mark follows, only its own slot changes (`Terminal.putChar_eq_overwrite`).
So a run of such letters can be written at once, and printing a text is printing its characters one
after the other (`Terminal.putText_eq`).
-/

namespace VideoTerminal

namespace Text

variable {c : Char}

/-- A letter of the seven-bit alphabet takes one column. -/
theorem columns?_of_isPrintable7 (h : isPrintable7 c = true) : columns? c = some 1 := by
  have hcontrol := isControl_of_isPrintable7 h
  simp only [isPrintable7, Bool.and_eq_true, decide_eq_true_eq] at h
  have hlow : c.toNat < 0xAD := by omega
  simp [columns?, width?, hcontrol, hlow]

end Text

/-- Letters begin new characters. -/
theorem extendsPrevious_of_isPrintable7 {c : Char} (h : Text.isPrintable7 c = true)
    (previous : Option Char) : extendsPrevious previous c = false := by
  have hwidth := Text.columns?_of_isPrintable7 h
  have hzero : Text.width? c ≠ some 0 := fun hzero => by
    rw [(Text.columns?_eq_zero_iff c).mpr hzero] at hwidth
    cases hwidth
  simp only [Text.isPrintable7, Bool.and_eq_true, decide_eq_true_eq] at h
  have hne : ∀ d : Char, 0x7F ≤ d.toNat → (c == d) = false := by
    intro d hd
    refine beq_eq_false_iff_ne.mpr ?_
    rintro rfl
    omega
  unfold extendsPrevious
  rw [hne wideTail (by decide), hne '\uFE0E' (by decide), hne '\uFE0F' (by decide),
    hne zeroWidthJoiner (by decide), hne '\u2640' (by decide), hne '\u2642' (by decide)]
  simp only [Bool.or_false, Bool.false_eq_true, if_false]
  rw [if_neg (by omega), beq_eq_false_iff_ne.mpr hzero]

namespace Cells

/-- Where a letter stands, and no mark behind it, nothing is released. -/
theorem releaseCovered_of_isPrintable7 {front back : Cells} {cell : Cell}
    (hcell : Text.isPrintable7 cell.char = true)
    (hback : (back.head?.all fun next => Text.isPrintable7 next.char) = true) (blank : Cell) :
    releaseCovered (front ++ cell :: back) front.length 1 blank = front ++ cell :: back := by
  have htail : line (front ++ cell :: back) front.length ≠ some wideTail := by
    intro heq
    have hchar : cell.char = wideTail := by simpa [line] using heq
    rw [hchar] at hcell
    exact absurd hcell (by decide)
  have hend : attachedEnd (front ++ cell :: back)
      ((front ++ cell :: back).length - (front.length + 1)) (front.length + 1) =
        front.length + 1 := by
    cases back with
    | nil => simp [attachedEnd]
    | cons next back =>
        have hnext : Text.isPrintable7 next.char = true := hback
        have hlead : isAttached (front ++ cell :: next :: back) (front.length + 1) = false := by
          have hchar : line (front ++ cell :: next :: back) (front.length + 1) = some next.char := by
            simp [line]
          rw [isAttached, Line.isStructural, hchar]
          exact extendsPrevious_of_isPrintable7 hnext _
        obtain ⟨count, hcount⟩ : ∃ count,
            (front ++ cell :: next :: back).length - (front.length + 1) = count + 1 :=
          ⟨back.length, by simp; omega⟩
        rw [hcount, attachedEnd, hlead, if_neg Bool.false_ne_true]
  have hlt : front.length < (front ++ cell :: back).length := by simp
  unfold releaseCovered
  rw [if_pos hlt, if_neg htail]
  dsimp only
  rw [Nat.min_eq_left hlt, hend, fill_self]

/-- Behind the cells in front. -/
theorem replaceAt_append (front cells written : Cells) :
    replaceAt (front ++ cells) front.length written =
      front ++ written ++ cells.drop written.length := by
  rw [replaceAt, List.take_left, ← List.drop_drop, List.drop_left]

/-- One cell and then others. -/
theorem replaceAt_replaceAt (front back : Cells) (cell x : Cell) (written : Cells) :
    replaceAt (replaceAt (front ++ cell :: back) front.length [x]) (front.length + 1) written =
      replaceAt (front ++ cell :: back) front.length (x :: written) := by
  have hnext := replaceAt_append (front ++ [x]) back written
  rw [List.length_append, List.length_singleton] at hnext
  rw [replaceAt_append, replaceAt_append, List.length_singleton, List.drop_succ_cons, List.drop_zero,
    hnext, List.length_cons, List.drop_succ_cons]
  simp

/-- No more letters than there are in the text. -/
theorem overwritable_le (text : List Char) (cells : Cells) :
    overwritable text cells ≤ text.length := by
  induction text generalizing cells with
  | nil => exact Nat.le_of_eq (by cases cells <;> rfl)
  | cons c text ih =>
      cases cells with
      | nil => exact Nat.zero_le _
      | cons cell cells =>
          unfold overwritable
          split
          · exact Nat.succ_le_succ (ih cells)
          · exact Nat.zero_le _

/-- Those letters themselves can all take the place of cells. -/
theorem overwritable_take (text : List Char) (cells : Cells) :
    overwritable (text.take (overwritable text cells)) cells = overwritable text cells := by
  induction text generalizing cells with
  | nil => cases cells <;> rfl
  | cons c text ih =>
      cases cells with
      | nil => rfl
      | cons cell cells =>
          by_cases hletters : (Text.isPrintable7 c && Text.isPrintable7 cell.char &&
              cells.head?.all fun next => Text.isPrintable7 next.char) = true
          · rw [overwritable, if_pos hletters, List.take_succ_cons, overwritable, if_pos hletters, ih]
          · rw [overwritable, if_neg hletters, List.take_zero]
            rfl

end Cells

/-- Only what is made of the element itself counts. -/
theorem modify_congr {α : Type} {l : List α} {i : Nat} {a : α} {f g : α → α} (ha : l[i]? = some a)
    (h : f a = g a) : l.modify i f = l.modify i g := by
  refine List.ext_getElem? fun j => ?_
  by_cases hj : i = j
  · subst hj
    rw [List.getElem?_modify_eq, List.getElem?_modify_eq, ha]
    exact congrArg some h
  · rw [List.getElem?_modify_ne _ _ hj, List.getElem?_modify_ne _ _ hj]

namespace Page

variable {p : Page} {row : Nat} {r : Row} {f : Row → Row}

/-- A row may be left as it is. -/
theorem modifyRow_eq_self (hr : p.rows[row]? = some r) (h : f r = r) : p.modifyRow row f = p := by
  rw [modifyRow, modify_congr hr (g := id) h, List.modify_id]

/-- A row that has been recorded stays so. -/
theorem insertLine_insertLine (line : Nat) (lines : List Nat) :
    insertLine line (insertLine line lines) = insertLine line lines := by
  induction lines with
  | nil => simp [insertLine]
  | cons m rest ih =>
      by_cases hlt : line < m
      · simp [insertLine, hlt]
      · by_cases heq : line = m
        · simp [insertLine, heq]
        · simp [insertLine, hlt, heq, ih]

end Page

namespace Terminal

variable {t : Terminal} {r : Row} {front back : Cells} {cell : Cell} {c : Char}

/-- Overwriting with a text is overwriting with its first letter and then with the rest. -/
theorem overwrite_cons (t : Terminal) (c : Char) (text : List Char) :
    t.overwrite (c :: text) = t.modifyActive fun p =>
      ((p.modifyRow t.cursor.row fun r =>
        { r with
          cells := Cells.replaceAt r.cells t.cursor.col
            ((c :: text).map fun c => ⟨c, t.style⟩) }).markDirty t.cursor.row).moveToCol
          (t.cursor.col + (text.length + 1)) := rfl

/-- **A letter over a letter** changes its own slot only. -/
theorem putChar_eq_overwrite (hinsert : t.has .insertMode = false)
    (hr : t.active.rows[t.cursor.row]? = some r) (hcells : r.cells = front ++ cell :: back)
    (hcol : t.cursor.col = front.length) (hcols : t.cursor.col < t.cols)
    (hmax : t.cursor.col < maxCoordinate) (hc : Text.isPrintable7 c = true)
    (hcell : Text.isPrintable7 cell.char = true)
    (hback : (back.head?.all fun next => Text.isPrintable7 next.char) = true) :
    t.putChar c = .ok (t.overwrite [c]) := by
  have hrow : t.cursor.row < t.active.rows.length := (List.getElem?_eq_some_iff.mp hr).1
  have hlt : t.cursor.col < r.cells.length := by
    rw [hcells, hcol]
    simp
  have hroom : t.makeRoom 1 = .ok t := by
    rw [makeRoom_of_le (Nat.succ_le_of_lt hmax), if_neg (by omega)]
  have hreleased : t.releaseCovered t.cursor.row t.cursor.col 1 = .ok t := by
    refine (if_pos hrow).trans (congrArg Except.ok (modifyActive_eq_self ?_))
    refine Page.modifyRow_eq_self hr ?_
    rw [hcells, hcol, Cells.releaseCovered_of_isPrintable7 hcell hback, ← hcells]
  have hset : r.cells.set t.cursor.col ⟨c, t.style⟩ =
      Cells.replaceAt r.cells t.cursor.col [⟨c, t.style⟩] := by
    rw [hcells, hcol, Cells.replaceAt_append]
    simp
  rw [putChar_of_makeRoom_ok (Text.columns?_of_isPrintable7 hc)
    (extendsPrevious_of_isPrintable7 hc _) (by omega) hroom hinsert, hreleased]
  change t.writeHere c 1 = _
  unfold writeHere
  simp only [hr, if_neg (Nat.not_le.mpr hlt), Nat.reduceEqDiff, false_and, if_false]
  rw [overwrite_cons, hset]
  refine congrArg Except.ok (modifyActive_congr ?_)
  exact congrArg (fun rows : List Row =>
    (({ t.active with rows := rows } : Page).markDirty t.cursor.row).moveToCol (t.cursor.col + 1))
    (modify_congr hr rfl)

/-- A letter and then others are all of them at once. -/
theorem overwrite_overwrite (hr : t.active.rows[t.cursor.row]? = some r)
    (hcells : r.cells = front ++ cell :: back) (hcol : t.cursor.col = front.length) (c : Char)
    (text : List Char) : (t.overwrite [c]).overwrite text = t.overwrite (c :: text) := by
  cases text with
  | nil => rfl
  | cons d text =>
      rw [overwrite_cons t c [], overwrite_cons, overwrite_cons, modifyActive_modifyActive,
        cursor_modifyActive, style_modifyActive]
      refine modifyActive_congr ?_
      have hcursor : t.active.cursor = t.cursor := rfl
      simp only [Page.modifyRow, Page.markDirty, Page.moveToCol, Page.insertLine_insertLine,
        List.modify_modify_eq, hcursor, Page.mk.injEq]
      refine ⟨modify_congr hr ?_, trivial, trivial, trivial, trivial, trivial, ?_⟩
      · have hreplaced := Cells.replaceAt_replaceAt front back cell ⟨c, t.style⟩
          ((d :: text).map fun c => ⟨c, t.style⟩)
        rw [← hcells, ← hcol] at hreplaced
        exact congrArg (fun cells : Cells => (⟨cells, r.wrapped⟩ : Row)) hreplaced
      · simp
        omega

/-- The row of the cursor with one letter more. -/
theorem getElem?_cursorRow_overwrite (hr : t.active.rows[t.cursor.row]? = some r)
    (hcells : r.cells = front ++ cell :: back) (hcol : t.cursor.col = front.length) (c : Char) :
    (t.overwrite [c]).active.rows[(t.overwrite [c]).cursor.row]? =
      some { r with cells := (front ++ [⟨c, t.style⟩]) ++ back } := by
  have hreplaced := Cells.replaceAt_append front (cell :: back) [⟨c, t.style⟩]
  rw [← hcells, ← hcol] at hreplaced
  rw [overwrite_cons, active_modifyActive, cursor_modifyActive]
  refine (List.getElem?_modify_eq ..).trans ?_
  rw [hr]
  exact congrArg (fun cells : Cells => some (⟨cells, r.wrapped⟩ : Row)) hreplaced

/-- **Letters over letters** take the place of these, all at once. -/
theorem foldlM_putChar_eq_overwrite {cells : Cells} {text : List Char}
    (hinsert : t.has .insertMode = false)
    (hr : t.active.rows[t.cursor.row]? = some r) (hcells : r.cells = front ++ cells)
    (hcol : t.cursor.col = front.length) (hcols : t.cursor.col + text.length ≤ t.cols)
    (hmax : t.cursor.col + text.length ≤ maxCoordinate)
    (hover : Cells.overwritable text cells = text.length) :
    text.foldlM putChar t = .ok (t.overwrite text) := by
  induction text generalizing t r front cells with
  | nil => rfl
  | cons c text ih =>
      cases cells with
      | nil => cases hover
      | cons cell cells =>
          unfold Cells.overwritable at hover
          split at hover
          · next hletters =>
            simp only [Bool.and_eq_true] at hletters
            rw [List.length_cons] at hover hcols hmax
            have hput := putChar_eq_overwrite hinsert hr hcells hcol (by omega) (by omega)
              hletters.1.1 hletters.1.2 hletters.2
            have hcol' : (t.overwrite [c]).cursor.col = t.cursor.col + 1 := by
              rw [overwrite_cons, cursor_modifyActive]
              rfl
            have hcols' : (t.overwrite [c]).cols = t.cols := by
              rw [overwrite_cons, cols_modifyActive]
            have hinsert' : (t.overwrite [c]).has .insertMode = false := by
              rw [overwrite_cons, has_modifyActive]
              exact hinsert
            have hnext := ih hinsert' (getElem?_cursorRow_overwrite hr hcells hcol c) rfl
              (by rw [hcol', hcol, List.length_append, List.length_singleton])
              (by rw [hcol', hcols']; omega) (by rw [hcol']; omega) (Nat.succ.inj hover)
            rw [List.foldlM_cons, hput]
            exact hnext.trans (congrArg _ (overwrite_overwrite hr hcells hcol c text))
          · cases hover

/-- As many characters as take the place of cells are written. -/
theorem foldlM_putChar_take_overwritable (t : Terminal) (text : List Char) :
    (text.take (t.overwritable text)).foldlM putChar t =
      .ok (t.overwrite (text.take (t.overwritable text))) := by
  by_cases hzero : t.overwritable text = 0
  · rw [hzero]
    rfl
  · unfold overwritable at hzero ⊢
    by_cases hinsert : t.has .insertMode = true
    · exact absurd (if_pos hinsert) hzero
    · rw [if_neg hinsert] at hzero ⊢
      cases hr : t.active.rows[t.cursor.row]? with
      | none => exact absurd (by rw [hr]; rfl) hzero
      | some r =>
          rw [hr, Option.elim_some] at hzero
          rw [Option.elim_some]
          generalize hroom : min t.cols maxCoordinate - t.cursor.col = room at hzero ⊢
          generalize hn : Cells.overwritable (text.take room) (r.cells.drop t.cursor.col) = n
            at hzero ⊢
          have hle := Cells.overwritable_le (text.take room) (r.cells.drop t.cursor.col)
          rw [hn, List.length_take] at hle
          have htake : (text.take room).take n = text.take n := by
            rw [List.take_take, Nat.min_eq_left (by omega)]
          have hcount := Cells.overwritable_take (text.take room) (r.cells.drop t.cursor.col)
          rw [hn, htake] at hcount
          have hlen : (text.take n).length = n := List.length_take_of_le (by omega)
          have hcol : t.cursor.col ≤ r.cells.length := by
            refine Nat.le_of_not_lt fun hlt => hzero ?_
            rw [← hn, List.drop_eq_nil_of_le (Nat.le_of_lt hlt)]
            cases text.take room <;> rfl
          exact foldlM_putChar_eq_overwrite (Bool.eq_false_iff.mpr hinsert) hr
            (List.take_append_drop t.cursor.col r.cells).symm (List.length_take_of_le hcol).symm
            (by omega) (by omega) (hcount.trans hlen.symm)

/-- **Printing a text** is printing its characters one after the other. -/
theorem putText_eq (t : Terminal) (text : List Char) : t.putText text = text.foldlM putChar t := by
  unfold putText
  dsimp only
  conv =>
    rhs
    rw [← List.take_append_drop (t.overwritable text) text, List.foldlM_append,
      t.foldlM_putChar_take_overwritable text]
  rfl

/-- Printing nothing changes nothing. -/
theorem putText_nil (t : Terminal) : t.putText [] = .ok t := t.putText_eq []

end Terminal

end VideoTerminal
