import VideoTerminal.Proofs.Terminal.Letters
import VideoTerminal.Proofs.Terminal.WellFormed

/-!
# Printing never faults on a well-formed terminal

Printing is the operation that can go wrong: it writes cells, so there must be a row and a slot to
write to, and it adds a width to a column.  On a well-formed terminal it always succeeds and leaves
a well-formed terminal (`exists_putText`).

The column is what has to be watched.  A cursor behind the last column is legal, so each way to
print first makes room: after `makeRoom` the character fits before the margin, and after
`wrapLastCluster` the moved character ends before it.
-/

namespace VideoTerminal.Terminal

/-- The last character of a row starts no later than where the search for it begins. -/
theorem lastClusterStart_le (cells : Cells) (i : Nat) : lastClusterStart cells i ≤ i := by
  induction i with
  | zero => exact Nat.le_refl 0
  | succ i ih =>
      unfold lastClusterStart
      split
      · omega
      · exact Nat.le_refl _

namespace WellFormed

variable {t : Terminal} {cols rows limit : Nat}

/-- What a write covers in part can be blanked on every row of the screen. -/
theorem exists_releaseCovered (h : t.WellFormed cols rows limit) {row : Nat} (hrow : row < rows)
    (col width : Nat) :
    ∃ t', t.releaseCovered row col width = .ok t' ∧ t'.WellFormed cols rows limit ∧
      t'.cursor = t.cursor := by
  have hlt : row < t.active.rows.length := h.length_rows ▸ hrow
  refine ⟨_, if_pos hlt, ?_, ?_⟩
  · refine h.modifyActive fun _ hp => hp.modifyRow row ?_
    intro r hr
    rw [Cells.length_releaseCovered]
    exact hr
  · rw [cursor_modifyActive, Page.cursor_modifyRow]
    rfl

/-- Before the margin there is a slot for an attached character. -/
theorem exists_attachHere (h : t.WellFormed cols rows limit) (hcol : t.cursor.col < cols)
    (c : Char) : ∃ t', t.attachHere c = .ok t' ∧ t'.WellFormed cols rows limit := by
  obtain ⟨r, hr, hlen⟩ := h.exists_cursorRow
  unfold attachHere
  simp only [hr, hlen, if_pos hcol]
  refine ⟨_, rfl, ?_⟩
  refine h.modifyActive fun _ hp => ((hp.modifyRow _ ?_).markDirty _).moveToCol hcol
  intro old hold
  dsimp only
  split
  · split
    · rw [List.length_set, List.length_set]
      exact hlen
    · rw [List.length_set]
      exact hlen
  · rw [List.length_set]
    exact hlen

/-- The last character of the cursor's row is moved down, and the cursor then stands right behind
it, before the margin. -/
theorem exists_wrapLastCluster (h : t.WellFormed cols rows limit) :
    ∃ moved, t.wrapLastCluster = .ok moved ∧
      ∀ t' ∈ moved, t'.WellFormed cols rows limit ∧ t'.cursor.col < cols := by
  obtain ⟨r, hr, hlen⟩ := h.exists_cursorRow
  have hcols := h.cols_eq
  unfold wrapLastCluster
  simp only [hr, hcols, hlen, Nat.min_self]
  have hstart := lastClusterStart_le r.cells (cols - 1)
  generalize lastClusterStart r.cells (cols - 1) = start at hstart
  by_cases hzero : start = 0
  · rw [if_pos hzero]
    exact ⟨none, rfl, by simp⟩
  · rw [if_neg hzero]
    generalize hmoved : (r.cells.take cols).drop start = moved
    have hshort : moved.length < cols := by
      rw [← hmoved, List.length_drop, List.length_take, hlen, Nat.min_self]
      omega
    -- The row that loses its last character, with the cursor at its start, and the row below it.
    have hempty : (t.modifyActive fun p =>
        ((p.modifyRow t.cursor.row fun r =>
          ⟨Cells.fill r.cells start cols t.blank, true⟩).markDirty
            t.cursor.row).moveToCol 0).WellFormed cols rows limit := by
      refine h.modifyActive fun _ hp =>
        ((hp.modifyRow _ ?_).markDirty _).moveToCol (Nat.zero_le cols)
      intro old hold
      rw [Cells.length_fill]
      exact hold
    have hbelow := hempty.index
    obtain ⟨released, hok, hreleased, -⟩ :=
      hbelow.exists_releaseCovered hbelow.cursor.row_lt 0 moved.length
    refine ⟨_, by rw [hok]; rfl, ?_⟩
    intro t' ht'
    obtain rfl := Option.some.inj ht'
    constructor
    · refine hreleased.modifyActive fun _ hp =>
        ((hp.modifyRow _ ?_).markDirty _).moveToCol (Nat.le_of_lt hshort)
      intro old hold
      simp only [List.length_append, List.length_take, List.length_drop]
      omega
    · rw [cursor_modifyActive]
      exact hshort

/-- Attaching a mark never fails on a well-formed terminal. -/
theorem exists_attach (h : t.WellFormed cols rows limit) (c : Char) :
    ∃ t', t.attach c = .ok t' ∧ t'.WellFormed cols rows limit := by
  have hrow : ¬ t.active.rows.length ≤ t.cursor.row := by
    have hlt := h.cursor.row_lt
    have hlen := h.length_rows
    omega
  unfold attach
  rw [if_neg hrow, h.cols_eq]
  by_cases hmargin : cols ≤ t.cursor.col
  · rw [if_pos hmargin]
    split
    · obtain ⟨moved, hok, hmoved⟩ := h.exists_wrapLastCluster
      rw [hok]
      cases moved with
      | none => exact ⟨t, rfl, h⟩
      | some t' =>
          obtain ⟨ht', hcol⟩ := hmoved t' rfl
          exact ht'.exists_attachHere hcol c
    · exact ⟨t, rfl, h⟩
  · rw [if_neg hmargin]
    exact h.exists_attachHere (by omega) c

/-- Wrapping never fails on a well-formed terminal, and takes the cursor to the first column. -/
theorem exists_wrapRow (h : t.WellFormed cols rows limit) :
    ∃ t', t.wrapRow = .ok t' ∧ t'.WellFormed cols rows limit ∧ t'.cursor.col = 0 := by
  have hlt : t.cursor.row < t.active.rows.length := h.length_rows ▸ h.cursor.row_lt
  refine ⟨_, if_pos hlt, ?_, ?_⟩
  · refine index (h.modifyActive fun _ hp => (hp.modifyRow _ ?_).moveToCol (Nat.zero_le cols))
    exact fun old hold => hold
  · rw [col_index, cursor_modifyActive]
    rfl

/-- After room has been made, a character of the given width ends before the margin. -/
theorem exists_makeRoom (h : t.WellFormed cols rows limit) {width : Nat} (hwidth : width ≤ 2)
    (hfit : width ≤ cols) :
    ∃ t', t.makeRoom width = .ok t' ∧ t'.WellFormed cols rows limit ∧
      t'.cursor.col + width ≤ cols := by
  have hcol := h.cursor.col_le
  have hmax := h.addressable.cols_le
  have hstop : coordinate (t.cursor.col + width) = .ok (t.cursor.col + width) :=
    coordinate_eq_ok_iff.mpr ⟨by omega, rfl⟩
  have hcols := h.cols_eq
  unfold makeRoom
  rw [hstop]
  change ∃ t', (if t.cols < t.cursor.col + width then _ else _) = Except.ok t' ∧ _
  by_cases hover : t.cols < t.cursor.col + width
  · rw [if_pos hover]
    split
    · obtain ⟨t', hok, ht', hzero⟩ := h.exists_wrapRow
      exact ⟨t', hok, ht', by omega⟩
    · refine ⟨_, rfl, h.moveToCol (by omega), ?_⟩
      rw [cursor_modifyActive]
      change t.cols - width + width ≤ cols
      omega
  · rw [if_neg hover]
    exact ⟨t, rfl, h, by omega⟩

/-- A character that ends before the margin is written into cells of the cursor's row. -/
theorem exists_writeHere (h : t.WellFormed cols rows limit) {width : Nat} (hpos : 0 < width)
    (hfit : t.cursor.col + width ≤ cols) (c : Char) :
    ∃ t', t.writeHere c width = .ok t' ∧ t'.WellFormed cols rows limit := by
  obtain ⟨r, hr, hlen⟩ := h.exists_cursorRow
  unfold writeHere
  simp only [hr, hlen]
  rw [if_neg (by omega), if_neg (by omega)]
  refine ⟨_, rfl, ?_⟩
  refine h.modifyActive fun _ hp => ((hp.modifyRow _ ?_).markDirty _).moveToCol hfit
  intro old hold
  dsimp only
  split
  · rw [List.length_set, List.length_set]
    exact hlen
  · rw [List.length_set]
    exact hlen

/-- **Printing a character never fails** on a well-formed terminal. -/
theorem exists_putChar (h : t.WellFormed cols rows limit) (c : Char) :
    ∃ t', t.putChar c = .ok t' ∧ t'.WellFormed cols rows limit := by
  rw [putChar_eq]
  cases hw : Text.columns? c with
  | none => exact ⟨t, rfl, h⟩
  | some w =>
      dsimp only [Option.elim_some]
      by_cases hattach : w = 0 ∨ extendsPrevious t.previousScalar? c
      · rw [if_pos hattach]
        exact h.exists_attach c
      · rw [if_neg hattach, putLead, h.cols_eq]
        by_cases hwide : cols < w
        · rw [if_pos hwide]
          exact ⟨t, rfl, h⟩
        · rw [if_neg hwide]
          have hpos : 0 < w := Nat.pos_of_ne_zero fun hzero => hattach (.inl hzero)
          obtain ⟨roomy, hroom, hroomy, hfit⟩ :=
            h.exists_makeRoom (Text.columns?_le_two hw) (Nat.not_lt.mp hwide)
          -- Inserting blanks moves cells to the right and leaves the cursor.
          obtain ⟨shifted, hshift, hshifted, hcursor⟩ : ∃ shifted,
              (if roomy.has .insertMode then roomy.insertChars w else roomy) = shifted ∧
                shifted.WellFormed cols rows limit ∧ shifted.cursor = roomy.cursor := by
            refine ⟨_, rfl, ?_⟩
            split
            · exact ⟨hroomy.insertChars w, cursor_insertChars roomy w⟩
            · exact ⟨hroomy, rfl⟩
          obtain ⟨released, hrelease, hreleased, hsame⟩ :=
            hshifted.exists_releaseCovered hshifted.cursor.row_lt shifted.cursor.col w
          have hfits : released.cursor.col + w ≤ cols := by
            rw [hsame, hcursor]
            exact hfit
          obtain ⟨t', hwrite, ht'⟩ := hreleased.exists_writeHere hpos hfits c
          refine ⟨t', ?_, ht'⟩
          calc t.makeRoom w >>= _
              = released.writeHere c w := by
                rw [hroom]
                change (Terminal.releaseCovered _ _ _ w >>= _) = _
                rw [hshift, hrelease]
                rfl
            _ = .ok t' := hwrite

/-- Any text can be printed. -/
theorem exists_putText (h : t.WellFormed cols rows limit) (text : List Char) :
    ∃ t', t.putText text = .ok t' ∧ t'.WellFormed cols rows limit := by
  simp only [putText_eq]
  induction text generalizing t with
  | nil => exact ⟨t, rfl, h⟩
  | cons c rest ih =>
      obtain ⟨middle, hok, hmiddle⟩ := h.exists_putChar c
      obtain ⟨t', hrest, ht'⟩ := ih hmiddle
      exact ⟨t', by rw [List.foldlM_cons, hok]; exact hrest, ht'⟩

end WellFormed

end VideoTerminal.Terminal
