import VideoTerminal.Proofs.Line.Splits
import VideoTerminal.Proofs.Screen.Slots

/-!
# Edits of a row of cells

Each edit of a row cuts it at one or two slots and puts the parts together again with blanks
(`Cells.slots_insertBlanks`, `Cells.slots_deleteCells`, `Row.slots_resize`).  A row of whole
characters stays so exactly if no cut splits a wide character, which the edits do not look for
(`Cells.whole_fill_iff`, `Cells.whole_insertBlanks_iff`, `Cells.whole_deleteCells_iff`,
`Row.whole_resize_iff`).
-/

namespace VideoTerminal

namespace Slots

/-- Two places cut a row into three parts. -/
theorem exists_parts (slots : List Char) {start stop : Nat} (hle : start ≤ stop)
    (hstop : stop ≤ slots.length) :
    ∃ front middle back, slots = front ++ middle ++ back ∧ front.length = start ∧
      start + middle.length = stop := by
  refine ⟨slots.take start, (slots.drop start).take (stop - start), slots.drop stop, ?_, ?_, ?_⟩
  · rw [← List.take_add, Nat.add_sub_cancel' hle, List.take_append_drop]
  · rw [List.length_take]
    omega
  · rw [List.length_take, List.length_drop]
    omega

/-- The first of the two places splits a character. -/
theorem splitAt_start_iff (front middle back : List Char) :
    SplitAt (front ++ middle ++ back) front.length ↔ Splits front (middle ++ back) := by
  rw [List.append_assoc, splitAt_append_iff]

/-- The second does. -/
theorem splitAt_stop_iff (front middle back : List Char) :
    SplitAt (front ++ middle ++ back) (front.length + middle.length) ↔
      Splits (front ++ middle) back := by
  rw [← List.length_append, splitAt_append_iff]

end Slots

namespace Cells

variable {cells : Cells} {blank : Cell} {front middle back : List Char}

/-- Turning by no more than the whole row moves its end to the front. -/
theorem rotateRight_eq {k : Nat} (hk : k ≤ cells.length) :
    cells.rotateRight k = cells.drop (cells.length - k) ++ cells.take (cells.length - k) := by
  unfold List.rotateRight
  dsimp only
  rcases Nat.eq_or_lt_of_le hk with rfl | hlt
  · simp
  · rw [Nat.mod_eq_of_lt hlt]
    split
    · next hle =>
      obtain rfl : k = 0 := by omega
      simp
    · rfl

/-- Rotating takes cells from the front to the back. -/
theorem rotateLeft_eq {k : Nat} (hk : k ≤ cells.length) :
    cells.rotateLeft k = cells.drop k ++ cells.take k := by
  unfold List.rotateLeft
  dsimp only
  rcases Nat.eq_or_lt_of_le hk with rfl | hlt
  · simp
  · rw [Nat.mod_eq_of_lt hlt]
    split
    · next hle =>
      obtain rfl : k = 0 := by omega
      simp
    · rfl

/-- The first cells have the first slots. -/
theorem slots_take (h : cells.slots = front ++ back) : slots (cells.take front.length) = front := by
  rw [slots, List.map_take]
  change cells.slots.take _ = _
  rw [h, List.take_left]

/-- Rotating to the right takes the last slots to the front. -/
theorem slots_rotateRight (h : cells.slots = middle ++ back) :
    slots (cells.rotateRight back.length) = back ++ middle := by
  have hlength : cells.length = middle.length + back.length := by
    rw [← length_slots, h, List.length_append]
  have hcount : cells.length - back.length = middle.length := by omega
  rw [rotateRight_eq (by omega), hcount, slots_append, slots_drop h, slots_take h]

/-- Rotating to the left takes the first slots to the back. -/
theorem slots_rotateLeft (h : cells.slots = middle ++ back) :
    slots (cells.rotateLeft middle.length) = back ++ middle := by
  have hlength : cells.length = middle.length + back.length := by
    rw [← length_slots, h, List.length_append]
  rw [rotateLeft_eq (by omega), slots_append, slots_drop h, slots_take h]

/-- A row in three parts is as long as they are together. -/
theorem length_of_parts (h : cells.slots = front ++ middle ++ back) :
    cells.length = front.length + middle.length + back.length := by
  rw [← length_slots, h, List.length_append, List.length_append]

/-- Slots are moved to the right, and those at the end are lost. -/
theorem slots_insertBlanks {n : Nat} (hblank : blank.char = ' ')
    (h : cells.slots = front ++ middle ++ back)
    (hn : min n (middle.length + back.length) = back.length) :
    slots (insertBlanks cells front.length n blank) =
      front ++ List.replicate back.length ' ' ++ middle := by
  have hlength := length_of_parts h
  have hk : min n (cells.length - front.length) = back.length := by omega
  rw [List.append_assoc] at h
  have hturned : slots (cells.take front.length ++
      (cells.drop front.length).rotateRight back.length) = front ++ back ++ middle := by
    rw [slots_append, slots_take h, slots_rotateRight (slots_drop h), List.append_assoc]
  unfold insertBlanks
  dsimp only
  rw [hk, slots_fill blank hturned, hblank]

/-- Slots are taken out, and blanks come in at the end. -/
theorem slots_deleteCells {n : Nat} (hblank : blank.char = ' ')
    (h : cells.slots = front ++ middle ++ back)
    (hn : min n (middle.length + back.length) = middle.length) :
    slots (deleteCells cells front.length n blank) =
      front ++ back ++ List.replicate middle.length ' ' := by
  have hlength := length_of_parts h
  have hk : min n (cells.length - front.length) = middle.length := by omega
  rw [List.append_assoc] at h
  have hturned : slots (cells.take front.length ++
      (cells.drop front.length).rotateLeft middle.length) = front ++ back ++ middle ++ [] := by
    rw [slots_append, slots_take h, slots_rotateLeft (slots_drop h), List.append_nil,
      List.append_assoc]
  -- Of the row as it is now, the blanks are the end.
  have hstart : cells.length - middle.length = (front ++ back).length := by
    rw [List.length_append]
    omega
  have hstop : cells.length = (front ++ back).length + middle.length := by
    rw [List.length_append]
    omega
  unfold deleteCells
  dsimp only
  rw [hk, hstart, hstop, slots_fill blank hturned, hblank, List.append_nil]

/-! ## Whole rows -/

/-- **Blanking cells.** -/
theorem whole_fill_iff {start stop : Nat} (hblank : blank.char = ' ') (h : Slots.Whole cells.slots)
    (hle : start ≤ stop) (hstop : stop ≤ cells.length) :
    Slots.Whole (slots (fill cells start stop blank)) ↔
      ¬ (start < stop ∧ (Slots.SplitAt cells.slots start ∨ Slots.SplitAt cells.slots stop)) := by
  obtain ⟨front, middle, back, hparts, rfl, rfl⟩ :=
    Slots.exists_parts cells.slots hle (by rwa [length_slots])
  rw [slots_fill blank hparts, hblank]
  rw [hparts] at h ⊢
  have hnil : middle ≠ [] ↔ front.length < front.length + middle.length := by
    rw [Nat.lt_add_right_iff_pos, List.length_pos_iff]
  rw [h.whole_erase_iff, hnil, Slots.splitAt_start_iff, Slots.splitAt_stop_iff]

/-- **Erasing cells.** -/
theorem whole_eraseCells_iff {col : Nat} (hblank : blank.char = ' ') (h : Slots.Whole cells.slots)
    (hcol : col ≤ cells.length) (n : Nat) :
    Slots.Whole (slots (eraseCells cells col n blank)) ↔
      ¬ Slots.EraseBreaks cells.slots col n := by
  have hmin : Slots.SplitAt cells.slots (min (col + n) cells.length) ↔
      Slots.SplitAt cells.slots (col + n) := cells.length_slots ▸ Slots.splitAt_min_length
  rw [eraseCells, whole_fill_iff hblank h (by omega) (by omega), hmin, Slots.EraseBreaks]
  refine not_congr (and_congr_left fun hsplit => ?_)
  have hcol : col < cells.length := by
    rw [← length_slots]
    rcases hsplit with hstart | hend
    · exact hstart.lt_length
    · exact Nat.lt_of_le_of_lt (Nat.le_add_right col n) hend.lt_length
  omega

/-- **Inserting blanks.** -/
theorem whole_insertBlanks_iff {col : Nat} (hblank : blank.char = ' ')
    (h : Slots.Whole cells.slots) (hcol : col < cells.length) (n : Nat) :
    Slots.Whole (slots (insertBlanks cells col n blank)) ↔
      ¬ Slots.InsertBreaks cells.slots col n := by
  obtain ⟨front, middle, back, hparts, rfl, hstop⟩ := Slots.exists_parts cells.slots
    (Nat.le_max_left col (cells.length - n)) (by rw [length_slots]; omega)
  have hlength := length_of_parts hparts
  rw [slots_insertBlanks hblank hparts (by omega), Slots.InsertBreaks, length_slots, ← hstop]
  rw [hparts] at h ⊢
  rw [Slots.splitAt_start_iff, Slots.splitAt_stop_iff]
  by_cases hn : 0 < n
  · rw [h.whole_insert_iff (by omega)]
    simp [hn]
  · -- Nothing is inserted and nothing lost.
    obtain rfl : back = [] := List.eq_nil_of_length_eq_zero (by omega)
    rw [List.append_nil] at h
    exact iff_of_true (by simpa using h) fun hbreaks => hn hbreaks.1

/-- **Taking out cells.** -/
theorem whole_deleteCells_iff {col : Nat} (hblank : blank.char = ' ')
    (h : Slots.Whole cells.slots) (hcol : col ≤ cells.length) (n : Nat) :
    Slots.Whole (slots (deleteCells cells col n blank)) ↔
      ¬ Slots.DeleteBreaksAt cells.slots col n := by
  rw [← length_slots] at hcol
  have hparts : cells.slots =
      cells.slots.take col ++ (cells.slots.drop col).take n ++ cells.slots.drop (col + n) := by
    rw [← List.take_add, List.take_append_drop]
  have hfront : (cells.slots.take col).length = col := by
    rw [List.length_take]
    omega
  have hresult := slots_deleteCells (n := n) hblank hparts (by
    rw [List.length_take, List.length_drop, List.length_drop]
    omega)
  rw [hfront] at hresult
  rw [hresult, Slots.DeleteBreaksAt]
  exact (hparts ▸ h).whole_delete_iff _

end Cells

namespace Row

/-- A resized row is cut off, or filled up with blanks. -/
theorem slots_resize (r : Row) (cols : Nat) : (r.resize cols).cells.slots =
    r.cells.slots.take cols ++ List.replicate (cols - r.cells.length) ' ' := by
  simp [Row.resize, Cells.slots, List.map_take]

/-- A cleared row is blank. -/
theorem slots_clear (r : Row) (blank : Cell) (hblank : blank.char = ' ') :
    (r.clear blank).cells.slots = List.replicate r.cells.length ' ' := by
  simp [Row.clear, Cells.slots, hblank]

theorem slots_new (cols : Nat) : (Row.new cols).cells.slots = List.replicate cols ' ' := by
  simp [Row.new, Cells.slots]

/-- **Another width.** -/
theorem whole_resize_iff {r : Row} (h : Slots.Whole r.cells.slots) (cols : Nat) :
    Slots.Whole (r.resize cols).cells.slots ↔ ¬ Slots.SplitAt r.cells.slots cols := by
  rw [slots_resize]
  exact (List.take_append_drop cols r.cells.slots ▸ h).whole_truncate_iff _

end Row

end VideoTerminal
