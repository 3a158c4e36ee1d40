import Mathlib.Data.List.Basic
import VideoTerminal.Proofs.Screen.Slots
import VideoTerminal.Terminal.Print

/-!
# What printing shows

Printing changes the slots of one row, and going on in the next row brings in blank ones.  Each part
of printing has one lemma here that says which slots it leaves, in terms of those that were there
(`Terminal.Repainted`): attaching (`exists_attachHere_slots`), writing (`exists_writeHere_slots`),
and moving the last character of a row down (`exists_wrapLastCluster_slots`).
-/

namespace VideoTerminal.Terminal

/-- The slots of every row of the screen. -/
def grid (t : Terminal) : List (List Char) := t.active.rows.map fun r => r.cells.slots

/-- A row of the grid shows the slots of a row of the screen. -/
theorem getElem?_grid_eq_some_iff {t : Terminal} {row : Nat} {slots : List Char} :
    t.grid[row]? = some slots ↔ ∃ r, t.active.rows[row]? = some r ∧ r.cells.slots = slots := by
  rw [grid, List.getElem?_map, Option.map_eq_some_iff]

/-- `t'` is `t` but for the slots of one row and for the column of the cursor. -/
structure Repainted (t t' : Terminal) (row : Nat) (slots : List Char) (col : Nat) : Prop where
  frame : t' = t.modifyActive fun _ => t'.active
  grid_eq : t'.grid = t.grid.set row slots
  cursor_eq : t'.cursor = { t.cursor with col := col }
  scrollback_eq : t'.active.scrollback = t.active.scrollback
  limit_eq : t'.active.scrollbackLimit = t.active.scrollbackLimit

/-- Changes that come to the same page come to the same terminal. -/
theorem modifyActive_congr {t : Terminal} {f g : Page → Page} (h : f t.active = g t.active) :
    t.modifyActive f = t.modifyActive g := by
  unfold modifyActive
  unfold active at h
  split <;> simp_all

/-- A change that leaves the page leaves the terminal. -/
theorem modifyActive_eq_self {t : Terminal} {f : Page → Page} (h : f t.active = t.active) :
    t.modifyActive f = t := by
  unfold modifyActive
  unfold active at h
  split
  · next hshown =>
    rw [if_pos hshown] at h
    rw [h]
  · next hshown =>
    rw [if_neg hshown] at h
    rw [h]

/-- Two changes of the page are one. -/
theorem modifyActive_modifyActive (t : Terminal) (f g : Page → Page) :
    (t.modifyActive f).modifyActive g = t.modifyActive fun p => g (f p) := by
  unfold modifyActive
  split <;> simp_all

/-- A row may be changed in any way. -/
theorem repainted_modifyActive {t : Terminal} {f : Page → Page} {g : Row → Row} {r : Row}
    {row col : Nat} (hr : t.active.rows[row]? = some r)
    (hrows : (f t.active).rows = t.active.rows.modify row g)
    (hcursor : (f t.active).cursor = { t.cursor with col := col })
    (hback : (f t.active).scrollback = t.active.scrollback)
    (hlimit : (f t.active).scrollbackLimit = t.active.scrollbackLimit) :
    Repainted t (t.modifyActive f) row (g r).cells.slots col where
  frame := modifyActive_congr (by rw [active_modifyActive])
  grid_eq := by
    rw [grid, active_modifyActive, hrows, List.modify_eq_set_getElem?, hr]
    exact List.map_set
  cursor_eq := by rw [cursor_modifyActive, hcursor]
  scrollback_eq := by rw [active_modifyActive, hback]
  limit_eq := by rw [active_modifyActive, hlimit]

namespace Repainted

variable {t t' : Terminal} {row col : Nat} {slots : List Char}

theorem row_eq (h : t.Repainted t' row slots col) : t'.cursor.row = t.cursor.row := by
  rw [h.cursor_eq]

theorem col_eq (h : t.Repainted t' row slots col) : t'.cursor.col = col := by
  rw [h.cursor_eq]

theorem cols_eq (h : t.Repainted t' row slots col) : t'.cols = t.cols := by
  rw [h.frame, cols_modifyActive]

theorem rows_eq (h : t.Repainted t' row slots col) : t'.rows = t.rows := by
  rw [h.frame, rows_modifyActive]

theorem region_eq (h : t.Repainted t' row slots col) : t'.region = t.region := by
  rw [h.frame, region_modifyActive]

theorem has_eq (h : t.Repainted t' row slots col) (m : Mode) : t'.has m = t.has m := by
  rw [h.frame, has_modifyActive]

theorem usingAlternate_eq (h : t.Repainted t' row slots col) :
    t'.usingAlternate = t.usingAlternate := by
  rw [h.frame, usingAlternate_modifyActive]

theorem length_rows (h : t.Repainted t' row slots col) :
    t'.active.rows.length = t.active.rows.length := by
  have hlen := congrArg List.length h.grid_eq
  rw [List.length_set] at hlen
  simpa only [grid, List.length_map] using hlen

/-- The same row repainted once more. -/
theorem trans {t'' : Terminal} {slots' : List Char} {col' : Nat} (h : t.Repainted t' row slots col)
    (h' : t'.Repainted t'' row slots' col') : t.Repainted t'' row slots' col' where
  frame := by
    have hframe := h'.frame
    rw [h.frame, modifyActive_modifyActive] at hframe
    exact hframe
  grid_eq := by rw [h'.grid_eq, h.grid_eq, List.set_set]
  cursor_eq := by rw [h'.cursor_eq, h.cursor_eq]
  scrollback_eq := h'.scrollback_eq.trans h.scrollback_eq
  limit_eq := h'.limit_eq.trans h.limit_eq

/-- The row that is repainted shows its new slots. -/
theorem getElem?_grid (h : t.Repainted t' row slots col) (hrow : row < t.grid.length) :
    t'.grid[row]? = some slots := by
  rw [h.grid_eq, List.getElem?_set_self hrow]

end Repainted

/-! ## Attaching and writing -/

/-- What is attached to stands in front of the cursor. -/
theorem previousScalar?_eq {t : Terminal} {front back : List Char}
    (hrow : t.grid[t.cursor.row]? = some (front ++ back)) (hcol : t.cursor.col = front.length) :
    t.previousScalar? = Slots.scalarBefore front := by
  obtain ⟨r, hr, hslots⟩ := getElem?_grid_eq_some_iff.mp hrow
  have hle : front.length ≤ r.cells.length := by
    rw [← Cells.length_slots, hslots, List.length_append]
    omega
  have hlast : r.cells.line.before? front.length = front.getLast? := by
    rw [Cells.line_eq_ofList, hslots, Line.before?_ofList]
  have hdrop : r.cells.line.before? (front.length - 1) = front.dropLast.getLast? := by
    rw [Cells.line_eq_ofList, hslots]
    cases front using List.reverseRecOn with
    | nil => rfl
    | append_singleton front y =>
        rw [List.append_assoc, List.length_append, List.length_singleton, Nat.add_sub_cancel,
          Line.before?_ofList, List.dropLast_concat]
  unfold previousScalar? Slots.scalarBefore
  simp only [hr, Option.bind_some, hcol, Nat.min_eq_left hle, hlast, hdrop]
  cases front.getLast? <;> simp

/-- Attaching before the margin. -/
theorem attachHere_eq {t : Terminal} {r : Row} (hr : t.active.rows[t.cursor.row]? = some r)
    (hcol : t.cursor.col < r.cells.length) (c : Char) :
    t.attachHere c = .ok (t.modifyActive fun p =>
      ((p.modifyRow t.cursor.row fun r' =>
        { r' with cells := Cells.attach r.cells t.cursor.col c t.style }).markDirty
          t.cursor.row).moveToCol (t.cursor.col + 1)) := by
  simp only [attachHere, hr]
  rw [if_pos hcol]
  rfl

/-- An attached character is put into the slots of the cursor's row. -/
theorem exists_attachHere_slots {t : Terminal} {front back : List Char} {x : Char} (c : Char)
    (hrow : t.grid[t.cursor.row]? = some (front ++ x :: back)) (hcol : t.cursor.col = front.length) :
    ∃ t', t.attachHere c = .ok t' ∧
      t.Repainted t' t.cursor.row (Slots.attach front c back) (front.length + 1) := by
  obtain ⟨r, hr, hslots⟩ := getElem?_grid_eq_some_iff.mp hrow
  have hlt : front.length < r.cells.length := by
    rw [← Cells.length_slots, hslots]
    simp
  have hok := attachHere_eq hr (hcol ▸ hlt) c
  rw [hcol] at hok
  refine ⟨_, hok, ?_⟩
  rw [← Cells.slots_attach c t.style hslots]
  exact repainted_modifyActive (g := fun r' =>
    { r' with cells := Cells.attach r.cells front.length c t.style }) hr rfl rfl rfl rfl

/-- What a write covers in part is blanked. -/
theorem exists_releaseCovered_slots {t : Terminal} {row : Nat} {front covered back : List Char}
    {x : Char} (hrow : t.grid[row]? = some (front ++ x :: (covered ++ back))) :
    ∃ front' back' t', Cells.Released front x covered back front' back' ∧
      t.releaseCovered row front.length (covered.length + 1) = .ok t' ∧
      t.Repainted t' row (front' ++ x :: covered ++ back') t.cursor.col := by
  obtain ⟨r, hr, hslots⟩ := getElem?_grid_eq_some_iff.mp hrow
  obtain ⟨front', back', hreleased, hslots'⟩ :=
    Cells.exists_slots_releaseCovered hslots (rfl : t.blank.char = ' ')
  refine ⟨front', back', _, hreleased, if_pos (List.getElem?_eq_some_iff.mp hr).1, ?_⟩
  rw [← hslots']
  exact repainted_modifyActive (g := fun r =>
    { r with cells := Cells.releaseCovered r.cells front.length (covered.length + 1) t.blank })
    hr rfl rfl rfl rfl

/-- A character that fits before the margin is put into its slots. -/
theorem exists_writeHere_slots {t : Terminal} {front covered back : List Char} {x c : Char}
    (hrow : t.grid[t.cursor.row]? = some (front ++ x :: covered ++ back))
    (hcol : t.cursor.col = front.length) (hwidth : Text.columns? c = some (covered.length + 1)) :
    ∃ t', t.writeHere c (covered.length + 1) = .ok t' ∧
      t.Repainted t' t.cursor.row (front ++ Slots.closed [c] ++ back)
        (front.length + (covered.length + 1)) := by
  obtain ⟨r, hr, hslots⟩ := getElem?_grid_eq_some_iff.mp hrow
  have hlen : r.cells.length = front.length + (covered.length + 1) + back.length := by
    rw [← Cells.length_slots, hslots]
    simp
    omega
  have hok : t.writeHere c (covered.length + 1) = .ok (t.modifyActive fun p =>
      ((p.modifyRow t.cursor.row fun r' =>
        { r' with cells :=
          Cells.overwrite r.cells t.cursor.col c (covered.length + 1) t.style }).markDirty
          t.cursor.row).moveToCol (t.cursor.col + (covered.length + 1))) := by
    simp only [writeHere, hr]
    rw [if_neg (by omega), if_neg (by omega)]
    rfl
  rw [hcol] at hok
  refine ⟨_, hok, ?_⟩
  rw [← Cells.slots_overwrite t.style hslots hwidth rfl]
  exact repainted_modifyActive (g := fun r' =>
    { r' with cells := Cells.overwrite r.cells front.length c (covered.length + 1) t.style })
    hr rfl rfl rfl rfl

/-- What the character covers in part is blanked first. -/
theorem exists_overwrite_slots {t : Terminal} {front covered back : List Char} {x c : Char}
    (hrow : t.grid[t.cursor.row]? = some (front ++ x :: (covered ++ back)))
    (hcol : t.cursor.col = front.length) (hwidth : Text.columns? c = some (covered.length + 1)) :
    ∃ front' back' t', Cells.Released front x covered back front' back' ∧
      (t.releaseCovered t.cursor.row t.cursor.col (covered.length + 1) >>= fun released =>
        released.writeHere c (covered.length + 1)) = .ok t' ∧
      t.Repainted t' t.cursor.row (front' ++ Slots.closed [c] ++ back')
        (front.length + (covered.length + 1)) := by
  obtain ⟨front', back', released, hreleased, hok, hpainted⟩ := exists_releaseCovered_slots hrow
  have hlt : t.cursor.row < t.grid.length := (List.getElem?_eq_some_iff.mp hrow).1
  have hrow' : released.grid[released.cursor.row]? = some (front' ++ x :: covered ++ back') := by
    rw [hpainted.row_eq]
    exact hpainted.getElem?_grid hlt
  have hcol' : released.cursor.col = front'.length := by
    rw [hpainted.col_eq, hcol, hreleased.length_front]
  obtain ⟨t', hwrite, hwritten⟩ := exists_writeHere_slots hrow' hcol' hwidth
  rw [hpainted.row_eq, hreleased.length_front] at hwritten
  refine ⟨front', back', t', hreleased, ?_, hpainted.trans hwritten⟩
  rw [hcol, hok]
  exact hwrite

/-- Going to the next row changes the page at most. -/
theorem index_eq_modifyActive (t : Terminal) :
    t.index = t.modifyActive fun _ => t.index.active := by
  have hid : t = t.modifyActive fun _ => t.active := by
    unfold modifyActive active
    split <;> rfl
  have hmodified (f : Page → Page) :
      t.modifyActive f = t.modifyActive fun _ => (t.modifyActive f).active :=
    modifyActive_congr (by rw [active_modifyActive])
  unfold index scrollUp
  dsimp only
  split
  · split
    · exact hmodified _
    · exact hid
  · split
    · exact hmodified _
    · exact hid

/-- Going down a row switches no mode. -/
theorem has_index (t : Terminal) (m : Mode) : t.index.has m = t.has m := by
  rw [index_eq_modifyActive, has_modifyActive]

/-- Going on in the next row leaves the slots of this one. -/
theorem exists_wrapRow_slots {t : Terminal} {slots : List Char}
    (hrow : t.grid[t.cursor.row]? = some slots) :
    ∃ t₁, t.Repainted t₁ t.cursor.row slots 0 ∧ t.wrapRow = .ok t₁.index := by
  obtain ⟨r, hr, rfl⟩ := getElem?_grid_eq_some_iff.mp hrow
  refine ⟨_, ?_, if_pos (List.getElem?_eq_some_iff.mp hr).1⟩
  exact repainted_modifyActive (g := fun r => { r with wrapped := true }) hr rfl rfl rfl rfl

/-- Where the sum can be counted, a character that does not fit wraps or is put at the end. -/
theorem makeRoom_of_le {t : Terminal} {width : Nat} (h : t.cursor.col + width ≤ maxCoordinate) :
    t.makeRoom width =
      if t.cols < t.cursor.col + width then
        if t.has .autoWrap = true then t.wrapRow
        else .ok (t.modifyActive fun p => p.moveToCol (t.cols - width))
      else .ok t := by
  unfold makeRoom
  rw [coordinate_eq_ok_iff.mpr ⟨h, rfl⟩]
  rfl

/-- Where the sum can not be counted, making room is a fault. -/
theorem makeRoom_of_lt {t : Terminal} {width : Nat} (h : maxCoordinate < t.cursor.col + width) :
    t.makeRoom width = .error (.tooFar (t.cursor.col + width)) := by
  unfold makeRoom coordinate
  rw [if_neg (by omega)]
  rfl

/-- A character that extends the one before it is attached. -/
theorem putChar_of_attached {t : Terminal} {c : Char} {width : Nat}
    (hwidth : Text.columns? c = some width) (hext : extendsPrevious t.previousScalar? c = true) :
    t.putChar c = t.attach c := by
  simp only [putChar_eq, hwidth, Option.elim_some, hext, or_true, if_true]

/-- A character that begins a new one is written where room is made for it. -/
theorem putChar_of_lead {t : Terminal} {c : Char} {width : Nat}
    (hwidth : Text.columns? c = some width) (hlead : extendsPrevious t.previousScalar? c = false)
    (hfit : width ≤ t.cols) :
    t.putChar c = (do
      let roomy ← t.makeRoom width
      let shifted := if roomy.has .insertMode then roomy.insertChars width else roomy
      let released ← shifted.releaseCovered shifted.cursor.row shifted.cursor.col width
      released.writeHere c width) := by
  have hpos : width ≠ 0 := by
    rintro rfl
    rw [extendsPrevious_of_columns?_eq_zero hwidth] at hlead
    cases hlead
  have hnot : ¬ (width = 0 ∨ extendsPrevious t.previousScalar? c = true) := by simp [hpos, hlead]
  rw [putChar_eq, hwidth, Option.elim_some, if_neg hnot, putLead, if_neg (Nat.not_lt.mpr hfit)]

/-- A character wider than the screen is dropped. -/
theorem putChar_of_lt {t : Terminal} {c : Char} {width : Nat}
    (hwidth : Text.columns? c = some width) (hlead : extendsPrevious t.previousScalar? c = false)
    (hlt : t.cols < width) : t.putChar c = .ok t := by
  have hpos : width ≠ 0 := Nat.ne_zero_of_lt hlt
  have hnot : ¬ (width = 0 ∨ extendsPrevious t.previousScalar? c = true) := by simp [hpos, hlead]
  rw [putChar_eq, hwidth, Option.elim_some, if_neg hnot, putLead, if_pos hlt]

/-- Any other character is written where there is room for it. -/
theorem putChar_of_makeRoom_ok {t roomy : Terminal} {c : Char} {width : Nat}
    (hwidth : Text.columns? c = some width) (hlead : extendsPrevious t.previousScalar? c = false)
    (hfit : width ≤ t.cols) (hroom : t.makeRoom width = .ok roomy)
    (hinsert : roomy.has .insertMode = false) :
    t.putChar c = (roomy.releaseCovered roomy.cursor.row roomy.cursor.col width >>= fun released =>
      released.writeHere c width) := by
  rw [putChar_of_lead hwidth hlead hfit, hroom]
  change (Terminal.releaseCovered (if roomy.has .insertMode = true then _ else _) _ _ _ >>= _) = _
  rw [hinsert]
  rfl

/-- Where making room is a fault, so is printing. -/
theorem putChar_of_makeRoom_error {t : Terminal} {c : Char} {width : Nat} {fault : Fault}
    (hwidth : Text.columns? c = some width) (hlead : extendsPrevious t.previousScalar? c = false)
    (hfit : width ≤ t.cols) (hroom : t.makeRoom width = .error fault) :
    t.putChar c = .error fault := by
  rw [putChar_of_lead hwidth hlead hfit, hroom]
  rfl

/-! ## Moving the last character of a row down -/

/-- The search for the last character of some slots finds it. -/
theorem lastClusterStart_eq {cells : Cells} {front marks back : List Char} {lead : Char}
    (h : cells.slots = front ++ lead :: marks ++ back)
    (hmarks : Slots.attached (some lead) marks = marks)
    (hlead : front = [] ∨ extendsPrevious front.getLast? lead = false) :
    lastClusterStart cells (front.length + marks.length) = front.length := by
  induction marks using List.reverseRecOn generalizing back with
  | nil =>
      cases hlen : front.length with
      | zero => rfl
      | succ i =>
          have hlead : extendsPrevious front.getLast? lead = false := by
            refine hlead.resolve_left ?_
            rintro rfl
            cases hlen
          have hsplit : cells.slots = front ++ lead :: back := by simpa using h
          have hattached : cells.isAttached (i + 1) = false := by
            rw [← hlen, Cells.isAttached_of_slots_eq hsplit]
            exact hlead
          have hne : cells.line (i + 1) ≠ some wideTail := by
            rw [← hlen, Cells.line_of_slots_eq hsplit]
            intro htail
            obtain rfl := Option.some.inj htail
            cases hlead
          simp [lastClusterStart, hattached, hne]
  | append_singleton marks c ih =>
      obtain ⟨hmarks, hc⟩ := Slots.attached_append_singleton_iff.mp hmarks
      have hsplit : cells.slots = front ++ lead :: marks ++ c :: back := by
        rw [h]
        simp
      have hattached : cells.isAttached (front ++ lead :: marks).length = true := by
        rw [Cells.isAttached_of_slots_eq hsplit, List.getLast?_append, List.getLast?_cons]
        rw [Option.or_some] at hc
        exact hc
      have hlen : (front ++ lead :: marks).length = front.length + marks.length + 1 := by
        simp
        omega
      rw [List.length_append, List.length_singleton, ← Nat.add_assoc, lastClusterStart, ← hlen,
        hattached, Bool.or_true, if_pos rfl]
      exact ih hsplit hmarks

/-- A character that fills its row stays there. -/
theorem wrapLastCluster_of_fills {t : Terminal} {lead : Char} {marks : List Char}
    (hrow : t.grid[t.cursor.row]? = some (lead :: marks))
    (hlen : (lead :: marks).length = t.cols) (hmarks : Slots.attached (some lead) marks = marks) :
    t.wrapLastCluster = .ok none := by
  obtain ⟨r, hr, hslots⟩ := getElem?_grid_eq_some_iff.mp hrow
  have hstop : r.cells.length = t.cols := by rw [← Cells.length_slots, hslots, hlen]
  have hsplit : r.cells.slots = [] ++ lead :: marks ++ [] := by simpa using hslots
  have hstart := lastClusterStart_eq hsplit hmarks (.inl rfl)
  rw [List.length_nil, Nat.zero_add] at hstart
  have hlast : t.cols - 1 = marks.length := by
    rw [← hlen, List.length_cons]
    omega
  simp only [wrapLastCluster, hr, hstop, Nat.min_self, hlast, hstart]
  rfl

/-- On a row without slots there is nothing to move. -/
theorem wrapLastCluster_of_nil {t : Terminal} (hrow : t.grid[t.cursor.row]? = some []) :
    t.wrapLastCluster = .ok none := by
  obtain ⟨r, hr, hslots⟩ := getElem?_grid_eq_some_iff.mp hrow
  have hlen : r.cells.length = 0 := by
    rw [← Cells.length_slots, hslots, List.length_nil]
  simp only [wrapLastCluster, hr, hlen, Nat.min_zero]
  rfl

/-- The end of a row is blanked, and the text goes on in the next row. -/
theorem repainted_emptied {t : Terminal} {row : Nat} {r : Row} {front inner : List Char}
    (hr : t.active.rows[row]? = some r) (hslots : r.cells.slots = front ++ inner) :
    t.Repainted (t.modifyActive fun p =>
      ((p.modifyRow row fun r =>
        ⟨Cells.fill r.cells front.length (front.length + inner.length) t.blank, true⟩).markDirty
          row).moveToCol 0) row (front ++ List.replicate inner.length ' ') 0 := by
  have hsplit : r.cells.slots = front ++ inner ++ [] := by rw [hslots, List.append_nil]
  have hfill := Cells.slots_fill t.blank hsplit
  rw [List.append_nil] at hfill
  change t.Repainted _ row (front ++ List.replicate inner.length t.blank.char) 0
  rw [← hfill]
  exact repainted_modifyActive (g := fun r =>
    ⟨Cells.fill r.cells front.length (front.length + inner.length) t.blank, true⟩)
    hr rfl rfl rfl rfl

/-- Cells replace as many at the start of a row. -/
theorem repainted_placed {t : Terminal} {row : Nat} {covered back : List Char} (moved : Cells)
    (hrow : t.grid[row]? = some (covered ++ back)) (hlen : moved.length = covered.length) :
    t.Repainted (t.modifyActive fun p =>
      ((p.modifyRow row fun r =>
        { r with cells := moved.take r.cells.length ++ r.cells.drop moved.length }).markDirty
          row).moveToCol moved.length) row (moved.slots ++ back) moved.length := by
  obtain ⟨r, hr, hslots⟩ := getElem?_grid_eq_some_iff.mp hrow
  rw [← Cells.slots_take_append_drop hslots hlen.symm]
  exact repainted_modifyActive (g := fun r =>
    { r with cells := moved.take r.cells.length ++ r.cells.drop moved.length }) hr rfl rfl rfl rfl

/-- Any other character is moved to the start of the next row, in two steps: `t₁` has it no longer,
and on the next row of `t₁` it replaces what is there. -/
theorem exists_wrapLastCluster_slots {t : Terminal} {front marks : List Char} {lead : Char}
    (hrow : t.grid[t.cursor.row]? = some (front ++ lead :: marks))
    (hlen : (front ++ lead :: marks).length = t.cols)
    (hmarks : Slots.attached (some lead) marks = marks)
    (hlead : extendsPrevious front.getLast? lead = false) (hfront : front ≠ []) :
    ∃ t₁, t.Repainted t₁ t.cursor.row (front ++ List.replicate (marks.length + 1) ' ') 0 ∧
      ∀ x covered back, t₁.index.grid[t₁.index.cursor.row]? = some (x :: (covered ++ back)) →
        covered.length = marks.length →
        ∃ back' t', Cells.Released [] x covered back [] back' ∧
          t.wrapLastCluster = .ok (some t') ∧
          t₁.index.Repainted t' t₁.index.cursor.row (lead :: marks ++ back')
            (marks.length + 1) := by
  obtain ⟨r, hr, hslots⟩ := getElem?_grid_eq_some_iff.mp hrow
  have hcols : t.cols = front.length + (lead :: marks).length := by
    rw [← hlen, List.length_append]
  have hemptied := repainted_emptied hr hslots
  rw [← hcols] at hemptied
  refine ⟨_, hemptied, fun x covered back hbelow hcovered => ?_⟩
  -- The cells of the character.
  obtain ⟨moved, hmoved⟩ : ∃ moved, (r.cells.take t.cols).drop front.length = moved := ⟨_, rfl⟩
  have hstop : r.cells.length = t.cols := by rw [← Cells.length_slots, hslots, hlen]
  have hmovedSlots : Cells.slots moved = lead :: marks := by
    rw [← hmoved, ← hstop, List.take_length, Cells.slots_drop hslots]
  have hmovedLen : moved.length = marks.length + 1 := by
    rw [← Cells.length_slots, hmovedSlots, List.length_cons]
  -- What they cover on the next row goes.
  have hnil := (List.nil_append (x :: (covered ++ back))).symm ▸ hbelow
  obtain ⟨front', back', released, hreleased, hrelease, hpainted⟩ :=
    exists_releaseCovered_slots hnil
  obtain rfl : front' = [] := List.eq_nil_of_length_eq_zero hreleased.length_front
  rw [List.length_nil] at hrelease
  rw [List.nil_append] at hpainted
  have hplaced := repainted_placed moved
    (hpainted.getElem?_grid (List.getElem?_eq_some_iff.mp hbelow).1)
    (by rw [hmovedLen, List.length_cons, hcovered])
  rw [hmovedSlots, hmovedLen] at hplaced
  refine ⟨back', _, hreleased, ?_, hpainted.trans hplaced⟩
  have hsplit : r.cells.slots = front ++ lead :: marks ++ [] := by simpa using hslots
  have hstart := lastClusterStart_eq hsplit hmarks (.inr hlead)
  have hlast : t.cols - 1 = front.length + marks.length := by
    rw [hcols, List.length_cons]
    omega
  have hzero : front.length ≠ 0 := by simpa using hfront
  simp only [wrapLastCluster, hr, hstop, Nat.min_self, hlast, hstart, if_neg hzero, hmoved]
  change (Terminal.releaseCovered _ _ 0 moved.length >>= fun _ => _) = _
  rw [hmovedLen, ← hcovered]
  rw [hrelease]
  rfl

end VideoTerminal.Terminal
