import VideoTerminal.Proofs.Screen.Recorded
import VideoTerminal.Proofs.Terminal.Shown

/-!
# Work on the page that is shown

All that is done to a terminal without switching a mode, resetting it or changing its size is done
to the page that is shown: the other one and the modes stay as they are, and what changes is
recorded (`records_of_putChar`, `records_of_perform`).  `Terminal.Records` puts this together, so
that one walk through the operations will do: what `OnShown` says of the pages, what `Page.Recorded`
says of the record, that the modes and what repeats them are kept, and that the cursor does not go
further than one column behind the last.
-/

namespace VideoTerminal

/-- Actions that switch no mode, whatever their numbers. -/
def Action.KeepsModes : Action → Prop
  | .reset => False
  | .applicationKeypad _ => False
  | .setPrivateModes _ _ => False
  | .setStandardModes _ _ => False
  | _ => True

/-- A page of so many rows, of which no other row is recorded than those of the screen, unless all
of it is to be drawn.  Where there are no rows, the cursor stands on row 0 all the same. -/
structure Page.Tracked (p : Page) (rows : Nat) : Prop where
  length_rows : p.rows.length = rows
  dirty : p.fullRedraw = true ∨ ∀ i ∈ p.dirty, i ≤ rows - 1

namespace Page.Tracked

variable {p q : Page} {rows : Nat}

/-- Where all of it is to be drawn, a page is tracked. -/
theorem of_fullRedraw (hlength : q.rows.length = rows) (hredraw : q.fullRedraw = true) :
    q.Tracked rows :=
  ⟨hlength, .inl hredraw⟩

/-- Changes that are recorded keep a page tracked. -/
theorem recorded (h : p.Tracked rows) (hq : p.Recorded none (rows - 1) q) : q.Tracked rows where
  length_rows := hq.length_rows.trans h.length_rows
  dirty := by
    rcases h.dirty with hredraw | hdirty
    · exact .inl (hq.fullRedraw hredraw)
    · refine .inr fun i hi => ?_
      rcases hq.le_last i hi with hold | hle
      · exact hdirty i hold
      · exact hle

end Page.Tracked

namespace Terminal

/-- Whether there is anything to be drawn. -/
def pending (t : Terminal) : Bool := t.flushRequested || t.primary.changed || t.alternate.changed

/-- There is something to be drawn if a flush is due or one of the pages has changed. -/
theorem pending_iff {t : Terminal} : t.pending = true ↔
    t.flushRequested = true ∨ t.active.changed = true ∨ t.hidden.changed = true := by
  unfold pending active hidden
  rw [Bool.or_eq_true, Bool.or_eq_true]
  split <;> tauto

/-- What is recorded on both pages. -/
structure Tracked (t : Terminal) : Prop where
  seated : t.Seated
  shown : t.active.Tracked t.rows
  hidden : t.hidden.Tracked t.rows

/-- From `t` to `t'` the same page is shown under the same modes, and all that changed there is
recorded, but for the row that is owed. -/
structure Records (owed : Option Nat) (t t' : Terminal) : Prop where
  onShown : t.OnShown t'
  modes_eq : t'.modes = t.modes
  renderSuspended_eq : t'.renderSuspended = t.renderSuspended
  visible_eq : t'.cursor.visible = t.cursor.visible
  col_le : t.cursor.col ≤ t.cols → t'.cursor.col ≤ t.cols
  flush : t.flushRequested = true → t'.flushRequested = true
  active : t.Tracked → t.active.Recorded owed (t.rows - 1) t'.active

namespace Records

variable {owed : Option Nat} {t t' t'' : Terminal}

theorem refl (t : Terminal) : t.Records owed t := ⟨.refl t, rfl, rfl, rfl, id, id, fun _ => .refl _⟩

/-- Work that is recorded keeps a terminal tracked. -/
theorem tracked (h : t.Records none t') (ht : t.Tracked) : t'.Tracked where
  seated := h.onShown.seated ht.seated
  shown := h.onShown.rows_eq ▸ ht.shown.recorded (h.active ht)
  hidden := by
    rw [h.onShown.hidden_eq, h.onShown.rows_eq]
    exact ht.hidden

/-- A change of the page that is shown. -/
theorem modifyActive {f : Page → Page} (hshown : t.OnShown (t.modifyActive f))
    (hvisible : (f t.active).cursor.visible = t.cursor.visible)
    (hcol : t.cursor.col ≤ t.cols → (f t.active).cursor.col ≤ t.cols)
    (hf : t.Tracked → t.active.Recorded owed (t.rows - 1) (f t.active)) :
    t.Records owed (t.modifyActive f) where
  onShown := hshown
  modes_eq := modes_modifyActive t f
  renderSuspended_eq := renderSuspended_modifyActive t f
  visible_eq := by rw [cursor_modifyActive, hvisible]
  col_le := by
    rw [cursor_modifyActive]
    exact hcol
  flush := by simp
  active := by
    rw [active_modifyActive]
    exact hf

/-- Work on the row of the cursor is recorded if the page records it. -/
theorem of_retouched {f : Page → Page} (h : t.Retouched (t.modifyActive f))
    (hcol : t.cursor.col ≤ t.cols → (f t.active).cursor.col ≤ t.cols)
    (hf : t.Tracked → t.active.Recorded owed (t.rows - 1) (f t.active)) :
    t.Records owed (t.modifyActive f) := by
  refine modifyActive h.onShown ?_ hcol hf
  obtain ⟨col, hcursor⟩ := h.active.cursor_eq
  rw [active_modifyActive] at hcursor
  rw [hcursor]
  rfl

/-- Work that leaves the cursor is recorded if the page records it. -/
theorem of_cursor_eq {f : Page → Page} (h : (f t.active).cursor = t.cursor)
    (hf : t.Tracked → t.active.Recorded owed (t.rows - 1) (f t.active)) :
    t.Records owed (t.modifyActive f) :=
  modifyActive (onShown_of_row_eq (congrArg Cursor.row h)) (congrArg Cursor.visible h)
    (Nat.le_trans (Nat.le_of_eq (congrArg Cursor.col h))) hf

/-- A change of what the pages share. -/
theorem of_frame (hshown : t.OnShown t') (hmodes : t'.modes = t.modes)
    (hsuspended : t'.renderSuspended = t.renderSuspended)
    (hflush : t'.flushRequested = t.flushRequested) (hactive : t'.active = t.active) :
    t.Records owed t' where
  onShown := hshown
  modes_eq := hmodes
  renderSuspended_eq := hsuspended
  visible_eq := by rw [cursor, cursor, hactive]
  col_le := by
    rw [cursor, cursor, hactive]
    exact id
  flush := by simp [hflush]
  active := fun _ => hactive ▸ .refl _

theorem trans (h : t.Records none t') (h' : t'.Records none t'') : t.Records none t'' where
  onShown := h.onShown.trans h'.onShown
  modes_eq := h'.modes_eq.trans h.modes_eq
  renderSuspended_eq := h'.renderSuspended_eq.trans h.renderSuspended_eq
  visible_eq := h'.visible_eq.trans h.visible_eq
  col_le hcol := by
    have hnext := h'.col_le
    rw [h.onShown.cols_eq] at hnext
    exact hnext (h.col_le hcol)
  flush hflush := h'.flush (h.flush hflush)
  active ht := by
    have hnext := h'.active (h.tracked ht)
    rw [h.onShown.rows_eq] at hnext
    exact (h.active ht).trans hnext

end Records

/-! ## Scrolling and moving -/

section Moves

variable {owed : Option Nat} (t : Terminal)

/-- Moving the cursor in its row is recorded, there being nothing to record. -/
theorem records_modifyCursor {f : Cursor → Cursor} (hshown : t.OnShown (t.modifyCursor f))
    (hvisible : (f t.cursor).visible = t.cursor.visible)
    (hcol : t.cursor.col ≤ t.cols → (f t.cursor).col ≤ t.cols) :
    t.Records none (t.modifyCursor f) :=
  .modifyActive hshown hvisible hcol fun _ => .of_frame rfl rfl rfl rfl

/-- Scrolling up records all rows. -/
theorem records_scrollUp (n : Nat) : t.Records none (t.scrollUp n) := by
  unfold scrollUp
  dsimp only
  split
  · next hfits =>
    obtain ⟨hbottom, htop⟩ : t.region.bottom < t.active.rows.length ∧
        t.region.top ≤ t.region.bottom := by simpa [Region.fits] using hfits
    refine .of_cursor_eq ?_ fun _ => .scrollUp _ htop _ _ fun _ => hbottom
    exact Page.cursor_scrollUp _ _ _ _ _ _
  · exact .refl t

theorem records_scrollDown (n : Nat) : t.Records none (t.scrollDown n) := by
  unfold scrollDown
  dsimp only
  split
  · next hfits =>
    obtain ⟨hbottom, htop⟩ : t.region.bottom < t.active.rows.length ∧
        t.region.top ≤ t.region.bottom := by simpa [Region.fits] using hfits
    refine .of_cursor_eq ?_ fun _ => .scrollDown _ htop _ fun _ => hbottom
    exact Page.cursor_scrollDown _ _ _ _ _
  · exact .refl t

/-- Moving the cursor to a column changes no row. -/
theorem records_moveToCol {col : Nat} (hcol : col ≤ t.cols) :
    t.Records none (t.modifyActive fun p => p.moveToCol col) :=
  .of_retouched (t.retouched_moveToCol col) (fun _ => hcol) fun _ => .moveToCol _ _

/-- A carriage return records the row, though it changes none. -/
theorem records_carriageReturn : t.Records none t.carriageReturn :=
  .of_retouched t.retouched_carriageReturn (fun _ => Nat.zero_le _) fun ht =>
    (Page.Recorded.moveToCol _ 0).trans (.markDirty _ ht.seated.shown)

/-- Going forward changes no row. -/
theorem records_cursorForward (n : Nat) : t.Records none (t.cursorForward n) := by
  refine .of_retouched (t.retouched_cursorForward n) (fun _ => ?_) fun _ => .moveToCol _ _
  change min (t.cursor.col + n) (t.cols - 1) ≤ t.cols
  omega

theorem records_cursorBackward (n : Nat) : t.Records none (t.cursorBackward n) := by
  refine .of_retouched (t.retouched_cursorBackward n) (fun _ => ?_) fun _ => .moveToCol _ _
  change min t.cursor.col (t.cols - 1) - n ≤ t.cols
  omega

theorem records_cursorColumn (col : Nat) : t.Records none (t.cursorColumn col) :=
  t.records_moveToCol (by omega)

/-- Going up changes no row. -/
theorem records_cursorUp (n : Nat) : t.Records none (t.cursorUp n) :=
  .modifyActive (t.onShown_cursorUp n) rfl id fun _ => .moveToRow _ _

theorem records_cursorDown (n : Nat) : t.Records none (t.cursorDown n) :=
  .modifyActive (t.onShown_cursorDown n) rfl id fun _ => .moveToRow _ _

theorem records_cursorRow (row : Nat) : t.Records none (t.cursorRow row) := by
  have hshown := t.onShown_cursorRow row
  unfold cursorRow at hshown ⊢
  exact .modifyActive hshown rfl id fun _ => .moveToRow _ _

/-- Going to a place changes no row. -/
theorem records_cursorPosition (row col : Nat) : t.Records none (t.cursorPosition row col) :=
  (t.records_cursorRow row).trans (records_cursorColumn _ col)

/-- A tab changes no row. -/
theorem records_of_horizontalTab {t t' : Terminal} (h : t.horizontalTab = .ok t') :
    t.Records none t' := by
  obtain ⟨stop, -, hok⟩ := exists_of_bind_eq_ok h
  obtain rfl := Except.ok.inj hok
  exact t.records_moveToCol (by omega)

/-- Going down a row records all rows if the screen scrolls. -/
theorem records_index : t.Records none t.index := by
  have hshown := t.onShown_index
  unfold index at hshown ⊢
  dsimp only at hshown ⊢
  split
  · exact t.records_scrollUp 1
  · next hbottom =>
    rw [if_neg hbottom] at hshown
    split
    · next hlast =>
      rw [if_pos hlast] at hshown
      exact .modifyActive hshown rfl id fun _ => .moveToRow _ _
    · exact .refl t

theorem records_lineFeed : t.Records none t.lineFeed := by
  unfold lineFeed
  split
  · exact (t.records_moveToCol (Nat.zero_le _)).trans (records_index _)
  · exact t.records_index

/-- Going up a row records all rows if the screen scrolls. -/
theorem records_reverseIndex : t.Records none t.reverseIndex := by
  unfold reverseIndex
  split
  · exact t.records_scrollDown 1
  · exact t.records_cursorUp 1

/-- Setting the region changes no row. -/
theorem records_setScrollRegion (top bottom : Nat) :
    t.Records none (t.setScrollRegion top bottom) := by
  unfold setScrollRegion
  dsimp only
  split
  · have hregion := t.onShown_withRegion (r := ⟨min (top - 1) (t.rows - 1),
      min (bottom - 1) (t.rows - 1)⟩) (Nat.min_le_right _ _)
    exact (Records.of_frame hregion rfl rfl rfl rfl).trans (records_cursorPosition _ 1 1)
  · exact .refl t

/-- Inserting lines records all rows. -/
theorem records_of_insertLines {t t' : Terminal} {n : Nat} (h : t.insertLines n = .ok t') :
    t.Records none t' := by
  unfold insertLines at h
  dsimp only at h
  split at h
  · obtain rfl := Except.ok.inj h
    exact .refl _
  · next hinside =>
    split at h
    · cases h
    · next hroom =>
      obtain rfl := Except.ok.inj h
      refine .of_cursor_eq ?_ fun _ => .scrollDown _ (by omega) _ (by omega)
      exact Page.cursor_scrollDown _ _ _ _ _

theorem records_of_deleteLines {t t' : Terminal} {n : Nat} (h : t.deleteLines n = .ok t') :
    t.Records none t' := by
  unfold deleteLines at h
  dsimp only at h
  split at h
  · obtain rfl := Except.ok.inj h
    exact .refl _
  · next hinside =>
    split at h
    · cases h
    · next hroom =>
      obtain rfl := Except.ok.inj h
      refine .of_cursor_eq ?_ fun _ => .scrollUp _ (by omega) _ _ (by omega)
      exact Page.cursor_scrollUp _ _ _ _ _ _

end Moves

/-! ## Editing and erasing -/

section Edits

variable (t : Terminal)

/-- An edit at the cursor records its row. -/
theorem records_editCursorRow (edit : Cells → Nat → Cells) :
    t.Records none (t.editCursorRow edit) := by
  have hcursor := t.cursor_editCursorRow edit
  unfold editCursorRow at hcursor ⊢
  rw [cursor_modifyActive] at hcursor
  refine .of_cursor_eq hcursor fun ht => ?_
  split
  · split
    · exact .editRow _ _ ht.seated.shown
    · exact .refl _
  · exact .refl _

theorem records_insertChars (n : Nat) : t.Records none (t.insertChars n) :=
  t.records_editCursorRow _

theorem records_deleteChars (n : Nat) : t.Records none (t.deleteChars n) :=
  t.records_editCursorRow _

theorem records_eraseChars (n : Nat) : t.Records none (t.eraseChars n) :=
  t.records_editCursorRow _

/-- Erasing in the row records it. -/
theorem records_eraseInLine (part : Nat) : t.Records none (t.eraseInLine part) := by
  refine .of_cursor_eq ?_ fun ht => ?_
  · match part with
    | 0 | 1 | 2 => exact Page.cursor_editRow ..
    | _ + 3 => rfl
  · match part with
    | 0 | 1 | 2 => exact .editRow _ _ ht.seated.shown
    | _ + 3 => exact .refl _

/-- Clearing rows of the screen, however many it has. -/
theorem records_clearRows (start stop : Page → Nat) (blank : Cell) :
    t.Records none (t.modifyActive fun p => p.clearRows (start p) (stop p) blank) := by
  refine .of_cursor_eq rfl fun ht => .clearRows _ _ _ _ ?_
  have hlength := ht.shown.length_rows
  omega

/-- Erasing on the screen records the rows that it blanks. -/
theorem records_eraseInDisplay (part : Nat) : t.Records none (t.eraseInDisplay part) := by
  unfold eraseInDisplay
  split
  · exact (t.records_eraseInLine 0).trans
      (records_clearRows _ (fun p => p.cursor.row + 1) (fun _ => t.rows) t.blank)
  · exact (t.records_eraseInLine 1).trans
      (records_clearRows _ (fun _ => 0) (fun p => p.cursor.row) t.blank)
  · exact t.records_clearRows (fun _ => 0) (fun _ => t.rows) t.blank
  · refine .of_cursor_eq rfl fun ht => ?_
    have hlength := ht.shown.length_rows
    have hcleared : t.active.Recorded none (t.rows - 1)
        (t.active.clearRows 0 t.rows t.blank) := .clearRows _ _ _ _ (by omega)
    -- The history is no part of the screen.
    exact hcleared.trans (.of_frame rfl rfl rfl rfl)
  · exact .refl t

/-- Clearing the screen records its rows. -/
theorem records_clearScreen : t.Records none t.clearScreen :=
  (t.records_eraseInDisplay 2).trans (records_cursorPosition _ 1 1)

end Edits

/-! ## Printing

What is blanked before a write is recorded by the write. -/

section Printing

variable {t t' : Terminal} {c : Char}

/-- Blanking what a write covers in part, and the write. -/
theorem records_write {f g : Row → Row} {row col : Nat} (hrow : t.cursor.row = row)
    (hcol : col ≤ t.cols) :
    t.Records none ((t.modifyActive fun p => p.modifyRow row f).modifyActive fun p =>
      ((p.modifyRow row g).markDirty row).moveToCol col) := by
  subst hrow
  rw [modifyActive_modifyActive]
  refine .modifyActive (onShown_of_row_eq rfl) rfl (fun _ => hcol) fun ht => ?_
  have hwrite := Page.Recorded.write (t.active.modifyRow t.cursor.row f) g col ht.seated.shown
  refine ((Page.Recorded.modifyRow t.active t.cursor.row f).trans hwrite.owing).settle ?_ rfl
  exact Page.Recorded.mem_dirty_markDirty _ _

/-- Releasing what is covered changes one row. -/
theorem eq_of_releaseCovered {row col width : Nat} (h : t.releaseCovered row col width = .ok t') :
    t' = t.modifyActive fun p => p.modifyRow row fun r =>
      { r with cells := Cells.releaseCovered r.cells col width t.blank } := by
  unfold releaseCovered at h
  split at h
  · exact (Except.ok.inj h).symm
  · cases h

/-- Putting a mark in its row records the row. -/
theorem records_of_attachHere (h : t.attachHere c = .ok t') (hcol : t.cursor.col < t.cols) :
    t.Records none t' := by
  have hretouched := retouched_of_attachHere h
  unfold attachHere at h
  dsimp only at h
  split at h
  · cases h
  · split at h
    · obtain rfl := Except.ok.inj h
      exact .of_retouched hretouched (fun _ => hcol) fun ht => .write _ _ _ ht.seated.shown
    · cases h

/-- Writing a character records its row, and with it what was released there. -/
theorem records_of_overwrite {released : Terminal} {col width width' : Nat}
    (hrelease : t.releaseCovered t.cursor.row col width = .ok released)
    (h : released.writeHere c width' = .ok t') (hfit : t.cursor.col + width' ≤ t.cols) :
    t.Records none t' := by
  have hrow := (retouched_of_releaseCovered hrelease).row_eq
  unfold writeHere at h
  dsimp only at h
  split at h
  · cases h
  · split at h
    · cases h
    · split at h
      · cases h
      · obtain rfl := Except.ok.inj h
        rw [hrow]
        obtain rfl := eq_of_releaseCovered hrelease
        rw [cursor_modifyActive, Page.cursor_modifyRow]
        exact records_write rfl hfit

/-- The row that loses its last character, and the one that receives it. -/
theorem records_of_wrapLastCluster (h : t.wrapLastCluster = .ok (some t')) : t.Records none t' := by
  unfold wrapLastCluster at h
  dsimp only at h
  split at h
  · cases h
  · split at h
    · cases h
    · obtain ⟨released, hrelease, hplace⟩ := exists_of_bind_eq_ok h
      obtain rfl := Option.some.inj (Except.ok.inj hplace)
      obtain rfl := eq_of_releaseCovered hrelease
      refine .trans (.trans ?_ (records_index _)) (records_write rfl ?_)
      · exact .modifyActive (onShown_of_row_eq rfl) rfl (fun _ => Nat.zero_le _)
          fun ht => .write _ _ _ ht.seated.shown
      · rw [(records_index _).onShown.cols_eq, cols_modifyActive]
        simp only [List.length_drop, List.length_take]
        omega

/-- The moved character ends before the margin. -/
theorem col_lt_of_wrapLastCluster (h : t.wrapLastCluster = .ok (some t')) :
    t'.cursor.col < t.cols := by
  unfold wrapLastCluster at h
  dsimp only at h
  split at h
  · cases h
  · split at h
    · cases h
    · next hstart =>
      obtain ⟨released, -, hplace⟩ := exists_of_bind_eq_ok h
      obtain rfl := Option.some.inj (Except.ok.inj hplace)
      have hpos : 0 < t.cols := by
        refine Nat.pos_of_ne_zero fun hzero => hstart ?_
        rw [hzero, Nat.zero_min]
        rfl
      rw [cursor_modifyActive]
      change (List.drop _ _).length < t.cols
      simp only [List.length_drop, List.length_take]
      omega

/-- Attaching a mark records the rows it changes. -/
theorem records_of_attach (h : t.attach c = .ok t') : t.Records none t' := by
  unfold attach at h
  split at h
  · cases h
  · split at h
    · split at h
      · obtain ⟨moved, hmoved, hattach⟩ := exists_of_bind_eq_ok h
        cases moved with
        | none =>
            obtain rfl := Except.ok.inj hattach
            exact .refl _
        | some wrapped =>
            have hwrapped := records_of_wrapLastCluster hmoved
            have hcol := col_lt_of_wrapLastCluster hmoved
            rw [← hwrapped.onShown.cols_eq] at hcol
            exact hwrapped.trans (records_of_attachHere hattach hcol)
      · obtain rfl := Except.ok.inj h
        exact .refl _
    · next hmargin => exact records_of_attachHere h (by omega)

/-- The mark that the text goes on in the next row is not drawn. -/
theorem records_of_wrapRow (h : t.wrapRow = .ok t') : t.Records none t' := by
  unfold wrapRow at h
  split at h
  · obtain rfl := Except.ok.inj h
    refine .trans ?_ (records_index _)
    refine .modifyActive (onShown_of_row_eq rfl) rfl (fun _ => Nat.zero_le _) fun _ => ?_
    refine .trans ?_ (.moveToCol _ _)
    exact .modifyRow_of_cells_eq t.active t.cursor.row fun _ => rfl
  · cases h

/-- Making room records all rows if the screen scrolls. -/
theorem records_of_makeRoom {width : Nat} (h : t.makeRoom width = .ok t') : t.Records none t' := by
  obtain ⟨stop, -, hroom⟩ := exists_of_bind_eq_ok h
  split at hroom
  · split at hroom
    · exact records_of_wrapRow hroom
    · obtain rfl := Except.ok.inj hroom
      exact t.records_moveToCol (by omega)
  · obtain rfl := Except.ok.inj hroom
    exact .refl _

/-- After room has been made, a character that is not too wide ends before the margin. -/
theorem col_add_le_of_makeRoom {width : Nat} (h : t.makeRoom width = .ok t')
    (hwidth : width ≤ t.cols) : t'.cursor.col + width ≤ t.cols := by
  obtain ⟨stop, hstop, hroom⟩ := exists_of_bind_eq_ok h
  obtain ⟨-, rfl⟩ := coordinate_eq_ok_iff.mp hstop
  split at hroom
  · split at hroom
    · unfold wrapRow at hroom
      split at hroom
      · obtain rfl := Except.ok.inj hroom
        rw [col_index, cursor_modifyActive]
        change 0 + width ≤ t.cols
        omega
      · cases hroom
    · obtain rfl := Except.ok.inj hroom
      rw [cursor_modifyActive]
      change t.cols - width + width ≤ t.cols
      omega
  · obtain rfl := Except.ok.inj hroom
    omega

/-- Of a character that begins a new one the row is recorded where it is written. -/
theorem records_of_putLead {width : Nat} (h : t.putLead c width = .ok t') : t.Records none t' := by
  unfold putLead at h
  split at h
  · obtain rfl := Except.ok.inj h
    exact .refl _
  · next hfit =>
    obtain ⟨roomy, hroom, hrest⟩ := exists_of_bind_eq_ok h
    have hroomy := records_of_makeRoom hroom
    have hcol := col_add_le_of_makeRoom hroom (Nat.not_lt.mp hfit)
    rw [← hroomy.onShown.cols_eq] at hcol
    obtain ⟨released, hrelease, hwrite⟩ := exists_of_bind_eq_ok hrest
    -- Inserting blanks leaves the cursor.
    split at hrelease
    · have hinserted := roomy.records_insertChars width
      rw [← hinserted.onShown.cols_eq, ← roomy.cursor_insertChars width] at hcol
      exact (hroomy.trans hinserted).trans (records_of_overwrite hrelease hwrite hcol)
    · exact hroomy.trans (records_of_overwrite hrelease hwrite hcol)

/-- Printing a character records the rows that it changes. -/
theorem records_of_putChar (h : t.putChar c = .ok t') : t.Records none t' := by
  rw [putChar_eq] at h
  cases hwidth : Text.columns? c with
  | none =>
      rw [hwidth] at h
      obtain rfl := Except.ok.inj h
      exact .refl _
  | some w =>
      rw [hwidth, Option.elim_some] at h
      split at h
      · exact records_of_attach h
      · exact records_of_putLead h

/-- And so does printing a text. -/
theorem records_of_putText {text : List Char} (h : t.putText text = .ok t') :
    t.Records none t' := by
  rw [putText_eq] at h
  refine foldlM_induction (P := t.Records none) ?_ (.refl t) h
  intro c _ before after hbefore hok
  exact hbefore.trans (records_of_putChar hok)

end Printing

/-! ## Actions under the same modes -/

section Actions

variable (t : Terminal)

theorem records_withStyle (style : Style) : t.Records none { t with style := style } :=
  .of_frame (t.onShown_withStyle style) rfl rfl rfl rfl

/-- Saving the cursor changes no row. -/
theorem records_saveCursor : t.Records none t.saveCursor :=
  t.records_modifyCursor t.onShown_saveCursor rfl id

theorem records_restoreCursor : t.Records none t.restoreCursor := by
  unfold restoreCursor
  split
  · refine (records_modifyCursor _ (onShown_modifyActive ?_) rfl ?_).trans (records_withStyle _ _)
    · intro _
      exact Nat.min_le_right _ _
    · intro _
      dsimp only
      omega
  · exact .refl t

/-- **An action that never fails** records what it changes. -/
theorem records_performSimple {action : Action} (h : action.KeepsModes) :
    t.Records none (t.performSimple action) := by
  cases action with
  | backspace => exact t.records_cursorBackward 1
  | lineFeed => exact t.records_lineFeed
  | carriageReturn => exact t.records_carriageReturn
  | saveCursor => exact t.records_saveCursor
  | restoreCursor => exact t.records_restoreCursor
  | index => exact t.records_index
  | nextLine => exact t.records_carriageReturn.trans (records_index _)
  | reverseIndex => exact t.records_reverseIndex
  | reset => exact h.elim
  | applicationKeypad on => exact h.elim
  | setTitle title => exact .of_frame (t.onShown_withTitle title) rfl rfl rfl rfl
  | cursorUp n => exact t.records_cursorUp n
  | cursorDown n => exact t.records_cursorDown n
  | cursorForward n => exact t.records_cursorForward n
  | cursorBackward n => exact t.records_cursorBackward n
  | cursorNextLine n => exact (t.records_cursorDown n).trans (records_carriageReturn _)
  | cursorPreviousLine n => exact (t.records_cursorUp n).trans (records_carriageReturn _)
  | cursorColumn col => exact t.records_cursorColumn col
  | cursorRow row => exact t.records_cursorRow row
  | cursorPosition row col => exact t.records_cursorPosition row col
  | eraseInDisplay part => exact t.records_eraseInDisplay part
  | eraseInLine part => exact t.records_eraseInLine part
  | insertChars n => exact t.records_insertChars n
  | deleteChars n => exact t.records_deleteChars n
  | eraseChars n => exact t.records_eraseChars n
  | scrollUp n => exact t.records_scrollUp n
  | scrollDown n => exact t.records_scrollDown n
  | setScrollRegion top bottom => exact t.records_setScrollRegion top _
  | selectRendition params => exact t.records_withStyle _
  | setPrivateModes codes on => exact h.elim
  | setStandardModes codes on => exact h.elim
  | setCursorShape code =>
      change t.Records none (t.modifyCursor fun c => { c with shape := .ofCode code })
      exact t.records_modifyCursor (onShown_modifyCursor rfl) rfl id
  | protectText on => exact t.records_withStyle _
  | print | horizontalTab | insertLines | deleteLines | reportStatus | reportCursor
  | reportAttributes | reportSecondaryAttributes => exact .refl t

/-- **An action records what it changes**, on the page that is shown, unless it is a reset or
switches modes. -/
theorem records_of_perform {t t' : Terminal} {action : Action} {replies : List Reply}
    (haction : action.KeepsModes) (h : t.perform action = .ok (t', replies)) :
    t.Records none t' := by
  rcases perform_cases h with ⟨c, -, hprint⟩ | ⟨-, hmove⟩ | ⟨n, -, hopen⟩ | ⟨n, -, hclose⟩ | rfl
  · exact records_of_putChar hprint
  · exact records_of_horizontalTab hmove
  · exact records_of_insertLines hopen
  · exact records_of_deleteLines hclose
  · exact t.records_performSimple haction

end Actions

end Terminal

end VideoTerminal
