import VideoTerminal.Proofs.Terminal.Recorded

/-!
# What asks for drawing

Whether anything is to be drawn is known from the actions alone: each of them asks for it or not,
which depends on where the cursor stands and on what is shown (`Terminal.touches`).  Printing,
erasing, scrolling and changing the page do; of the motions only those that return the carriage do.
All other motions, tabs, the saved cursor, its visibility and its shape leave to the next change of
a row what has become of the cursor.

There is something to be drawn after an action if and only if there was before it or the action asks
for it (`Terminal.pending_of_perform_eq`), and so after any number of them
(`Terminal.pending_of_performAll_eq`).
-/

namespace VideoTerminal

/-- A row that is edited is recorded, if there is one. -/
theorem Page.changed_editRow (p : Page) (row : Nat) (f : Row → Row) :
    (p.editRow row f).changed = (p.changed || decide (row < p.rows.length)) := by
  unfold editRow
  split
  · next hrow =>
    rw [decide_eq_true hrow, Bool.or_true]
    rfl
  · next hrow => rw [decide_eq_false hrow, Bool.or_false]

namespace Terminal

/-! ## Actions that ask for drawing -/

/-- Whether the scroll region lies on the screen, so that it can scroll. -/
def canScroll (t : Terminal) : Bool := t.region.fits t.active.rows.length

/-- Whether the cursor stands on a row. -/
def onRow (t : Terminal) : Bool := decide (t.cursor.row < t.active.rows.length)

/-- Whether the cursor stands on a cell. -/
def onCell (t : Terminal) : Bool :=
  t.active.rows[t.cursor.row]?.any fun row => decide (t.cursor.col < row.cells.length)

/-- Whether rows are opened and removed at the cursor. -/
def inScroll (t : Terminal) : Bool :=
  decide (t.region.top ≤ t.cursor.row ∧ t.cursor.row ≤ t.region.bottom)

/-- Whether there are rows that are cleared with the screen. -/
def hasRows (t : Terminal) : Bool := decide (0 < min t.rows t.active.rows.length)

/-- Whether the character that ends the cursor's row can leave it, since it does not fill it. -/
def canLeaveRow (t : Terminal) : Bool :=
  t.active.rows[t.cursor.row]?.any fun row =>
    lastClusterStart row.cells (min t.cols row.cells.length - 1) != 0

/-- Whether printing a character asks for drawing.  What is dropped does not: a control, a character
wider than the screen, and one that is attached where there is no room and none can be made. -/
def touchesChar (t : Terminal) (c : Char) : Bool :=
  match Text.columns? c with
  | none => false
  | some w =>
    if w = 0 ∨ extendsPrevious t.previousScalar? c then
      decide (t.cursor.col < t.cols) || (t.has .autoWrap && t.canLeaveRow)
    else decide (w ≤ t.cols)

/-- Whether erasing a part of the screen asks for drawing. -/
def touchesDisplay (t : Terminal) (part : Nat) : Bool :=
  match part with
  | 0 => t.onRow
  | 1 => decide (0 < t.active.rows.length)
  | 2 | 3 => t.hasRows
  | _ => false

/-- Whether switching a mode asks for drawing. -/
def touchesMode (t : Terminal) (m : Mode) (on : Bool) : Bool :=
  match m with
  | .alternateBuffer => on != t.usingAlternate
  | .synchronizedUpdate => !on
  | .wideColumn => t.hasRows
  | _ => false

/-- Whether switching the mode of a private number asks for drawing. -/
def touchesCode (t : Terminal) (on : Bool) (code : Nat) : Bool :=
  if code = 1049 then t.touchesMode .alternateBuffer on
  else (Mode.ofPrivate? code).any fun m => t.touchesMode m on

/-- Whether switching the modes of private numbers, one after the other, asks for drawing. -/
def touchesCodes (t : Terminal) (on : Bool) : List Nat → Bool
  | [] => false
  | code :: rest => t.touchesCode on code || (t.setPrivateMode on code).touchesCodes on rest

/-- Whether an action asks for drawing. -/
def touches (t : Terminal) : Action → Bool
  | .print c => t.touchesChar c
  | .carriageReturn | .nextLine | .cursorNextLine _ | .cursorPreviousLine _ | .reset => true
  | .lineFeed | .index => t.cursor.row == t.region.bottom && t.canScroll
  | .reverseIndex => t.cursor.row == t.region.top && t.canScroll
  | .scrollUp _ | .scrollDown _ => t.canScroll
  | .insertLines _ | .deleteLines _ => t.inScroll
  | .insertChars _ | .deleteChars _ | .eraseChars _ => t.onCell
  | .eraseInLine part => decide (part ≤ 2) && t.onRow
  | .eraseInDisplay part => t.touchesDisplay part
  | .setPrivateModes codes on => t.touchesCodes on codes
  -- Only the cursor, or nothing that is shown.
  | .backspace | .horizontalTab | .cursorUp _ | .cursorDown _ | .cursorForward _
  | .cursorBackward _ | .cursorColumn _ | .cursorRow _ | .cursorPosition _ _ | .setScrollRegion _ _
  | .saveCursor | .restoreCursor | .setCursorShape _ | .applicationKeypad _ | .setStandardModes _ _
  | .setTitle _ | .selectRendition _ | .protectText _ | .reportStatus | .reportCursor
  | .reportAttributes | .reportSecondaryAttributes => false

/-- Whether one of several actions asks for drawing where it is carried out. -/
def touchesAny (t : Terminal) : List Action → Bool
  | [] => false
  | action :: rest =>
    t.touches action ||
      match t.perform action with
      | .ok (t', _) => t'.touchesAny rest
      | .error _ => false

/-! ## Steps that ask for drawing -/

/-- From `t` to `t'` drawing has been asked for, or it has not. -/
def Asks (t : Terminal) (drawn : Bool) (t' : Terminal) : Prop :=
  t'.pending = (t.pending || drawn)

namespace Asks

variable {t t' t'' : Terminal} {drawn drawn' : Bool}

theorem refl (t : Terminal) : t.Asks false t := (Bool.or_false _).symm

/-- Two steps ask for drawing if one of them does. -/
theorem trans (h : t.Asks drawn t') (h' : t'.Asks drawn' t'') : t.Asks (drawn || drawn') t'' := by
  rw [Asks, h', h, Bool.or_assoc]

theorem congr (h : t.Asks drawn t') (heq : drawn = drawn') : t.Asks drawn' t' := heq ▸ h

/-- Once is enough. -/
theorem trans_true (h : t.Asks drawn t') (h' : t'.Asks true t'') : t.Asks true t'' := by
  have hboth := h.trans h'
  rwa [Bool.or_true] at hboth

/-- A change of the page asks for drawing if the page is changed by it. -/
theorem modifyActive {f : Page → Page} (h : (f t.active).changed = (t.active.changed || drawn)) :
    t.Asks drawn (t.modifyActive f) := by
  unfold active at h
  unfold Asks Terminal.modifyActive pending
  cases hon : t.usingAlternate with
  | false =>
      rw [hon] at h
      simp only [Bool.false_eq_true, if_false] at h ⊢
      rw [h, ← Bool.or_assoc, Bool.or_right_comm]
  | true =>
      rw [hon] at h
      simp only [if_true] at h ⊢
      rw [h, Bool.or_assoc _ _ drawn]

/-- A change that marks the page asks for drawing. -/
theorem of_changed {f : Page → Page} (h : (f t.active).changed = true) :
    t.Asks true (t.modifyActive f) :=
  modifyActive (h.trans (Bool.or_true _).symm)

/-- A change that leaves the mark asks for nothing. -/
theorem of_unchanged {f : Page → Page} (h : (f t.active).changed = t.active.changed) :
    t.Asks false (t.modifyActive f) :=
  modifyActive (h.trans (Bool.or_false _).symm)

/-- A page that is changed under a condition. -/
theorem of_ite {p : Prop} [Decidable p] {f : Page → Page} (h : (f t.active).changed = true) :
    t.Asks (decide p) (if p then t.modifyActive f else t) := by
  split
  · next hp =>
    rw [decide_eq_true hp]
    exact .of_changed h
  · next hp =>
    rw [decide_eq_false hp]
    exact .refl t

/-- What the pages share. -/
theorem of_frame (hflush : t'.flushRequested = t.flushRequested) (hprimary : t'.primary = t.primary)
    (halternate : t'.alternate = t.alternate) : t.Asks false t' := by
  rw [Asks, pending, hflush, hprimary, halternate, Bool.or_false, pending]

end Asks

/-! ## Scrolling and moving -/

section Moves

variable (t : Terminal)

/-- Scrolling up asks for drawing if the region can scroll. -/
theorem asks_scrollUp (n : Nat) : t.Asks t.canScroll (t.scrollUp n) := by
  have hscroll := Asks.of_ite (t := t) (p := t.canScroll = true)
    (f := fun p => (p.scrollUp t.region.top t.region.bottom t.cols
      (!t.usingAlternate && t.region.top == 0) (min n t.region.height)).markAllDirty) rfl
  exact hscroll.congr Bool.decide_eq_true

theorem asks_scrollDown (n : Nat) : t.Asks t.canScroll (t.scrollDown n) := by
  have hscroll := Asks.of_ite (t := t) (p := t.canScroll = true)
    (f := fun p => (p.scrollDown t.region.top t.region.bottom t.cols
      (min n t.region.height)).markAllDirty) rfl
  exact hscroll.congr Bool.decide_eq_true

/-- Moving in the row asks for nothing. -/
theorem asks_moveToCol (col : Nat) : t.Asks false (t.modifyActive fun p => p.moveToCol col) :=
  .of_unchanged rfl

/-- Moving the cursor asks for nothing. -/
theorem asks_modifyCursor (f : Cursor → Cursor) : t.Asks false (t.modifyCursor f) :=
  .of_unchanged rfl

theorem asks_cursorUp (n : Nat) : t.Asks false (t.cursorUp n) := .of_unchanged rfl

theorem asks_cursorDown (n : Nat) : t.Asks false (t.cursorDown n) := .of_unchanged rfl

/-- A carriage return asks for drawing. -/
theorem asks_carriageReturn : t.Asks true t.carriageReturn := .of_changed rfl

/-- Going down a row asks for drawing if the screen scrolls. -/
theorem asks_index : t.Asks (t.cursor.row == t.region.bottom && t.canScroll) t.index := by
  unfold index
  dsimp only
  split
  · next hbottom =>
    rw [hbottom, beq_self_eq_true, Bool.true_and]
    exact t.asks_scrollUp 1
  · next hbottom =>
    rw [beq_false_of_ne hbottom, Bool.false_and]
    split
    · exact .of_unchanged rfl
    · exact .refl t

theorem asks_lineFeed : t.Asks (t.cursor.row == t.region.bottom && t.canScroll) t.lineFeed := by
  unfold lineFeed
  split
  · have hindex := (t.modifyActive fun p => p.moveToCol 0).asks_index
    rw [canScroll, cursor_modifyActive, region_modifyActive, active_modifyActive] at hindex
    exact (t.asks_moveToCol 0).trans hindex
  · exact t.asks_index

theorem asks_reverseIndex :
    t.Asks (t.cursor.row == t.region.top && t.canScroll) t.reverseIndex := by
  unfold reverseIndex
  split
  · next htop =>
    rw [htop, beq_self_eq_true, Bool.true_and]
    exact t.asks_scrollDown 1
  · next htop =>
    rw [beq_false_of_ne htop, Bool.false_and]
    exact .of_unchanged rfl

theorem asks_cursorPosition (row col : Nat) : t.Asks false (t.cursorPosition row col) := by
  have hrow : t.Asks false (t.cursorRow row) := .of_unchanged rfl
  exact hrow.trans (asks_moveToCol _ _)

/-- Setting the region asks for nothing. -/
theorem asks_setScrollRegion (top bottom : Nat) :
    t.Asks false (t.setScrollRegion top bottom) := by
  unfold setScrollRegion
  dsimp only
  split
  · exact (Asks.of_frame rfl rfl rfl).trans (asks_cursorPosition _ 1 1)
  · exact .refl t

/-- A tab asks for nothing. -/
theorem asks_of_horizontalTab {t t' : Terminal} (h : t.horizontalTab = .ok t') :
    t.Asks false t' := by
  obtain ⟨stop, -, hok⟩ := exists_of_bind_eq_ok h
  obtain rfl := Except.ok.inj hok
  exact t.asks_moveToCol _

/-- Rows that are opened or removed at the cursor, if it stands in the region. -/
theorem asks_of_lines {t t' : Terminal} {p : Prop} [Decidable p] {fault : Fault} {f : Page → Page}
    (h : (if t.cursor.row < t.region.top ∨ t.region.bottom < t.cursor.row then .ok t
      else if p then .error fault else .ok (t.modifyActive f)) = Except.ok t')
    (hf : (f t.active).changed = true) : t.Asks t.inScroll t' := by
  unfold inScroll
  split at h
  · obtain rfl := Except.ok.inj h
    rw [decide_eq_false (by omega)]
    exact .refl _
  · rw [decide_eq_true (by omega)]
    split at h
    · cases h
    · obtain rfl := Except.ok.inj h
      exact .of_changed hf

/-- Inserting lines asks for drawing if the cursor is in the region. -/
theorem asks_of_insertLines {t t' : Terminal} {n : Nat} (h : t.insertLines n = .ok t') :
    t.Asks t.inScroll t' := asks_of_lines h rfl

theorem asks_of_deleteLines {t t' : Terminal} {n : Nat} (h : t.deleteLines n = .ok t') :
    t.Asks t.inScroll t' := asks_of_lines h rfl

end Moves

/-! ## Editing and erasing -/

section Edits

variable (t : Terminal)

/-- An edit asks for drawing if the cursor is on a cell. -/
theorem asks_editCursorRow (edit : Cells → Nat → Cells) :
    t.Asks t.onCell (t.editCursorRow edit) := by
  refine .modifyActive ?_
  unfold onCell cursor
  cases hrow : t.active.rows[t.active.cursor.row]? with
  | none => exact (Bool.or_false _).symm
  | some row =>
      have hlt : t.active.cursor.row < t.active.rows.length :=
        (List.getElem?_eq_some_iff.mp hrow).1
      rw [Option.any_some]
      dsimp only
      split
      · next hcol => rw [Page.changed_editRow, decide_eq_true hlt, decide_eq_true hcol]
      · next hcol => rw [decide_eq_false hcol, Bool.or_false]

/-- Erasing in the row asks for drawing if there is a row, and the part is known. -/
theorem asks_eraseInLine (part : Nat) :
    t.Asks (decide (part ≤ 2) && t.onRow) (t.eraseInLine part) := by
  refine .modifyActive ?_
  match part with
  | 0 | 1 | 2 => exact Page.changed_editRow ..
  | part + 3 =>
      rw [decide_eq_false (by omega), Bool.false_and, Bool.or_false]
      rfl

/-- Erasing in the row leaves as many rows. -/
theorem length_rows_eraseInLine (part : Nat) :
    (t.eraseInLine part).active.rows.length = t.active.rows.length := by
  obtain ⟨edit, hrows⟩ := (t.retouched_eraseInLine part).active.rows_eq
  rw [hrows, List.length_modify]

/-- Clearing rows asks for drawing if there are any. -/
theorem asks_clearRows (start stop : Page → Nat) (blank : Cell) :
    t.Asks (decide (start t.active < min (stop t.active) t.active.rows.length))
      (t.modifyActive fun p => p.clearRows (start p) (stop p) blank) :=
  .modifyActive rfl

/-- Erasing on the screen asks for drawing if some rows are erased. -/
theorem asks_eraseInDisplay (part : Nat) :
    t.Asks (t.touchesDisplay part) (t.eraseInDisplay part) := by
  -- Besides a part of the cursor's row other rows are cleared.
  have hrow : ∀ part, (t.eraseInLine part).active.cursor.row = t.cursor.row :=
    fun part => (t.retouched_eraseInLine part).row_eq
  match part with
  | 0 =>
      refine ((t.asks_eraseInLine 0).trans
        (asks_clearRows _ (fun p => p.cursor.row + 1) (fun _ => t.rows) t.blank)).congr ?_
      rw [hrow, length_rows_eraseInLine, onRow, touchesDisplay, onRow]
      simp only [Nat.zero_le, decide_true, Bool.true_and, ← Bool.decide_or]
      exact decide_eq_decide.mpr (by omega)
  | 1 =>
      refine ((t.asks_eraseInLine 1).trans
        (asks_clearRows _ (fun _ => 0) (fun p => p.cursor.row) t.blank)).congr ?_
      rw [hrow, length_rows_eraseInLine, onRow, touchesDisplay]
      simp only [← Bool.decide_or, ← Bool.decide_and]
      exact decide_eq_decide.mpr (by omega)
  | 2 => exact t.asks_clearRows (fun _ => 0) (fun _ => t.rows) t.blank
  | 3 => exact .modifyActive rfl
  | part + 4 => exact .refl t

/-- Clearing the screen asks for drawing if it has rows. -/
theorem asks_clearScreen : t.Asks t.hasRows t.clearScreen := by
  have hboth := (t.asks_eraseInDisplay 2).trans (asks_cursorPosition _ 1 1)
  rwa [Bool.or_false] at hboth

end Edits

/-! ## Printing -/

section Printing

variable {t t' : Terminal} {c : Char}

/-- Releasing what is covered asks for nothing by itself. -/
theorem asks_of_releaseCovered {row col width : Nat} (h : t.releaseCovered row col width = .ok t') :
    t.Asks false t' := by
  obtain rfl := eq_of_releaseCovered h
  exact .of_unchanged rfl

/-- Putting a mark in its row asks for drawing. -/
theorem asks_of_attachHere (h : t.attachHere c = .ok t') : t.Asks true t' := by
  unfold attachHere at h
  dsimp only at h
  split at h
  · cases h
  · split at h
    · obtain rfl := Except.ok.inj h
      exact .of_changed rfl
    · cases h

/-- A character leaves its row unless it fills it. -/
theorem canLeaveRow_of_wrapLastCluster {wrapped : Option Terminal}
    (h : t.wrapLastCluster = .ok wrapped) : t.canLeaveRow = wrapped.isSome := by
  unfold wrapLastCluster at h
  dsimp only at h
  unfold canLeaveRow
  split at h
  · cases h
  · next row hrow =>
    rw [hrow, Option.any_some]
    split at h
    · next hfills =>
      rw [← Except.ok.inj h, hfills]
      rfl
    · next hleaves =>
      obtain ⟨released, -, hplace⟩ := exists_of_bind_eq_ok h
      rw [← Except.ok.inj hplace]
      exact bne_iff_ne.mpr hleaves

/-- Taking a character along asks for drawing. -/
theorem asks_of_wrapLastCluster (h : t.wrapLastCluster = .ok (some t')) : t.Asks true t' := by
  unfold wrapLastCluster at h
  dsimp only at h
  split at h
  · cases h
  · split at h
    · cases h
    · obtain ⟨released, hrelease, hplace⟩ := exists_of_bind_eq_ok h
      obtain rfl := Option.some.inj (Except.ok.inj hplace)
      have hreleased := (asks_index _).trans (asks_of_releaseCovered hrelease)
      exact ((Asks.of_changed rfl).trans hreleased).trans_true (.of_changed rfl)

/-- Attaching asks for drawing if there is room, or room can be made. -/
theorem asks_of_attach (h : t.attach c = .ok t') :
    t.Asks (decide (t.cursor.col < t.cols) || (t.has .autoWrap && t.canLeaveRow)) t' := by
  unfold attach at h
  split at h
  · cases h
  · split at h
    · next hmargin =>
      rw [decide_eq_false (by omega), Bool.false_or]
      split at h
      · next hwrap =>
        obtain ⟨moved, hmoved, hattach⟩ := exists_of_bind_eq_ok h
        rw [hwrap, Bool.true_and, canLeaveRow_of_wrapLastCluster hmoved]
        cases moved with
        | none =>
            obtain rfl := Except.ok.inj hattach
            exact .refl _
        | some wrapped =>
            exact (asks_of_wrapLastCluster hmoved).trans_true (asks_of_attachHere hattach)
      · next hwrap =>
        obtain rfl := Except.ok.inj h
        rw [Bool.eq_false_iff.mpr hwrap, Bool.false_and]
        exact .refl _
    · next hroom =>
      rw [decide_eq_true (by omega), Bool.true_or]
      exact asks_of_attachHere h

/-- Writing a character asks for drawing. -/
theorem asks_of_writeHere {width : Nat} (h : t.writeHere c width = .ok t') : t.Asks true t' := by
  unfold writeHere at h
  dsimp only at h
  split at h
  · cases h
  · split at h
    · cases h
    · split at h
      · cases h
      · obtain rfl := Except.ok.inj h
        exact .of_changed rfl

/-- Going on in the next row may scroll. -/
theorem exists_asks_of_makeRoom {width : Nat} (h : t.makeRoom width = .ok t') :
    ∃ drawn, t.Asks drawn t' := by
  obtain ⟨stop, -, hroom⟩ := exists_of_bind_eq_ok h
  split at hroom
  · split at hroom
    · unfold wrapRow at hroom
      split at hroom
      · obtain rfl := Except.ok.inj hroom
        exact ⟨_, (Asks.of_unchanged rfl).trans (asks_index _)⟩
      · cases hroom
    · obtain rfl := Except.ok.inj hroom
      exact ⟨_, t.asks_moveToCol _⟩
  · obtain rfl := Except.ok.inj hroom
    exact ⟨_, .refl _⟩

/-- **Printing** asks for drawing unless the character is dropped. -/
theorem asks_of_putChar (h : t.putChar c = .ok t') : t.Asks (t.touchesChar c) t' := by
  revert h
  rw [putChar_eq]
  unfold touchesChar
  cases Text.columns? c with
  | none =>
      intro h
      obtain rfl := Except.ok.inj h
      exact .refl _
  | some w =>
      dsimp only [Option.elim_some]
      intro h
      split at h
      · next hattached =>
        rw [if_pos hattached]
        exact asks_of_attach h
      · next hattached =>
        rw [if_neg hattached]
        unfold putLead at h
        split at h
        · next hwide =>
          obtain rfl := Except.ok.inj h
          rw [decide_eq_false (by omega)]
          exact .refl _
        · next hfits =>
          rw [decide_eq_true (by omega)]
          obtain ⟨roomy, hroom, hrest⟩ := exists_of_bind_eq_ok h
          obtain ⟨released, hrelease, hwrite⟩ := exists_of_bind_eq_ok hrest
          obtain ⟨drawn, hroomy⟩ := exists_asks_of_makeRoom hroom
          -- Whatever else is done, the character is written.
          split at hrelease
          · have hshifted : t.Asks _ (roomy.insertChars w) :=
              hroomy.trans (roomy.asks_editCursorRow _)
            exact (hshifted.trans (asks_of_releaseCovered hrelease)).trans_true
              (asks_of_writeHere hwrite)
          · exact (hroomy.trans (asks_of_releaseCovered hrelease)).trans_true
              (asks_of_writeHere hwrite)

end Printing

/-! ## Modes -/

section Modes

variable (t : Terminal)

theorem asks_saveCursor : t.Asks false t.saveCursor := t.asks_modifyCursor _

theorem asks_restoreCursor : t.Asks false t.restoreCursor := by
  unfold restoreCursor
  split
  · exact (t.asks_modifyCursor _).trans (.of_frame rfl rfl rfl)
  · exact .refl t

/-- Showing the other page asks for drawing. -/
theorem asks_useAlternateBuffer (on : Bool) :
    t.Asks (on != t.usingAlternate) (t.useAlternateBuffer on) := by
  by_cases hon : on = t.usingAlternate
  · rw [useAlternateBuffer, if_pos hon, bne_eq_false_iff_eq.mpr hon]
    exact .refl t
  · rw [bne_iff_ne.mpr hon, useAlternateBuffer, if_neg hon, Asks, Bool.or_true]
    exact pending_of_changed (by rw [active_modifyActive]; rfl)

/-- **A mode** asks for drawing if one of its effects does. -/
theorem asks_setMode (m : Mode) (on : Bool) : t.Asks (t.touchesMode m on) (t.setMode m on) := by
  have hrecorded : t.Asks false { t with modes := t.modes.set m on } := .of_frame rfl rfl rfl
  cases m with
  | alternateBuffer => exact hrecorded.trans (asks_useAlternateBuffer _ on)
  | storeCursor =>
      cases on with
      | true => exact hrecorded.trans (asks_saveCursor _)
      | false => exact hrecorded.trans (asks_restoreCursor _)
  | cursorVisible => exact hrecorded.trans (asks_modifyCursor _ fun c => { c with visible := on })
  | synchronizedUpdate =>
      cases on with
      | true => exact hrecorded.trans (.of_frame rfl rfl rfl)
      | false =>
          rw [Asks, touchesMode, Bool.not_false, Bool.or_true]
          exact pending_iff.mpr (.inl (flushRequested_modifyActive _ _))
  | wideColumn =>
      have hcleared := hrecorded.trans (asks_clearScreen _)
      exact (hcleared.trans (.of_frame rfl rfl rfl)).congr (Bool.or_false _)
  | _ => exact hrecorded

/-- A private mode asks for drawing if its mode does. -/
theorem asks_setPrivateMode (on : Bool) (code : Nat) :
    t.Asks (t.touchesCode on code) (t.setPrivateMode on code) := by
  unfold setPrivateMode touchesCode
  split
  · -- The cursor is saved and restored; only the change of the page asks for drawing.
    cases on with
    | true =>
        have hpage : (t.setMode .storeCursor true).usingAlternate = t.usingAlternate :=
          (onShown_saveCursor _).usingAlternate_eq
        exact ((t.asks_setMode .storeCursor true).trans
          (asks_setMode _ .alternateBuffer true)).congr (congrArg (true != ·) hpage)
    | false =>
        exact ((t.asks_setMode .alternateBuffer false).trans
          (asks_setMode _ .storeCursor false)).congr (Bool.or_false _)
  · cases Mode.ofPrivate? code with
    | none => exact .refl t
    | some m => exact t.asks_setMode m on

theorem asks_setPrivateModes (on : Bool) (codes : List Nat) :
    t.Asks (t.touchesCodes on codes) (codes.foldl (fun t code => t.setPrivateMode on code) t) := by
  induction codes generalizing t with
  | nil => exact .refl t
  | cons code rest ih => exact (t.asks_setPrivateMode on code).trans (ih _)

/-- The modes of standard numbers have no effects. -/
theorem asks_setStandardMode (on : Bool) (code : Nat) :
    t.Asks false (t.setStandardMode on code) := by
  unfold setStandardMode
  split
  · next m hm =>
    refine (t.asks_setMode m on).congr ?_
    unfold Mode.ofStandard? at hm
    split at hm
    all_goals cases hm
    all_goals rfl
  · exact .refl t

/-- Standard modes ask for nothing. -/
theorem asks_setStandardModes (on : Bool) (codes : List Nat) :
    t.Asks false (codes.foldl (fun t code => t.setStandardMode on code) t) :=
  List.foldlRecOn codes _ (Asks.refl t) fun _ h code _ => h.trans (asks_setStandardMode _ on code)

end Modes

/-! ## Actions -/

/-- **An action that never fails** asks for drawing as its kind says. -/
theorem asks_performSimple {t : Terminal} {action : Action} {replies : List Reply}
    (h : t.perform action = .ok (t.performSimple action, replies)) :
    t.Asks (t.touches action) (t.performSimple action) := by
  cases action with
  | print c =>
      obtain ⟨printed, hprint, hok⟩ := exists_of_bind_eq_ok (t.perform_print c ▸ h)
      obtain rfl := congrArg Prod.fst (Except.ok.inj hok)
      exact asks_of_putChar hprint
  | insertLines n =>
      obtain ⟨opened, hopen, hok⟩ := exists_of_bind_eq_ok (t.perform_insertLines n ▸ h)
      obtain rfl := congrArg Prod.fst (Except.ok.inj hok)
      exact asks_of_insertLines hopen
  | deleteLines n =>
      obtain ⟨closed, hclose, hok⟩ := exists_of_bind_eq_ok (t.perform_deleteLines n ▸ h)
      obtain rfl := congrArg Prod.fst (Except.ok.inj hok)
      exact asks_of_deleteLines hclose
  | lineFeed => exact t.asks_lineFeed
  | carriageReturn => exact t.asks_carriageReturn
  | restoreCursor => exact t.asks_restoreCursor
  | index => exact t.asks_index
  | nextLine => exact (t.asks_carriageReturn.trans (asks_index _)).congr (Bool.true_or _)
  | reverseIndex => exact t.asks_reverseIndex
  | reset => exact (pending_of_changed rfl).trans (Bool.or_true _).symm
  | applicationKeypad on => exact t.asks_setMode .keypad on
  | cursorNextLine n => exact (t.asks_cursorDown n).trans_true (asks_carriageReturn _)
  | cursorPreviousLine n => exact (t.asks_cursorUp n).trans_true (asks_carriageReturn _)
  | cursorPosition row col => exact t.asks_cursorPosition row col
  | eraseInDisplay part => exact t.asks_eraseInDisplay part
  | eraseInLine part => exact t.asks_eraseInLine part
  | insertChars n => exact t.asks_editCursorRow _
  | deleteChars n => exact t.asks_editCursorRow _
  | eraseChars n => exact t.asks_editCursorRow _
  | scrollUp n => exact t.asks_scrollUp n
  | scrollDown n => exact t.asks_scrollDown n
  | setScrollRegion top bottom => exact t.asks_setScrollRegion top _
  | setPrivateModes codes on => exact t.asks_setPrivateModes on codes
  | setStandardModes codes on => exact t.asks_setStandardModes on codes
  | setTitle | selectRendition | protectText => exact .of_frame rfl rfl rfl
  | horizontalTab | reportStatus | reportCursor | reportAttributes | reportSecondaryAttributes =>
      exact .refl t
  | backspace | cursorUp | cursorDown | cursorForward | cursorBackward | cursorColumn | cursorRow
  | saveCursor | setCursorShape => exact .of_unchanged rfl

/-- **There is something to be drawn after an action** if and only if there was before it, or the
action asks for it. -/
theorem pending_of_perform_eq {t t' : Terminal} {action : Action} {replies : List Reply}
    (h : t.perform action = .ok (t', replies)) :
    t'.pending = (t.pending || t.touches action) := by
  rcases perform_cases h with ⟨c, rfl, hprint⟩ | ⟨rfl, hmove⟩ | ⟨n, rfl, hopen⟩ |
    ⟨n, rfl, hclose⟩ | rfl
  · exact asks_of_putChar hprint
  · exact asks_of_horizontalTab hmove
  · exact asks_of_insertLines hopen
  · exact asks_of_deleteLines hclose
  · exact asks_performSimple h

/-- **After any number of actions** there is something to be drawn if and only if there was before
them, or one of them asks for it. -/
theorem pending_of_performAll_eq {t t' : Terminal} {actions : List Action} {replies : List Reply}
    (h : t.performAll actions = .ok (t', replies)) :
    t'.pending = (t.pending || t.touchesAny actions) := by
  induction actions generalizing t replies with
  | nil =>
      obtain rfl := congrArg Prod.fst (Except.ok.inj h)
      exact (Bool.or_false _).symm
  | cons action rest ih =>
      obtain ⟨middle, first, more, hfirst, hrest⟩ := exists_of_performAll_cons h
      rw [ih hrest, pending_of_perform_eq hfirst, touchesAny, hfirst, Bool.or_assoc]

end Terminal

end VideoTerminal
