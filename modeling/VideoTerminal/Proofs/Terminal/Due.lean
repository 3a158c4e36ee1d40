import VideoTerminal.Proofs.Control.Interpreter

/-!
# What is to be drawn does not steer

A terminal remembers whether anything is to be drawn.  Whoever asks makes it forget, so that what it
remembers depends on when it was asked.  Nothing else does: `Terminal.due` is a terminal of which
all is to be drawn, and every operation does to it what it does to the terminal itself
(`perform_due`, `putText_due`).  So two terminals that differ in nothing else show the same after
the same text, and the replies are the same (`Interpreter.foldlM_feedNext_congr`).
-/

namespace VideoTerminal

namespace Page

/-- A page of which something is to be drawn. -/
def due (p : Page) : Page := { p with changed := true }

section Due

variable (p : Page)

@[simp] theorem rows_due : p.due.rows = p.rows := rfl

/-- The cursor does not depend on what is to be drawn. -/
@[simp] theorem cursor_due : p.due.cursor = p.cursor := rfl

/-- That something is to be drawn need not be said twice. -/
@[simp] theorem due_due : p.due.due = p.due := rfl

/-- A row is recorded whether anything was to be drawn or not. -/
@[simp] theorem markDirty_due (line : Nat) : p.due.markDirty line = (p.markDirty line).due := rfl

@[simp] theorem markAllDirty_due : p.due.markAllDirty = p.markAllDirty.due := rfl

/-- A row is changed without looking at what is to be drawn. -/
@[simp] theorem modifyRow_due (row : Nat) (f : Row → Row) :
    p.due.modifyRow row f = (p.modifyRow row f).due := rfl

@[simp] theorem moveToCol_due (col : Nat) : p.due.moveToCol col = (p.moveToCol col).due := rfl

@[simp] theorem moveToRow_due (row : Nat) : p.due.moveToRow row = (p.moveToRow row).due := rfl

/-- A row is edited without looking at what is to be drawn. -/
@[simp] theorem editRow_due (row : Nat) (f : Row → Row) :
    p.due.editRow row f = (p.editRow row f).due := by
  unfold editRow
  rw [rows_due, modifyRow_due, markDirty_due, apply_ite due]

/-- Rows are blanked without looking at what is to be drawn. -/
@[simp] theorem clearRows_due (start stop : Nat) (blank : Cell) :
    p.due.clearRows start stop blank = (p.clearRows start stop blank).due := by
  simp [clearRows, due]

/-- A row goes to the history without looking at what is to be drawn. -/
@[simp] theorem pushScrollback_due (r : Row) :
    p.due.pushScrollback r = (p.pushScrollback r).due := by
  have hlimit : p.due.scrollbackLimit = p.scrollbackLimit := rfl
  unfold pushScrollback
  rw [hlimit]
  split <;> rfl

@[simp] theorem scrollUpOnce_due (top bottom cols : Nat) (keep : Bool) :
    p.due.scrollUpOnce top bottom cols keep = (p.scrollUpOnce top bottom cols keep).due := by
  unfold scrollUpOnce
  rw [rows_due]
  split
  · cases keep with
    | false => rfl
    | true =>
        simp only [if_true, pushScrollback_due, rows_due]
        rfl
  · rfl

/-- Rows go up without looking at what is to be drawn. -/
@[simp] theorem scrollUp_due (top bottom cols : Nat) (keep : Bool) (n : Nat) :
    p.due.scrollUp top bottom cols keep n = (p.scrollUp top bottom cols keep n).due := by
  induction n generalizing p with
  | zero => rfl
  | succ n ih => rw [scrollUp, scrollUpOnce_due, ih, scrollUp]

@[simp] theorem scrollDown_due (top bottom cols n : Nat) :
    p.due.scrollDown top bottom cols n = (p.scrollDown top bottom cols n).due := by
  induction n generalizing p with
  | zero => rfl
  | succ n ih =>
      have honce : p.due.scrollDownOnce top bottom cols = (p.scrollDownOnce top bottom cols).due :=
        rfl
      rw [scrollDown, honce, ih, scrollDown]

end Due

end Page

namespace Terminal

/-- A terminal of which all is to be drawn. -/
def due (t : Terminal) : Terminal :=
  { t with flushRequested := true, primary := t.primary.due, alternate := t.alternate.due }

section Due

variable (t : Terminal)

/-- The width of the screen does not depend on what is to be drawn. -/
@[simp] theorem cols_due : t.due.cols = t.cols := rfl

@[simp] theorem rows_due : t.due.rows = t.rows := rfl

@[simp] theorem style_due : t.due.style = t.style := rfl

@[simp] theorem modes_due : t.due.modes = t.modes := rfl

@[simp] theorem region_due : t.due.region = t.region := rfl

/-- Which page is shown does not depend on what is to be drawn. -/
@[simp] theorem usingAlternate_due : t.due.usingAlternate = t.usingAlternate := rfl

/-- Whether a mode is on does not depend on what is to be drawn. -/
@[simp] theorem has_due (m : Mode) : t.due.has m = t.has m := by
  unfold has
  rw [modes_due]

/-- The cell that erasing leaves does not depend on what is to be drawn. -/
@[simp] theorem blank_due : t.due.blank = t.blank := rfl

/-- All being to be drawn, nothing more can be. -/
@[simp] theorem due_due : t.due.due = t.due := rfl

/-- Of the page that is shown something is to be drawn. -/
@[simp] theorem active_due : t.due.active = t.active.due := by
  unfold active
  rw [usingAlternate_due]
  split <;> rfl

/-- The cursor on the screen does not depend on what is to be drawn. -/
@[simp] theorem cursor_due : t.due.cursor = t.cursor := by simp [cursor]

/-- Where the cursor is seen does not depend on what is to be drawn. -/
@[simp] theorem visualCursorCol_due : t.due.visualCursorCol = t.visualCursorCol := by
  simp [visualCursorCol]

variable {t}

/-- A change of a page that does not look at what is to be drawn. -/
theorem modifyActive_due {f : Page → Page} (hf : ∀ p : Page, f p.due = (f p).due) :
    t.due.modifyActive f = (t.modifyActive f).due := by
  unfold modifyActive
  rw [usingAlternate_due]
  split <;> simp [due, hf]

/-- The cursor is changed without looking at what is to be drawn. -/
theorem modifyCursor_due (f : Cursor → Cursor) : t.due.modifyCursor f = (t.modifyCursor f).due :=
  modifyActive_due fun _ => rfl

variable (t)

/-! ## Moving -/

/-- The screen scrolls up without looking at what is to be drawn. -/
@[simp] theorem scrollUp_due (n : Nat) : t.due.scrollUp n = (t.scrollUp n).due := by
  unfold scrollUp
  simp only [active_due, Page.rows_due, region_due, usingAlternate_due, cols_due]
  split
  · exact modifyActive_due fun p => by simp
  · rfl

@[simp] theorem scrollDown_due (n : Nat) : t.due.scrollDown n = (t.scrollDown n).due := by
  unfold scrollDown
  simp only [active_due, Page.rows_due, region_due, cols_due]
  split
  · exact modifyActive_due fun p => by simp
  · rfl

/-- The cursor goes down a row, and the screen scrolls, without looking at what is to be drawn. -/
@[simp] theorem index_due : t.due.index = t.index.due := by
  unfold index
  simp only [cursor_due, region_due, rows_due, scrollUp_due]
  split
  · rfl
  · split
    · exact modifyActive_due fun p => by simp
    · rfl

/-- The carriage returns without looking at what is to be drawn. -/
@[simp] theorem carriageReturn_due : t.due.carriageReturn = t.carriageReturn.due :=
  modifyActive_due fun p => by simp

/-- The cursor goes up without looking at what is to be drawn. -/
@[simp] theorem cursorUp_due (n : Nat) : t.due.cursorUp n = (t.cursorUp n).due :=
  modifyActive_due fun p => by simp

@[simp] theorem cursorDown_due (n : Nat) : t.due.cursorDown n = (t.cursorDown n).due :=
  modifyActive_due fun p => by simp

/-- The cursor goes forward without looking at what is to be drawn. -/
@[simp] theorem cursorForward_due (n : Nat) : t.due.cursorForward n = (t.cursorForward n).due :=
  modifyActive_due fun p => by simp

@[simp] theorem cursorBackward_due (n : Nat) : t.due.cursorBackward n = (t.cursorBackward n).due :=
  modifyActive_due fun p => by simp

@[simp] theorem cursorColumn_due (col : Nat) : t.due.cursorColumn col = (t.cursorColumn col).due :=
  modifyActive_due fun p => by simp

@[simp] theorem cursorRow_due (row : Nat) : t.due.cursorRow row = (t.cursorRow row).due := by
  have haddressable : t.due.addressable = t.addressable := rfl
  unfold cursorRow
  rw [haddressable]
  exact modifyActive_due fun p => by simp

@[simp] theorem cursorPosition_due (row col : Nat) :
    t.due.cursorPosition row col = (t.cursorPosition row col).due := by
  simp [cursorPosition]

/-- A line feed does not look at what is to be drawn. -/
@[simp] theorem lineFeed_due : t.due.lineFeed = t.lineFeed.due := by
  unfold lineFeed
  rw [has_due, modifyActive_due fun p => p.moveToCol_due 0, index_due, index_due]
  split <;> rfl

@[simp] theorem reverseIndex_due : t.due.reverseIndex = t.reverseIndex.due := by
  unfold reverseIndex
  rw [cursor_due, region_due, scrollDown_due, cursorUp_due]
  split <;> rfl

/-- The region is set without looking at what is to be drawn. -/
@[simp] theorem setScrollRegion_due (top bottom : Nat) :
    t.due.setScrollRegion top bottom = (t.setScrollRegion top bottom).due := by
  unfold setScrollRegion
  dsimp only
  rw [rows_due, apply_ite due]
  congr 1
  exact cursorPosition_due { t with region := ⟨min (top - 1) _, min (bottom - 1) _⟩ } 1 1

/-! ## Editing and erasing -/

/-- The row of the cursor is edited without looking at what is to be drawn. -/
theorem editCursorRow_due (edit : Cells → Nat → Cells) :
    t.due.editCursorRow edit = (t.editCursorRow edit).due := by
  refine modifyActive_due fun p => ?_
  simp only [Page.rows_due, Page.cursor_due, Page.editRow_due]
  repeat' split
  all_goals rfl

@[simp] theorem insertChars_due (n : Nat) : t.due.insertChars n = (t.insertChars n).due :=
  t.editCursorRow_due _

@[simp] theorem deleteChars_due (n : Nat) : t.due.deleteChars n = (t.deleteChars n).due :=
  t.editCursorRow_due _

@[simp] theorem eraseChars_due (n : Nat) : t.due.eraseChars n = (t.eraseChars n).due :=
  t.editCursorRow_due _

/-- A row is erased without looking at what is to be drawn. -/
@[simp] theorem eraseInLine_due (part : Nat) :
    t.due.eraseInLine part = (t.eraseInLine part).due := by
  refine modifyActive_due fun p => ?_
  simp only [Page.cursor_due, Page.editRow_due, blank_due]
  split <;> rfl

@[simp] theorem eraseInDisplay_due (part : Nat) :
    t.due.eraseInDisplay part = (t.eraseInDisplay part).due := by
  unfold eraseInDisplay
  simp only [eraseInLine_due, rows_due, blank_due]
  split
  · exact modifyActive_due fun p => by simp
  · exact modifyActive_due fun p => by simp
  · exact modifyActive_due fun p => by simp
  · refine modifyActive_due fun p => ?_
    rw [Page.clearRows_due]
    rfl
  · rfl

/-- The screen is cleared without looking at what is to be drawn. -/
@[simp] theorem clearScreen_due : t.due.clearScreen = t.clearScreen.due := by
  simp [clearScreen]

/-! ## Modes -/

/-- Steps that do not look at what is to be drawn do not do so one after the other. -/
theorem foldl_due {α : Type} {f : Terminal → α → Terminal}
    (hf : ∀ t x, f (due t) x = (f t x).due) (xs : List α) :
    xs.foldl f t.due = (xs.foldl f t).due := by
  induction xs generalizing t with
  | nil => rfl
  | cons x rest ih => rw [List.foldl_cons, hf, ih, List.foldl_cons]

/-- The page is changed without looking at what is to be drawn. -/
@[simp] theorem useAlternateBuffer_due (on : Bool) :
    t.due.useAlternateBuffer on = (t.useAlternateBuffer on).due := by
  unfold useAlternateBuffer
  rw [usingAlternate_due]
  split
  · rfl
  · cases on
    · exact @modifyActive_due { t with usingAlternate := false } _ Page.markAllDirty_due
    · rfl

/-- The cursor is saved without looking at what is to be drawn. -/
@[simp] theorem saveCursor_due : t.due.saveCursor = t.saveCursor.due := modifyCursor_due _

@[simp] theorem restoreCursor_due : t.due.restoreCursor = t.restoreCursor.due := by
  unfold restoreCursor
  simp only [cursor_due, modifyCursor_due, cols_due, rows_due]
  split <;> rfl

/-- No effect of a mode looks at what is to be drawn. -/
theorem applyEffect_due (effect : ModeEffect) :
    t.due.applyEffect effect = (t.applyEffect effect).due := by
  cases effect with
  | useAlternateBuffer on => exact t.useAlternateBuffer_due on
  | saveCursor => exact t.saveCursor_due
  | restoreCursor => exact t.restoreCursor_due
  | setCursorVisible on => exact modifyCursor_due fun c => { c with visible := on }
  | setRenderSuspended on => rfl
  | requestFlush =>
      -- the request itself is one of the things that `due` makes
      exact @modifyActive_due { t with flushRequested := true } _ Page.markAllDirty_due
  | clearScreen => exact t.clearScreen_due
  | resetScrollRegion => rfl

/-- A mode is set without looking at what is to be drawn. -/
@[simp] theorem setMode_due (m : Mode) (on : Bool) : t.due.setMode m on = (t.setMode m on).due := by
  exact foldl_due { t with modes := t.modes.set m on } applyEffect_due (m.effects on)

@[simp] theorem setPrivateMode_due (on : Bool) (code : Nat) :
    t.due.setPrivateMode on code = (t.setPrivateMode on code).due := by
  unfold setPrivateMode
  simp only [setMode_due]
  repeat' split
  all_goals rfl

@[simp] theorem setStandardMode_due (on : Bool) (code : Nat) :
    t.due.setStandardMode on code = (t.setStandardMode on code).due := by
  unfold setStandardMode
  simp only [setMode_due]
  split <;> rfl

/-! ## Printing -/

/-- What is attached to does not depend on what is to be drawn. -/
@[simp] theorem previousScalar?_due : t.due.previousScalar? = t.previousScalar? := by
  simp [previousScalar?]

/-- What is covered is released without looking at what is to be drawn. -/
theorem releaseCovered_due (row col width : Nat) :
    t.due.releaseCovered row col width = (t.releaseCovered row col width).map due := by
  unfold releaseCovered
  rw [active_due, Page.rows_due, modifyActive_due fun p => p.modifyRow_due row _]
  split <;> rfl

theorem attachHere_due (c : Char) : t.due.attachHere c = (t.attachHere c).map due := by
  unfold attachHere
  simp only [active_due, Page.rows_due, cursor_due, style_due]
  split
  · rfl
  · split
    · exact congrArg Except.ok (modifyActive_due fun p => by simp)
    · rfl

/-- A character is taken to the next row without looking at what is to be drawn. -/
theorem wrapLastCluster_due : t.due.wrapLastCluster = t.wrapLastCluster.map (Option.map due) := by
  unfold wrapLastCluster
  simp only [active_due, Page.rows_due, cursor_due, cols_due, blank_due]
  split
  · rfl
  · split
    · rfl
    · rw [modifyActive_due fun p => by simp, index_due, cursor_due, releaseCovered_due]
      generalize releaseCovered _ _ _ _ = released
      cases released with
      | error fault => rfl
      | ok released =>
          exact congrArg (fun t => Except.ok (some t)) (modifyActive_due fun p => by simp)

/-- A mark is attached without looking at what is to be drawn. -/
theorem attach_due (c : Char) : t.due.attach c = (t.attach c).map due := by
  unfold attach
  simp only [active_due, Page.rows_due, cursor_due, cols_due, has_due]
  split
  · rfl
  · split
    · split
      · rw [wrapLastCluster_due]
        rcases t.wrapLastCluster with fault | _ | wrapped
        · rfl
        · rfl
        · exact wrapped.attachHere_due c
      · rfl
    · exact t.attachHere_due c

/-- A row is wrapped without looking at what is to be drawn. -/
theorem wrapRow_due : t.due.wrapRow = t.wrapRow.map due := by
  unfold wrapRow
  rw [active_due, Page.rows_due, cursor_due, modifyActive_due fun p => by simp, index_due]
  split <;> rfl

/-- Room is made without looking at what is to be drawn. -/
theorem makeRoom_due (width : Nat) : t.due.makeRoom width = (t.makeRoom width).map due := by
  unfold makeRoom
  simp only [cursor_due, cols_due, has_due, wrapRow_due]
  cases coordinate (t.cursor.col + width) with
  | error fault => rfl
  | ok stop =>
      rw [modifyActive_due fun p => p.moveToCol_due _]
      change (if t.cols < stop then _ else _) = Except.map due (if t.cols < stop then _ else _)
      split
      · split <;> rfl
      · rfl

/-- A character is written without looking at what is to be drawn. -/
theorem writeHere_due (c : Char) (width : Nat) :
    t.due.writeHere c width = (t.writeHere c width).map due := by
  unfold writeHere
  simp only [active_due, Page.rows_due, cursor_due, style_due]
  split
  · rfl
  · split
    · rfl
    · split
      · rfl
      · exact congrArg Except.ok (modifyActive_due fun p => by simp)

/-- A character that begins a new one is written in the same place. -/
theorem putLead_due (c : Char) (width : Nat) :
    t.due.putLead c width = (t.putLead c width).map due := by
  unfold putLead
  simp only [cols_due, makeRoom_due]
  split
  · rfl
  · cases t.makeRoom width with
    | error fault => rfl
    | ok roomy =>
        have hshift :
            (if roomy.due.has .insertMode then roomy.due.insertChars width else roomy.due) =
              (if roomy.has .insertMode then roomy.insertChars width else roomy).due := by
          rw [has_due, insertChars_due, apply_ite due]
        change releaseCovered (if _ then _ else _) _ _ _ >>= _ =
          Except.map due (releaseCovered (if _ then _ else _) _ _ _ >>= _)
        rw [hshift, cursor_due, releaseCovered_due]
        cases releaseCovered _ _ _ _ with
        | error fault => rfl
        | ok released => exact released.writeHere_due c width

/-- Printing a character does not depend on what has to be drawn. -/
theorem putChar_due (c : Char) : t.due.putChar c = (t.putChar c).map due := by
  rw [putChar_eq, putChar_eq]
  cases Text.columns? c with
  | none => rfl
  | some w =>
      simp only [Option.elim_some, previousScalar?_due, attach_due, putLead_due]
      split <;> rfl

/-- **A text is printed** without looking at what is to be drawn. -/
theorem putText_due (text : List Char) : t.due.putText text = (t.putText text).map due := by
  rw [putText_eq, putText_eq]
  induction text generalizing t with
  | nil => rfl
  | cons c rest ih =>
      rw [List.foldlM_cons, List.foldlM_cons, putChar_due]
      cases t.putChar c with
      | error fault => rfl
      | ok t => exact ih t

/-! ## Actions -/

/-- A tab does not look at what is to be drawn. -/
theorem horizontalTab_due : t.due.horizontalTab = t.horizontalTab.map due := by
  unfold horizontalTab
  rw [cursor_due, cols_due]
  cases coordinate ((t.cursor.col / 8 + 1) * 8) with
  | error fault => rfl
  | ok stop => exact congrArg Except.ok (modifyActive_due fun p => p.moveToCol_due _)

/-- Lines are inserted without looking at what is to be drawn. -/
theorem insertLines_due (n : Nat) : t.due.insertLines n = (t.insertLines n).map due := by
  unfold insertLines
  simp only [active_due, Page.rows_due, cursor_due, region_due, cols_due]
  rw [modifyActive_due fun p => by simp]
  repeat' split
  all_goals rfl

theorem deleteLines_due (n : Nat) : t.due.deleteLines n = (t.deleteLines n).map due := by
  unfold deleteLines
  simp only [active_due, Page.rows_due, cursor_due, region_due, cols_due]
  rw [modifyActive_due fun p => by simp]
  repeat' split
  all_goals rfl

/-- A report does not depend on what is to be drawn. -/
theorem cursorReport_due : t.due.cursorReport = t.cursorReport := by
  unfold cursorReport
  rw [has_due, region_due, cursor_due, visualCursorCol_due]

/-- Terminals that differ in this only come to the same once all is to be drawn. -/
theorem due_eq_due {t u : Terminal} (h : t = u.due) : t.due = u.due := by
  rw [h, due_due]

/-- A reset leaves a fresh terminal, which has not been told that all is to be drawn. -/
theorem performSimple_due (action : Action) :
    (t.due.performSimple action).due = (t.performSimple action).due := by
  cases action with
  | backspace => exact due_eq_due (t.cursorBackward_due 1)
  | reset => rfl
  | setTitle title => rfl
  | selectRendition params => rfl
  | protectText on => rfl
  | setPrivateModes codes on =>
      exact due_eq_due (t.foldl_due (fun t code => t.setPrivateMode_due on code) codes)
  | setStandardModes codes on =>
      exact due_eq_due (t.foldl_due (fun t code => t.setStandardMode_due on code) codes)
  | setCursorShape code =>
      exact due_eq_due (modifyCursor_due fun c => { c with shape := .ofCode code })
  | _ => simp [performSimple]

end Due

/-- What has come of an action, but for what is to be drawn. -/
abbrev seen (out : Terminal × List Reply) : Terminal × List Reply := (out.1.due, out.2)

/-- **An action** shows and replies the same, whether all was to be drawn or not. -/
theorem perform_due (t : Terminal) (action : Action) :
    (t.due.perform action).map seen = (t.perform action).map seen := by
  cases action with
  | print c =>
      rw [perform_print, perform_print, putChar_due]
      cases t.putChar c <;> rfl
  | horizontalTab =>
      rw [perform_horizontalTab, perform_horizontalTab, horizontalTab_due]
      cases t.horizontalTab <;> rfl
  | insertLines n =>
      rw [perform_insertLines, perform_insertLines, insertLines_due]
      cases t.insertLines n <;> rfl
  | deleteLines n =>
      rw [perform_deleteLines, perform_deleteLines, deleteLines_due]
      cases t.deleteLines n <;> rfl
  | reportCursor =>
      rw [perform_reportCursor, perform_reportCursor, cursorReport_due]
      cases t.cursorReport <;> rfl
  | reportStatus => rfl
  | reportAttributes => rfl
  | reportSecondaryAttributes => rfl
  | _ => exact congrArg (fun t => Except.ok (t, [])) (t.performSimple_due _)

end Terminal

section Except

variable {ε α β γ δ : Type} {x y : Except ε α} {f : α → β}

/-- Computations that come to what looks the same have the same faults. -/
theorem error_of_map_eq (h : x.map f = y.map f) {fault : ε} (hx : x = .error fault) :
    y = .error fault := by
  subst hx
  cases y with
  | error fault' => exact congrArg Except.error (Except.error.inj h).symm
  | ok b => simp [Except.map] at h

/-- Where one of two computations that look the same has a result, so has the other. -/
theorem exists_ok_of_map_eq (h : x.map f = y.map f) {a : α} (hx : x = .ok a) :
    ∃ b, y = .ok b ∧ f a = f b := by
  subst hx
  cases y with
  | error fault => simp [Except.map] at h
  | ok b => exact ⟨b, rfl, Except.ok.inj h⟩

/-- Results that agree as far as `f` sees go on agreeing as far as `g` sees. -/
theorem map_bind_congr {g : γ → δ} {k l : α → Except ε γ} (h : x.map f = y.map f)
    (hk : ∀ a b, f a = f b → (k a).map g = (l b).map g) :
    (x >>= k).map g = (y >>= l).map g := by
  cases hx : x with
  | error fault =>
      rw [error_of_map_eq h hx]
      rfl
  | ok a =>
      obtain ⟨b, hy, hab⟩ := exists_ok_of_map_eq h hx
      rw [hy]
      exact hk a b hab

end Except

namespace Terminal

variable {t u : Terminal}

/-- Terminals that differ only in what is to be drawn do so after an action. -/
theorem perform_congr (h : t.due = u.due) (action : Action) :
    (t.perform action).map seen = (u.perform action).map seen := by
  rw [← perform_due t, h, perform_due]

/-- Terminals that differ only in what is to be drawn do so after actions. -/
theorem performAll_congr (h : t.due = u.due) (actions : List Action) :
    (t.performAll actions).map seen = (u.performAll actions).map seen := by
  induction actions generalizing t u with
  | nil => exact congrArg (fun t => Except.ok (t, [])) h
  | cons action rest ih =>
      refine map_bind_congr (perform_congr h action) ?_
      rintro ⟨t, replies⟩ ⟨u, replies'⟩ hseen
      obtain ⟨hdue, rfl⟩ : t.due = u.due ∧ replies = replies' := by simpa using hseen
      refine map_bind_congr (ih hdue) ?_
      rintro ⟨t, more⟩ ⟨u, more'⟩ hseen
      obtain ⟨hdue, rfl⟩ : t.due = u.due ∧ more = more' := by simpa using hseen
      exact congrArg (fun t => Except.ok (t, replies ++ more)) hdue

/-- Being asked what is to be drawn, a terminal only forgets. -/
@[simp] theorem due_takeRenderRequest (t : Terminal) : t.takeRenderRequest.2.due = t.due := by
  unfold takeRenderRequest
  split <;> rfl

/-- A request to render leaves the modes. -/
@[simp] theorem modes_takeRenderRequest (t : Terminal) : t.takeRenderRequest.2.modes = t.modes := by
  rw [← modes_due, due_takeRenderRequest, modes_due]

/-- There is nothing to forget twice. -/
@[simp] theorem takeRenderRequest_takeRenderRequest (t : Terminal) :
    t.takeRenderRequest.2.takeRenderRequest.2 = t.takeRenderRequest.2 := by
  cases hs : t.renderSuspended <;> simp [takeRenderRequest, hs]

/-- When it draws, what it forgets does not matter to what is left. -/
theorem takeRenderRequest_congr (h : t.due = u.due) (hdraws : t.renderSuspended = false) :
    t.takeRenderRequest.2 = u.takeRenderRequest.2 := by
  have hforget : ∀ v : Terminal, v.renderSuspended = false →
      v.takeRenderRequest.2 = v.due.takeRenderRequest.2 := by
    intro v hv
    have hdue : v.due.renderSuspended = false := hv
    unfold takeRenderRequest
    rw [if_neg (by simp [hv]), if_neg (by simp [hdue])]
    rfl
  have hsame : u.renderSuspended = t.renderSuspended := by
    change u.due.renderSuspended = t.due.renderSuspended
    rw [h]
  rw [hforget t hdraws, h, ← hforget u (hsame.trans hdraws)]

end Terminal

namespace Interpreter

/-- An interpreter whose terminal is to be drawn. -/
def due (i : Interpreter) : Interpreter := { i with terminal := i.terminal.due }

/-- What has come of a text, but for what is to be drawn. -/
abbrev seen (out : Interpreter × List Reply) : Interpreter × List Reply := (out.1.due, out.2)

variable {i j : Interpreter}

/-- Interpreters that differ only in what is to be drawn have the same parser. -/
theorem due_eq_iff :
    i.due = j.due ↔ i.parser = j.parser ∧ i.terminal.due = j.terminal.due := by
  simp [due]

/-- Interpreters that differ only in what is to be drawn do so after a character. -/
theorem feed_congr (h : i.due = j.due) (c : Char) :
    (i.feed c).map seen = (j.feed c).map seen := by
  obtain ⟨hparser, hterminal⟩ := due_eq_iff.1 h
  unfold feed
  rw [hparser]
  rcases j.parser.step c with ⟨parser, actions⟩
  refine map_bind_congr (Terminal.performAll_congr hterminal actions) ?_
  rintro ⟨t, replies⟩ ⟨u, replies'⟩ hseen
  obtain ⟨hdue, rfl⟩ : t.due = u.due ∧ replies = replies' := by simpa using hseen
  exact congrArg (fun t => Except.ok (Interpreter.mk parser t, replies)) hdue

/-- **What is to be drawn does not steer**: it makes no difference to what comes of a text. -/
theorem foldlM_feedNext_congr (h : i.due = j.due) (replies : List Reply) (text : List Char) :
    (text.foldlM feedNext (i, replies)).map seen =
      (text.foldlM feedNext (j, replies)).map seen := by
  induction text generalizing i j replies with
  | nil => exact congrArg (fun i => Except.ok (i, replies)) h
  | cons c rest ih =>
      rw [List.foldlM_cons, List.foldlM_cons]
      have hnext : (feedNext (i, replies) c).map seen = (feedNext (j, replies) c).map seen := by
        refine map_bind_congr (feed_congr h c) ?_
        rintro ⟨i, more⟩ ⟨j, more'⟩ hseen
        obtain ⟨hdue, rfl⟩ : i.due = j.due ∧ more = more' := by simpa using hseen
        exact congrArg (fun i => Except.ok (i, replies ++ more)) hdue
      refine map_bind_congr hnext ?_
      rintro ⟨i, sofar⟩ ⟨j, sofar'⟩ hseen
      obtain ⟨hdue, rfl⟩ : i.due = j.due ∧ sofar = sofar' := by simpa using hseen
      exact ih hdue sofar

/-- So it makes none to what comes of feeding it. -/
theorem feedText_congr (h : i.due = j.due) (text : List Char) :
    (i.feedText text).map seen = (j.feedText text).map seen := by
  rw [feedText_eq_foldlM, feedText_eq_foldlM]
  exact foldlM_feedNext_congr h [] text

end Interpreter

end VideoTerminal
