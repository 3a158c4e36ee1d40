import VideoTerminal.Proofs.Control.Interpreter
import VideoTerminal.Proofs.Terminal.Due
import VideoTerminal.Proofs.Terminal.Operation
import VideoTerminal.Proofs.Terminal.Steps

/-!
# Operations act on the page that is shown

Of its two pages a terminal shows one, and every action but a reset and the switching of private
modes leaves the other one as it is (`onShown_of_perform`).  So does the switching of a mode, unless
the mode is the one that names the page (`onShown_setMode`).

Along with this goes an invariant of all terminals, even of those on which a column can not be
counted or which have no row: neither cursor stands below the last row, and the region that scrolls
does not reach below it (`Reachable.seated`).
-/

namespace VideoTerminal

/-- Actions that never change which page is shown, whatever their numbers. -/
def Action.StaysOnPage : Action → Prop
  | .reset => False
  | .setPrivateModes _ _ => False
  | _ => True

namespace Terminal

/-- The page that is not shown. -/
def hidden (t : Terminal) : Page := if t.usingAlternate then t.primary else t.alternate

/-- A change of the page that is shown leaves the hidden one. -/
@[simp] theorem hidden_modifyActive (t : Terminal) (f : Page → Page) :
    (t.modifyActive f).hidden = t.hidden := by
  unfold modifyActive hidden
  split <;> simp_all

/-- Of the hidden page something is to be drawn as well. -/
@[simp] theorem hidden_due (t : Terminal) : t.due.hidden = t.hidden.due := by
  unfold hidden
  rw [usingAlternate_due]
  split <;> rfl

/-- The cursors stand, and the region ends, no lower than on the last row. -/
structure Seated (t : Terminal) : Prop where
  shown : t.cursor.row ≤ t.rows - 1
  hidden : t.hidden.cursor.row ≤ t.rows - 1
  bottom : t.region.bottom ≤ t.rows - 1

/-- Of `t'` nothing is new but the page that is shown and what the pages share: which one is shown,
the other one and the size are those of `t`. -/
structure OnShown (t t' : Terminal) : Prop where
  usingAlternate_eq : t'.usingAlternate = t.usingAlternate
  hidden_eq : t'.hidden = t.hidden
  cols_eq : t'.cols = t.cols
  rows_eq : t'.rows = t.rows
  seated : t.Seated → t'.Seated

namespace OnShown

theorem refl (t : Terminal) : t.OnShown t := ⟨rfl, rfl, rfl, rfl, id⟩

theorem trans {t₁ t₂ t₃ : Terminal} (h : t₁.OnShown t₂) (h' : t₂.OnShown t₃) : t₁.OnShown t₃ where
  usingAlternate_eq := h'.usingAlternate_eq.trans h.usingAlternate_eq
  hidden_eq := h'.hidden_eq.trans h.hidden_eq
  cols_eq := h'.cols_eq.trans h.cols_eq
  rows_eq := h'.rows_eq.trans h.rows_eq
  seated hs := h'.seated (h.seated hs)

end OnShown

/-- Any change of the page that is shown, as long as its cursor does not go below the last row. -/
theorem onShown_modifyActive {t : Terminal} {f : Page → Page}
    (hf : t.Seated → (f t.active).cursor.row ≤ t.rows - 1) : t.OnShown (t.modifyActive f) where
  usingAlternate_eq := usingAlternate_modifyActive t f
  hidden_eq := hidden_modifyActive t f
  cols_eq := cols_modifyActive t f
  rows_eq := rows_modifyActive t f
  seated hs := by
    refine ⟨?_, ?_, ?_⟩
    · rw [cursor_modifyActive, rows_modifyActive]
      exact hf hs
    · rw [hidden_modifyActive, rows_modifyActive]
      exact hs.hidden
    · rw [region_modifyActive, rows_modifyActive]
      exact hs.bottom

/-- Any change of the page that is shown that leaves the row of its cursor. -/
theorem onShown_of_row_eq {t : Terminal} {f : Page → Page}
    (hf : (f t.active).cursor.row = t.cursor.row) : t.OnShown (t.modifyActive f) := by
  refine onShown_modifyActive ?_
  intro hs
  rw [hf]
  exact hs.shown

/-- Moving the cursor in its row works on the page that is shown. -/
theorem onShown_modifyCursor {t : Terminal} {f : Cursor → Cursor}
    (hf : (f t.cursor).row = t.cursor.row) : t.OnShown (t.modifyCursor f) :=
  onShown_of_row_eq hf

/-- Work on the cursor's row is work on the page that is shown. -/
theorem Retouched.onShown {t t' : Terminal} (h : t.Retouched t') : t.OnShown t' := by
  rw [h.frame]
  exact onShown_of_row_eq h.row_eq

/-- What the pages share does not touch them, and the region alone says how far it reaches. -/
theorem onShown_withRegion (t : Terminal) {r : Region} (hr : r.bottom ≤ t.rows - 1) :
    t.OnShown { t with region := r } where
  usingAlternate_eq := rfl
  hidden_eq := rfl
  cols_eq := rfl
  rows_eq := rfl
  seated hs := ⟨hs.shown, hs.hidden, hr⟩

/-! ## Scrolling and moving -/

section Moves

variable (t : Terminal)

/-- Scrolling up works on the page that is shown. -/
theorem onShown_scrollUp (n : Nat) : t.OnShown (t.scrollUp n) := by
  unfold scrollUp
  dsimp only
  split
  · refine onShown_of_row_eq ?_
    rw [Page.cursor_markAllDirty, Page.cursor_scrollUp]
    rfl
  · exact .refl t

theorem onShown_scrollDown (n : Nat) : t.OnShown (t.scrollDown n) := by
  unfold scrollDown
  dsimp only
  split
  · refine onShown_of_row_eq ?_
    rw [Page.cursor_markAllDirty, Page.cursor_scrollDown]
    rfl
  · exact .refl t

/-- To a row of the screen. -/
theorem onShown_moveToRow {row : Nat} (hrow : t.Seated → row ≤ t.rows - 1) :
    t.OnShown (t.modifyActive fun p => p.moveToRow row) :=
  onShown_modifyActive hrow

/-- Going down a row works on the page that is shown. -/
theorem onShown_index : t.OnShown t.index := by
  unfold index
  dsimp only
  split
  · exact t.onShown_scrollUp 1
  · split
    · exact t.onShown_moveToRow fun _ => by omega
    · exact .refl t

theorem onShown_lineFeed : t.OnShown t.lineFeed := by
  unfold lineFeed
  split
  · exact (t.retouched_moveToCol 0).onShown.trans (onShown_index _)
  · exact t.onShown_index

theorem onShown_cursorUp (n : Nat) : t.OnShown (t.cursorUp n) := by
  refine onShown_modifyActive ?_
  intro hs
  exact Nat.le_trans (Nat.sub_le t.cursor.row n) hs.shown

theorem onShown_cursorDown (n : Nat) : t.OnShown (t.cursorDown n) :=
  onShown_modifyActive fun _ => Nat.min_le_right (t.cursor.row + n) (t.rows - 1)

/-- Going up a row works on the page that is shown, where it may scroll. -/
theorem onShown_reverseIndex : t.OnShown t.reverseIndex := by
  unfold reverseIndex
  split
  · exact t.onShown_scrollDown 1
  · exact t.onShown_cursorUp 1

/-- The rows that a position may name are rows of the screen. -/
theorem Seated.addressable_bottom_le {t : Terminal} (h : t.Seated) :
    t.addressable.bottom ≤ t.rows - 1 := by
  unfold addressable
  split
  · exact h.bottom
  · exact Nat.le_refl _

theorem onShown_cursorRow (row : Nat) : t.OnShown (t.cursorRow row) := by
  refine t.onShown_moveToRow ?_
  intro hs
  exact Nat.le_trans (Nat.min_le_right _ _) hs.addressable_bottom_le

theorem onShown_cursorPosition (row col : Nat) : t.OnShown (t.cursorPosition row col) :=
  (t.onShown_cursorRow row).trans (retouched_cursorColumn _ col).onShown

/-- Setting the region works on the page that is shown. -/
theorem onShown_setScrollRegion (top bottom : Nat) : t.OnShown (t.setScrollRegion top bottom) := by
  unfold setScrollRegion
  dsimp only
  split
  · exact (t.onShown_withRegion (Nat.min_le_right _ _)).trans (onShown_cursorPosition _ 1 1)
  · exact .refl t

/-- Inserting lines works on the page that is shown. -/
theorem onShown_of_insertLines {t t' : Terminal} {n : Nat} (h : t.insertLines n = .ok t') :
    t.OnShown t' := by
  rcases insertLines_cases h with rfl | ⟨count, rfl⟩
  · exact .refl _
  · refine onShown_of_row_eq ?_
    rw [Page.cursor_markAllDirty, Page.cursor_scrollDown]
    rfl

theorem onShown_of_deleteLines {t t' : Terminal} {n : Nat} (h : t.deleteLines n = .ok t') :
    t.OnShown t' := by
  rcases deleteLines_cases h with rfl | ⟨count, rfl⟩
  · exact .refl _
  · refine onShown_of_row_eq ?_
    rw [Page.cursor_markAllDirty, Page.cursor_scrollUp]
    rfl

/-- Erasing works on the page that is shown. -/
theorem onShown_eraseInDisplay (part : Nat) : t.OnShown (t.eraseInDisplay part) := by
  unfold eraseInDisplay
  split
  · exact (t.retouched_eraseInLine 0).onShown.trans (onShown_of_row_eq rfl)
  · exact (t.retouched_eraseInLine 1).onShown.trans (onShown_of_row_eq rfl)
  · exact onShown_of_row_eq rfl
  · exact onShown_of_row_eq rfl
  · exact .refl t

theorem onShown_clearScreen : t.OnShown t.clearScreen :=
  (t.onShown_eraseInDisplay 2).trans (onShown_cursorPosition _ 1 1)

/-- Steps of printing, and so printing. -/
theorem onShown_of_printed {t t' : Terminal} (h : Printed t t') : t.OnShown t' := by
  induction h with
  | refl => exact .refl t
  | tail _ hstep ih =>
      cases hstep with
      | retouch hretouched => exact ih.trans hretouched.onShown
      | goDown => exact ih.trans (onShown_index _)

end Moves

/-! ## Modes -/

section Modes

variable (t : Terminal)

theorem onShown_withModes (modes : ModeSet) : t.OnShown { t with modes := modes } :=
  ⟨rfl, rfl, rfl, rfl, fun hs => ⟨hs.shown, hs.hidden, hs.bottom⟩⟩

theorem onShown_withStyle (style : Style) : t.OnShown { t with style := style } :=
  ⟨rfl, rfl, rfl, rfl, fun hs => ⟨hs.shown, hs.hidden, hs.bottom⟩⟩

theorem onShown_withTitle (title : String) : t.OnShown { t with title := title } :=
  ⟨rfl, rfl, rfl, rfl, fun hs => ⟨hs.shown, hs.hidden, hs.bottom⟩⟩

/-- The cursor is saved with the page that is shown. -/
theorem onShown_saveCursor : t.OnShown t.saveCursor := by
  unfold saveCursor
  exact onShown_modifyCursor rfl

theorem onShown_restoreCursor : t.OnShown t.restoreCursor := by
  unfold restoreCursor
  split
  · refine (onShown_modifyActive ?_).trans (onShown_withStyle _ _)
    intro _
    exact Nat.min_le_right _ _
  · exact .refl t

/-- Effects other than a change of page. -/
theorem onShown_applyEffect {e : ModeEffect} (he : ∀ on, e ≠ .useAlternateBuffer on) :
    t.OnShown (t.applyEffect e) := by
  cases e with
  | useAlternateBuffer on => exact absurd rfl (he on)
  | saveCursor => exact t.onShown_saveCursor
  | restoreCursor => exact t.onShown_restoreCursor
  | setCursorVisible on =>
      change t.OnShown (t.modifyCursor fun c => { c with visible := on })
      exact onShown_modifyCursor rfl
  | setRenderSuspended on =>
      exact ⟨rfl, rfl, rfl, rfl, fun hs => ⟨hs.shown, hs.hidden, hs.bottom⟩⟩
  | requestFlush =>
      have hflush : t.OnShown { t with flushRequested := true } :=
        ⟨rfl, rfl, rfl, rfl, fun hs => ⟨hs.shown, hs.hidden, hs.bottom⟩⟩
      exact hflush.trans (onShown_of_row_eq rfl)
  | clearScreen => exact t.onShown_clearScreen
  | resetScrollRegion => exact t.onShown_withRegion (Nat.le_refl _)

/-- No mode but one has a change of page among its effects. -/
theorem ne_useAlternateBuffer_of_mem {m : Mode} (hm : m ≠ .alternateBuffer) {on : Bool}
    {e : ModeEffect} (he : e ∈ m.effects on) (other : Bool) : e ≠ .useAlternateBuffer other := by
  rintro rfl
  cases m <;> cases on <;> simp [Mode.effects] at he hm

/-- All modes but the alternate page leave the other page. -/
theorem onShown_setMode {m : Mode} (hm : m ≠ .alternateBuffer) (on : Bool) :
    t.OnShown (t.setMode m on) := by
  have hmodes := t.onShown_withModes (t.modes.set m on)
  unfold setMode
  have heffects : ∀ e ∈ m.effects on, ∀ other, e ≠ .useAlternateBuffer other :=
    fun e he other => ne_useAlternateBuffer_of_mem hm he other
  generalize m.effects on = effects at heffects
  generalize { t with modes := t.modes.set m on } = t' at hmodes
  induction effects generalizing t' with
  | nil => exact hmodes
  | cons e effects ih =>
      obtain ⟨he, hrest⟩ := List.forall_mem_cons.mp heffects
      exact ih hrest _ (hmodes.trans (t'.onShown_applyEffect he))

/-- No standard mode changes the page. -/
theorem onShown_setStandardMode (on : Bool) (code : Nat) :
    t.OnShown (t.setStandardMode on code) := by
  unfold setStandardMode
  split
  · next m hm =>
    refine t.onShown_setMode ?_ on
    rintro rfl
    unfold Mode.ofStandard? at hm
    split at hm <;> cases hm
  · exact .refl t

theorem onShown_setStandardModes (on : Bool) (codes : List Nat) :
    t.OnShown (codes.foldl (fun t code => t.setStandardMode on code) t) := by
  induction codes generalizing t with
  | nil => exact .refl t
  | cons code rest ih => exact (t.onShown_setStandardMode on code).trans (ih _)

end Modes

/-! ## Actions -/

/-- An action that stays on its page works on that page. -/
theorem onShown_performSimple (t : Terminal) {action : Action} (h : action.StaysOnPage) :
    t.OnShown (t.performSimple action) := by
  cases action with
  | backspace => exact (t.retouched_cursorBackward 1).onShown
  | lineFeed => exact t.onShown_lineFeed
  | carriageReturn => exact t.retouched_carriageReturn.onShown
  | saveCursor => exact t.onShown_saveCursor
  | restoreCursor => exact t.onShown_restoreCursor
  | index => exact t.onShown_index
  | nextLine => exact t.retouched_carriageReturn.onShown.trans (onShown_index _)
  | reverseIndex => exact t.onShown_reverseIndex
  | reset => exact h.elim
  | applicationKeypad on => exact t.onShown_setMode (by decide) on
  | setTitle title => exact t.onShown_withTitle title
  | cursorUp n => exact t.onShown_cursorUp n
  | cursorDown n => exact t.onShown_cursorDown n
  | cursorForward n => exact (t.retouched_cursorForward n).onShown
  | cursorBackward n => exact (t.retouched_cursorBackward n).onShown
  | cursorNextLine n =>
      exact (t.onShown_cursorDown n).trans (retouched_carriageReturn _).onShown
  | cursorPreviousLine n =>
      exact (t.onShown_cursorUp n).trans (retouched_carriageReturn _).onShown
  | cursorColumn col => exact (t.retouched_cursorColumn col).onShown
  | cursorRow row => exact t.onShown_cursorRow row
  | cursorPosition row col => exact t.onShown_cursorPosition row col
  | eraseInDisplay part => exact t.onShown_eraseInDisplay part
  | eraseInLine part => exact (t.retouched_eraseInLine part).onShown
  | insertChars n => exact (t.retouched_insertChars n).onShown
  | deleteChars n => exact (t.retouched_deleteChars n).onShown
  | eraseChars n => exact (t.retouched_eraseChars n).onShown
  | scrollUp n => exact t.onShown_scrollUp n
  | scrollDown n => exact t.onShown_scrollDown n
  | setScrollRegion top bottom => exact t.onShown_setScrollRegion top _
  | selectRendition params => exact t.onShown_withStyle _
  | setPrivateModes codes on => exact h.elim
  | setStandardModes codes on => exact t.onShown_setStandardModes on codes
  | setCursorShape code =>
      change t.OnShown (t.modifyCursor fun c => { c with shape := .ofCode code })
      exact onShown_modifyCursor rfl
  | protectText on => exact t.onShown_withStyle _
  | print | horizontalTab | insertLines | deleteLines | reportStatus | reportCursor
  | reportAttributes | reportSecondaryAttributes => exact .refl t

/-- **An action leaves the page that is not shown as it is**, and the same page shown, unless it is
a reset or switches private modes. -/
theorem onShown_of_perform {t t' : Terminal} {action : Action} {replies : List Reply}
    (haction : action.StaysOnPage) (h : t.perform action = .ok (t', replies)) : t.OnShown t' := by
  rcases perform_cases h with ⟨c, -, hprint⟩ | ⟨-, hmove⟩ | ⟨n, -, hopen⟩ | ⟨n, -, hclose⟩ | rfl
  · exact onShown_of_printed (printed_of_putChar hprint)
  · exact (retouched_of_horizontalTab hmove).onShown
  · exact onShown_of_insertLines hopen
  · exact onShown_of_deleteLines hclose
  · exact t.onShown_performSimple haction

/-! ## Every reachable terminal is seated -/

namespace Seated

variable {t t' : Terminal}

/-- At first the cursors stand in rows. -/
theorem new (cols rows limit : Nat) : (Terminal.new cols rows limit).Seated :=
  ⟨Nat.zero_le _, Nat.zero_le _, Nat.le_refl _⟩

/-- The cursor of the other page takes its place. -/
theorem useAlternateBuffer (h : t.Seated) (on : Bool) : (t.useAlternateBuffer on).Seated := by
  unfold Terminal.useAlternateBuffer
  split
  · exact h
  · next hne =>
    refine (onShown_of_row_eq rfl).seated ?_
    have hshown := h.shown
    have hhidden := h.hidden
    have hbottom := h.bottom
    unfold Terminal.cursor Terminal.active at hshown
    unfold Terminal.hidden at hhidden
    cases on with
    | false =>
        have hon : t.usingAlternate = true := by simpa using hne
        rw [if_pos hon] at hshown hhidden
        exact ⟨hhidden, hshown, hbottom⟩
    | true =>
        have hoff : t.usingAlternate = false := by simpa using hne
        rw [hoff] at hshown
        exact ⟨Nat.zero_le _, hshown, hbottom⟩

/-- Setting a mode leaves the cursors in rows. -/
theorem setMode (h : t.Seated) (m : Mode) (on : Bool) : (t.setMode m on).Seated := by
  by_cases hm : m = .alternateBuffer
  · rw [hm]
    exact ((t.onShown_withModes _).seated h).useAlternateBuffer on
  · exact (t.onShown_setMode hm on).seated h

theorem setPrivateMode (h : t.Seated) (on : Bool) (code : Nat) :
    (t.setPrivateMode on code).Seated := by
  unfold Terminal.setPrivateMode
  split
  · split
    · exact (h.setMode _ _).setMode _ _
    · exact (h.setMode _ _).setMode _ _
  · split
    · exact h.setMode _ _
    · exact h

/-- **An action leaves the cursors in rows.** -/
theorem perform (h : t.Seated) {action : Action} {replies : List Reply}
    (hok : t.perform action = .ok (t', replies)) : t'.Seated := by
  cases action with
  | reset =>
      obtain rfl := congrArg Prod.fst (Except.ok.inj hok)
      exact new _ _ _
  | setPrivateModes codes on =>
      obtain rfl := congrArg Prod.fst (Except.ok.inj hok)
      unfold Terminal.performSimple
      clear hok
      induction codes generalizing t with
      | nil => exact h
      | cons code codes ih => exact ih (h.setPrivateMode on code)
  | _ => exact (onShown_of_perform (by trivial) hok).seated h

theorem performAll (h : t.Seated) {actions : List Action} {replies : List Reply}
    (hok : t.performAll actions = .ok (t', replies)) : t'.Seated := by
  induction actions generalizing t replies with
  | nil =>
      obtain rfl := congrArg Prod.fst (Except.ok.inj hok)
      exact h
  | cons action rest ih =>
      obtain ⟨middle, first, more, hfirst, hrest⟩ := exists_of_performAll_cons hok
      exact ih (h.perform hfirst) hrest

/-- In another size the cursors are put back into rows. -/
theorem resize (t : Terminal) (cols rows : Nat) : (t.resize cols rows).Seated := by
  have hclamp : ∀ p : Page, (p.resize cols rows).cursor.row ≤ rows - 1 :=
    fun p => Nat.min_le_right _ _
  refine ⟨?_, ?_, Nat.le_refl _⟩
  · unfold Terminal.cursor Terminal.active
    split
    · exact hclamp t.alternate
    · exact hclamp t.primary
  · unfold Terminal.hidden
    split
    · exact hclamp t.primary
    · exact hclamp t.alternate

/-- Where a cursor stands has nothing to do with what is to be drawn. -/
theorem due_iff : t.due.Seated ↔ t.Seated := by
  constructor
  · intro h
    refine ⟨?_, ?_, h.bottom⟩
    · simpa using h.shown
    · simpa using h.hidden
  · intro h
    refine ⟨?_, ?_, h.bottom⟩
    · simpa using h.shown
    · simpa using h.hidden

theorem takeRenderRequest (h : t.Seated) : t.takeRenderRequest.2.Seated := by
  rw [← due_iff, due_takeRenderRequest]
  exact due_iff.mpr h

/-- A text leaves the cursors in rows. -/
theorem feedText {i j : Interpreter} {text : List Char} {replies : List Reply}
    (h : i.terminal.Seated) (hok : i.feedText text = .ok (j, replies)) : j.terminal.Seated := by
  rw [Interpreter.feedText_eq] at hok
  cases hperform : i.terminal.performAll (i.parser.read text).2 with
  | error fault =>
      rw [hperform] at hok
      cases hok
  | ok done =>
      rw [hperform] at hok
      obtain rfl := congrArg Prod.fst (Except.ok.inj hok)
      exact h.performAll hperform

theorem operate (h : t.Seated) {op : Operation} (hok : t.operate op = .ok t') : t'.Seated := by
  cases op with
  | perform action =>
      obtain ⟨⟨done, replies⟩, hperform, hend⟩ := exists_of_bind_eq_ok hok
      obtain rfl := Except.ok.inj hend
      exact h.perform hperform
  | feed parser text =>
      obtain ⟨⟨i, replies⟩, hfeed, hend⟩ := exists_of_bind_eq_ok hok
      obtain rfl := Except.ok.inj hend
      exact feedText (i := ⟨parser, t⟩) h hfeed
  | putText text => exact (onShown_of_printed (printed_of_putText hok)).seated h
  | setMode m on =>
      obtain rfl := Except.ok.inj hok
      exact h.setMode m on
  | setStyle style =>
      obtain rfl := Except.ok.inj hok
      exact (t.onShown_withStyle style).seated h
  | clearScreen =>
      obtain rfl := Except.ok.inj hok
      exact t.onShown_clearScreen.seated h
  | resize cols rows =>
      obtain rfl := Except.ok.inj hok
      exact resize t cols rows
  | clearDirty =>
      obtain rfl := Except.ok.inj hok
      exact (onShown_of_row_eq rfl).seated h
  | takeRenderRequest =>
      obtain rfl := Except.ok.inj hok
      exact h.takeRenderRequest

end Seated

/-- **On every reachable terminal** the cursors and the region stay on the screen. -/
theorem Reachable.seated {t : Terminal} (h : t.Reachable) : t.Seated := by
  obtain ⟨cols, rows, limit, ops, hrun⟩ := h
  exact foldlM_induction (fun _ _ _ _ hs hok => hs.operate hok) (Seated.new cols rows limit) hrun

end Terminal

end VideoTerminal
