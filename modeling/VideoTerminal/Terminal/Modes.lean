import VideoTerminal.Terminal.Edit

/-!
# Switching modes

A mode is recorded first and then does what it does: the effects of a switch are carried out on the
terminal in order.
-/

namespace VideoTerminal.Terminal

/-- Shows the other page.  The alternate page is blank each time it is entered; of its cursor only
what was saved remains. -/
def useAlternateBuffer (t : Terminal) (on : Bool) : Terminal :=
  if on = t.usingAlternate then t
  else
    let fresh : Page :=
      { Page.new t.cols t.rows 0 with cursor := { saved := t.alternate.cursor.saved } }
    let t := if on then { t with alternate := fresh } else t
    { t with usingAlternate := on }.modifyActive Page.markAllDirty

/-- Puts the cursor's position and the style aside. -/
def saveCursor (t : Terminal) : Terminal :=
  t.modifyCursor fun c => { c with saved := some ⟨c.col, c.row, t.style⟩ }

/-- Takes position and style back, if any were put aside. -/
def restoreCursor (t : Terminal) : Terminal :=
  match t.cursor.saved with
  | some s =>
    { t.modifyCursor fun c =>
        { c with col := min s.col (t.cols - 1), row := min s.row (t.rows - 1) } with
      style := s.style }
  | none => t

/-- Carries out one effect of a mode. -/
def applyEffect (t : Terminal) : ModeEffect → Terminal
  | .useAlternateBuffer on => t.useAlternateBuffer on
  | .saveCursor => t.saveCursor
  | .restoreCursor => t.restoreCursor
  | .setCursorVisible on => t.modifyCursor fun c => { c with visible := on }
  | .setRenderSuspended on => { t with renderSuspended := on }
  | .requestFlush => { t with flushRequested := true }.modifyActive Page.markAllDirty
  | .clearScreen => t.clearScreen
  | .resetScrollRegion => { t with region := fullRegion t.rows }

/-- Switches a mode. -/
def setMode (t : Terminal) (m : Mode) (on : Bool) : Terminal :=
  (m.effects on).foldl applyEffect { t with modes := t.modes.set m on }

/-- Switches the mode of a private number.  The number 1049 saves the cursor on the way to the
alternate page and restores it on the way back; unknown numbers do nothing. -/
def setPrivateMode (t : Terminal) (on : Bool) (code : Nat) : Terminal :=
  if code = 1049 then
    if on then (t.setMode .storeCursor true).setMode .alternateBuffer true
    else (t.setMode .alternateBuffer false).setMode .storeCursor false
  else
    match Mode.ofPrivate? code with
    | some m => t.setMode m on
    | none => t

/-- Switches the mode of a standard number; unknown numbers do nothing. -/
def setStandardMode (t : Terminal) (on : Bool) (code : Nat) : Terminal :=
  match Mode.ofStandard? code with
  | some m => t.setMode m on
  | none => t

end VideoTerminal.Terminal
