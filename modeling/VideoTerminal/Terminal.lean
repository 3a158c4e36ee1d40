import VideoTerminal.Mode
import VideoTerminal.Screen.Page

/-!
# Terminals

A terminal is two pages and what they share: the size, the style of new text, the modes, the title
and the rows that scroll.  Only one page is shown; every operation but a change of page, of size or
of a mode acts on that one.

Sizes, coordinates and counts are at most 65535.  A sum that exceeds this is a fault, which happens
on terminals wider than 65527 columns only.
-/

namespace VideoTerminal

/-- The rows that scroll, both ends included. -/
structure Region where
  top : Nat
  bottom : Nat
  deriving DecidableEq, Repr

namespace Region

/-- How many rows scroll. -/
def height (r : Region) : Nat := r.bottom - r.top + 1

/-- Whether the region lies on a screen of `rows` rows. -/
def fits (r : Region) (rows : Nat) : Bool := decide (r.bottom < rows) && decide (r.top ≤ r.bottom)

end Region

/-- A terminal. -/
structure Terminal where
  cols : Nat
  rows : Nat
  primary : Page
  alternate : Page
  usingAlternate : Bool := false
  /-- Style of newly printed text. -/
  style : Style := .empty
  modes : ModeSet
  title : String := ""
  region : Region
  scrollbackLimit : Nat
  /-- Nothing is to be drawn for now. -/
  renderSuspended : Bool := false
  /-- What was held back is to be drawn. -/
  flushRequested : Bool := false
  deriving DecidableEq

/-- The reason why a terminal cannot go on: it is to write where its screen has no cell, or to count
further than a coordinate can. -/
inductive Fault
  | noRow (row : Nat)
  | noCell (row col : Nat)
  | tooFar (n : Nat)
  deriving DecidableEq, Repr

/-- The greatest coordinate. -/
def maxCoordinate : Nat := 65535

/-- A sum as a coordinate. -/
def coordinate (n : Nat) : Except Fault Nat :=
  if n ≤ maxCoordinate then .ok n else .error (.tooFar n)

/-- A sum is a coordinate exactly if it can be counted, and then it is that sum. -/
theorem coordinate_eq_ok_iff {n m : Nat} : coordinate n = .ok m ↔ n ≤ maxCoordinate ∧ n = m := by
  unfold coordinate
  split <;> simp [*]

namespace Terminal

/-- Rows kept as history unless another limit is asked for. -/
def defaultScrollbackLimit : Nat := 10000

/-- The region of a whole screen. -/
def fullRegion (rows : Nat) : Region := ⟨0, rows - 1⟩

/-- A fresh terminal. -/
def new (cols rows : Nat) (scrollbackLimit : Nat := defaultScrollbackLimit) : Terminal where
  cols := cols
  rows := rows
  primary := Page.new cols rows scrollbackLimit
  alternate := Page.new cols rows 0
  modes := (ModeSet.empty.set .autoWrap true).set .cursorVisible true
  region := fullRegion rows
  scrollbackLimit := scrollbackLimit

/-- The page that is shown. -/
def active (t : Terminal) : Page := if t.usingAlternate then t.alternate else t.primary

/-- Changes the page that is shown. -/
def modifyActive (t : Terminal) (f : Page → Page) : Terminal :=
  if t.usingAlternate then { t with alternate := f t.alternate }
  else { t with primary := f t.primary }

/-- The cursor of the page that is shown. -/
def cursor (t : Terminal) : Cursor := t.active.cursor

/-- Changes the cursor of the page that is shown. -/
def modifyCursor (t : Terminal) (f : Cursor → Cursor) : Terminal :=
  t.modifyActive fun p => { p with cursor := f p.cursor }

/-- Whether a mode is on. -/
def has (t : Terminal) (m : Mode) : Bool := t.modes.contains m

/-- The cell that erasing leaves. -/
def blank (t : Terminal) : Cell := Cell.blank t.style

/-- The column at which the cursor is seen. -/
def visualCursorCol (t : Terminal) : Nat :=
  match t.active.rows[t.cursor.row]? with
  | some row =>
    let chars := (row.cells.map Cell.char).toArray
    (Line.ofArray chars).visualColumn t.cursor.col t.cols
  | none => t.cursor.col

/-- Changes the size.  The top rows and the left columns stay, and the whole screen scrolls. -/
def resize (t : Terminal) (cols rows : Nat) : Terminal :=
  { t with
    cols := cols
    rows := rows
    primary := t.primary.resize cols rows
    alternate := t.alternate.resize cols rows
    region := fullRegion rows }

/-- A fresh terminal of the same size. -/
def reset (t : Terminal) : Terminal := new t.cols t.rows t.scrollbackLimit

/-- Whether anything is to be drawn; asking forgets it.  While rendering is suspended the answer is
no, and nothing is forgotten. -/
def takeRenderRequest (t : Terminal) : Bool × Terminal :=
  if t.renderSuspended then (false, t)
  else
    (t.flushRequested || t.primary.changed || t.alternate.changed,
      { t with
        flushRequested := false
        primary := { t.primary with changed := false }
        alternate := { t.alternate with changed := false } })

/-- What is changed is the page that is shown. -/
@[simp] theorem active_modifyActive (t : Terminal) (f : Page → Page) :
    (t.modifyActive f).active = f t.active := by
  unfold modifyActive active
  split <;> simp_all

/-- After a change of the page that is shown, the cursor is the one the change leaves. -/
@[simp] theorem cursor_modifyActive (t : Terminal) (f : Page → Page) :
    (t.modifyActive f).cursor = (f t.active).cursor := by
  simp [cursor]

/-- A change of the page that is shown does not show the other one. -/
@[simp] theorem usingAlternate_modifyActive (t : Terminal) (f : Page → Page) :
    (t.modifyActive f).usingAlternate = t.usingAlternate := by
  unfold modifyActive
  split <;> simp_all

/-! Changing a page changes nothing that the pages share. -/

section Frame

variable (t : Terminal) (f : Page → Page)

/-- A change of a page keeps the width of the screen. -/
@[simp] theorem cols_modifyActive : (t.modifyActive f).cols = t.cols := by
  unfold modifyActive
  split <;> rfl

@[simp] theorem rows_modifyActive : (t.modifyActive f).rows = t.rows := by
  unfold modifyActive
  split <;> rfl

/-- The style of new text belongs to the terminal, and no change of a page touches it. -/
@[simp] theorem style_modifyActive : (t.modifyActive f).style = t.style := by
  unfold modifyActive
  split <;> rfl

/-- The modes belong to the terminal, and no change of a page touches them. -/
@[simp] theorem modes_modifyActive : (t.modifyActive f).modes = t.modes := by
  unfold modifyActive
  split <;> rfl

/-- The title belongs to the terminal, and no change of a page touches it. -/
@[simp] theorem title_modifyActive : (t.modifyActive f).title = t.title := by
  unfold modifyActive
  split <;> rfl

/-- The region that scrolls is the same for both pages. -/
@[simp] theorem region_modifyActive : (t.modifyActive f).region = t.region := by
  unfold modifyActive
  split <;> rfl

/-- The limit of the history that a reset gives back belongs to the terminal. -/
@[simp] theorem scrollbackLimit_modifyActive :
    (t.modifyActive f).scrollbackLimit = t.scrollbackLimit := by
  unfold modifyActive
  split <;> rfl

/-- Whether rendering is suspended is no matter of a page. -/
@[simp] theorem renderSuspended_modifyActive :
    (t.modifyActive f).renderSuspended = t.renderSuspended := by
  unfold modifyActive
  split <;> rfl

/-- Whether a flush is due is no matter of a page. -/
@[simp] theorem flushRequested_modifyActive :
    (t.modifyActive f).flushRequested = t.flushRequested := by
  unfold modifyActive
  split <;> rfl

/-- A change of a page switches no mode on or off. -/
@[simp] theorem has_modifyActive (m : Mode) : (t.modifyActive f).has m = t.has m := by
  simp [has]

/-- Cells are blanked as before, since the style is kept. -/
@[simp] theorem blank_modifyActive : (t.modifyActive f).blank = t.blank := by
  simp [blank]

end Frame

end Terminal

end VideoTerminal
