import VideoTerminal.Screen.Cursor
import VideoTerminal.Screen.Row

/-!
# Pages

A terminal has two pages, of which it shows one.  A page is a screen of rows with its cursor, the
rows that have left it at the top, and a record of what has changed since it was last drawn.
-/

namespace VideoTerminal

/-- A screen, its history and its cursor. -/
structure Page where
  rows : List Row
  /-- Rows that left the screen at the top, the oldest first. -/
  scrollback : Array Row := #[]
  scrollbackLimit : Nat
  /-- Rows changed since the page was last drawn, in increasing order. -/
  dirty : List Nat := []
  /-- The whole screen is to be drawn anew. -/
  fullRedraw : Bool := true
  /-- Something changed since a render was last asked for. -/
  changed : Bool := true
  cursor : Cursor := {}
  deriving DecidableEq

namespace Page

/-- An untouched page. -/
def new (cols rows scrollbackLimit : Nat) : Page where
  rows := List.replicate rows (Row.new cols)
  scrollbackLimit := scrollbackLimit

/-- Adds a number to a list in increasing order, unless it is there. -/
def insertLine (line : Nat) : List Nat → List Nat
  | [] => [line]
  | m :: rest =>
    if line < m then line :: m :: rest
    else if line = m then m :: rest
    else m :: insertLine line rest

/-- A recorded row is added to those that have been. -/
theorem mem_insertLine {line m : Nat} {lines : List Nat} :
    m ∈ insertLine line lines ↔ m = line ∨ m ∈ lines := by
  induction lines with
  | nil => simp [insertLine]
  | cons x rest ih =>
    unfold insertLine
    split
    · simp
    · split
      · subst_vars; simp
      · simp [ih]; grind

/-- Records that a row changed. -/
def markDirty (p : Page) (line : Nat) : Page :=
  { p with dirty := insertLine line p.dirty, changed := true }

/-- Records that anything may have changed. -/
def markAllDirty (p : Page) : Page := { p with fullRedraw := true, changed := true }

/-- Records that the page has been drawn. -/
def clearDirty (p : Page) : Page := { p with dirty := [], fullRedraw := false }

/-- Rows of history and screen. -/
def totalLines (p : Page) : Nat := p.scrollback.size + p.rows.length

/-- Keeps a row that left the screen; the oldest goes when there are too many. -/
def pushScrollback (p : Page) (r : Row) : Page :=
  if p.scrollbackLimit = 0 then p
  else
    let kept :=
      if p.scrollback.size = p.scrollbackLimit then p.scrollback.extract 1 p.scrollback.size
      else p.scrollback
    { p with scrollback := kept.push r }

/-- Keeps the top rows and the left columns of the screen and of the history. -/
def resize (p : Page) (cols rows : Nat) : Page :=
  let kept : List Row := p.rows.take rows ++ List.replicate (rows - p.rows.length) (Row.new cols)
  let resized : Page :=
    { p with
      rows := kept.map fun r => r.resize cols
      scrollback := p.scrollback.map fun r => r.resize cols
      cursor := p.cursor.clamp cols rows }
  resized.markAllDirty

/-- Changes one row. -/
def modifyRow (p : Page) (row : Nat) (f : Row → Row) : Page :=
  { p with rows := p.rows.modify row f }

/-- Changes the cells of one row and records it; a row that does not exist is left alone. -/
def editRow (p : Page) (row : Nat) (f : Row → Row) : Page :=
  if row < p.rows.length then (p.modifyRow row f).markDirty row else p

/-- Moves the cursor to a column. -/
def moveToCol (p : Page) (col : Nat) : Page := { p with cursor := { p.cursor with col := col } }

/-- Moves the cursor to a row. -/
def moveToRow (p : Page) (row : Nat) : Page := { p with cursor := { p.cursor with row := row } }

/-- Replaces the rows from `start` up to and without `stop` by blank ones. -/
def clearRows (p : Page) (start stop : Nat) (blank : Cell) : Page :=
  let last := min stop p.rows.length
  { p with
    rows := p.rows.mapIdx fun i r => if start ≤ i ∧ i < stop then r.clear blank else r
    dirty := (List.range' start (last - start)).foldl (fun d i => insertLine i d) p.dirty
    changed := p.changed || decide (start < last) }

/-- Takes the row at `top` out and puts an untouched row in at `bottom`; the row taken out becomes
history if it is to be kept. -/
def scrollUpOnce (p : Page) (top bottom cols : Nat) (keep : Bool) : Page :=
  match p.rows[top]? with
  | some removed =>
    let p := if keep then p.pushScrollback removed else p
    { p with rows := (p.rows.eraseIdx top).insertIdx bottom (Row.new cols) }
  | none => p

/-- Takes the row at `bottom` out and puts an untouched row in at `top`. -/
def scrollDownOnce (p : Page) (top bottom cols : Nat) : Page :=
  { p with rows := (p.rows.eraseIdx bottom).insertIdx top (Row.new cols) }

/-- Scrolls up `n` times. -/
def scrollUp (p : Page) (top bottom cols : Nat) (keep : Bool) : Nat → Page
  | 0 => p
  | n + 1 => (p.scrollUpOnce top bottom cols keep).scrollUp top bottom cols keep n

/-- Scrolls down `n` times. -/
def scrollDown (p : Page) (top bottom cols : Nat) : Nat → Page
  | 0 => p
  | n + 1 => (p.scrollDownOnce top bottom cols).scrollDown top bottom cols n

/-! What is done to rows leaves the cursor where it is. -/

/-- Recording a row does not move the cursor. -/
@[simp] theorem cursor_markDirty (p : Page) (line : Nat) : (p.markDirty line).cursor = p.cursor := rfl

@[simp] theorem cursor_markAllDirty (p : Page) : p.markAllDirty.cursor = p.cursor := rfl

/-- A row is changed without the cursor being moved. -/
@[simp] theorem cursor_modifyRow (p : Page) (row : Nat) (f : Row → Row) :
    (p.modifyRow row f).cursor = p.cursor := rfl

@[simp] theorem cursor_editRow (p : Page) (row : Nat) (f : Row → Row) :
    (p.editRow row f).cursor = p.cursor := by
  unfold editRow
  split <;> rfl

/-- What goes to the history leaves the cursor alone. -/
@[simp] theorem cursor_pushScrollback (p : Page) (r : Row) :
    (p.pushScrollback r).cursor = p.cursor := by
  unfold pushScrollback
  split <;> rfl

/-- The rows of the screen are not those of the history. -/
@[simp] theorem rows_pushScrollback (p : Page) (r : Row) :
    (p.pushScrollback r).rows = p.rows := by
  unfold pushScrollback
  split <;> rfl

/-- The rows go up under the cursor, which stays. -/
@[simp] theorem cursor_scrollUpOnce (p : Page) (top bottom cols : Nat) (keep : Bool) :
    (p.scrollUpOnce top bottom cols keep).cursor = p.cursor := by
  unfold scrollUpOnce
  split
  · cases keep <;> simp
  · rfl

/-- However many rows go up, the cursor stays. -/
@[simp] theorem cursor_scrollUp (p : Page) (top bottom cols : Nat) (keep : Bool) (n : Nat) :
    (p.scrollUp top bottom cols keep n).cursor = p.cursor := by
  induction n generalizing p with
  | zero => rfl
  | succ n ih => simp [scrollUp, ih]

@[simp] theorem cursor_scrollDown (p : Page) (top bottom cols n : Nat) :
    (p.scrollDown top bottom cols n).cursor = p.cursor := by
  induction n generalizing p with
  | zero => rfl
  | succ n ih => simp [scrollDown, ih, scrollDownOnce]

end Page

end VideoTerminal
