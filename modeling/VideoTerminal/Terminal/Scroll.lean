import VideoTerminal.Terminal

/-!
# Scrolling

Rows move within the scroll region only.  What leaves the primary page at the very top of the screen
becomes history; everything else that leaves the region is lost.
-/

namespace VideoTerminal.Terminal

/-- Moves the region up by `n` rows, but no further than its height. -/
def scrollUp (t : Terminal) (n : Nat) : Terminal :=
  let r := t.region
  if r.fits t.active.rows.length then
    let keep := !t.usingAlternate && r.top == 0
    t.modifyActive fun p =>
      (p.scrollUp r.top r.bottom t.cols keep (min n r.height)).markAllDirty
  else t

/-- Moves the region down by `n` rows, but no further than its height. -/
def scrollDown (t : Terminal) (n : Nat) : Terminal :=
  let r := t.region
  if r.fits t.active.rows.length then
    t.modifyActive fun p =>
      (p.scrollDown r.top r.bottom t.cols (min n r.height)).markAllDirty
  else t

/-- Opens `n` rows at the cursor; rows pushed over the end of the region are lost.  Outside the
region nothing happens. -/
def insertLines (t : Terminal) (n : Nat) : Except Fault Terminal :=
  let r := t.region
  let row := t.cursor.row
  if row < r.top ∨ r.bottom < row then .ok t
  else
    let count := min n (r.bottom - row + 1)
    if 0 < count ∧ t.active.rows.length ≤ r.bottom then .error (.noRow r.bottom)
    else .ok (t.modifyActive fun p => (p.scrollDown row r.bottom t.cols count).markAllDirty)

/-- Removes `n` rows at the cursor; the rest of the region moves up.  Outside the region nothing
happens. -/
def deleteLines (t : Terminal) (n : Nat) : Except Fault Terminal :=
  let r := t.region
  let row := t.cursor.row
  if row < r.top ∨ r.bottom < row then .ok t
  else
    let count := min n (r.bottom - row + 1)
    if 0 < count ∧ t.active.rows.length ≤ r.bottom then .error (.noRow r.bottom)
    else .ok (t.modifyActive fun p => (p.scrollUp row r.bottom t.cols false count).markAllDirty)

/-- The screen scrolls under the cursor. -/
@[simp] theorem cursor_scrollUp (t : Terminal) (n : Nat) : (t.scrollUp n).cursor = t.cursor := by
  unfold scrollUp
  dsimp only
  split
  · simp [cursor]
  · rfl

end VideoTerminal.Terminal
