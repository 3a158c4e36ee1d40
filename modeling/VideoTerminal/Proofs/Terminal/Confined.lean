import Mathlib.Data.List.InsertIdx
import VideoTerminal.Proofs.Terminal.Run
import VideoTerminal.Proofs.Terminal.Shown

/-!
# The scroll region confines output

While the cursor stands in the scroll region, output stays there: whatever is printed, erased,
inserted, removed or scrolled, and however long it goes on, the cursor does not leave the region and
the rows above and below stay as they are, each at its place (`InRegion.confined_run`).  A row
becomes history only if it leaves the primary page at the very top of the screen.

What carries this over a run is the cursor: each operation uses that it stands in the region
(`InRegion`) and leaves it there.
-/

namespace VideoTerminal

/-- Actions that write, erase, insert, remove and scroll, and those that move the cursor within its
row or by one row. -/
def Action.isOutput : Action → Bool
  | .print _ | .backspace | .horizontalTab | .lineFeed | .carriageReturn | .index | .nextLine
  | .reverseIndex | .cursorForward _ | .cursorBackward _ | .cursorColumn _ | .eraseInLine _
  | .insertLines _ | .deleteLines _ | .insertChars _ | .deleteChars _ | .eraseChars _
  | .scrollUp _ | .scrollDown _ => true
  | _ => false

/-- Operations that output something: texts, and actions of that kind. -/
def Operation.isOutput : Operation → Bool
  | .perform action => action.isOutput
  | .putText _ => true
  | _ => false

/-- Output is admissible. -/
theorem Operation.admissible_of_isOutput {op : Operation} (h : op.isOutput = true) :
    op.Admissible := by
  cases op with
  | resize cols rows => cases h
  | _ => trivial

/-! ## Rows that are moved within bounds -/

/-- A row taken out and another one put in between two places: outside of them nothing moves. -/
theorem getElem?_insertIdx_eraseIdx {α : Type} {l : List α} {x : α} {top bottom out into i : Nat}
    (hout : top ≤ out ∧ out ≤ bottom) (hinto : top ≤ into ∧ into ≤ bottom)
    (hi : i < top ∨ bottom < i) : ((l.eraseIdx out).insertIdx into x)[i]? = l[i]? := by
  rcases hi with hi | hi
  · rw [List.getElem?_insertIdx_of_lt (by omega), List.getElem?_eraseIdx_of_lt (by omega)]
  · rw [List.getElem?_insertIdx_of_gt (by omega), List.getElem?_eraseIdx_of_ge (by omega),
      Nat.sub_add_cancel (by omega)]

namespace Page

/-- Outside the region that scrolls up, rows stay. -/
theorem getElem?_rows_scrollUp {p : Page} {top bottom i : Nat} (h : top ≤ bottom)
    (hi : i < top ∨ bottom < i) (cols : Nat) (keep : Bool) (n : Nat) :
    (p.scrollUp top bottom cols keep n).rows[i]? = p.rows[i]? := by
  induction n generalizing p with
  | zero => rfl
  | succ n ih =>
      rw [scrollUp, ih, scrollUpOnce]
      split
      · have hrows : ∀ removed,
            (if keep = true then p.pushScrollback removed else p).rows = p.rows := by
          intro removed
          split
          · exact rows_pushScrollback p removed
          · rfl
        dsimp only
        rw [hrows]
        exact getElem?_insertIdx_eraseIdx ⟨Nat.le_refl top, h⟩ ⟨h, Nat.le_refl bottom⟩ hi
      · rfl

/-- Outside the region that scrolls down, rows stay. -/
theorem getElem?_rows_scrollDown {p : Page} {top bottom i : Nat} (h : top ≤ bottom)
    (hi : i < top ∨ bottom < i) (cols n : Nat) :
    (p.scrollDown top bottom cols n).rows[i]? = p.rows[i]? := by
  induction n generalizing p with
  | zero => rfl
  | succ n ih =>
      rw [scrollDown, ih, scrollDownOnce]
      exact getElem?_insertIdx_eraseIdx ⟨h, Nat.le_refl bottom⟩ ⟨Nat.le_refl top, h⟩ hi

/-- Nothing becomes history unless it is to be kept. -/
theorem scrollback_scrollUp_false (p : Page) (top bottom cols n : Nat) :
    (p.scrollUp top bottom cols false n).scrollback = p.scrollback := by
  induction n generalizing p with
  | zero => rfl
  | succ n ih =>
      rw [scrollUp, ih, scrollUpOnce]
      split <;> rfl

/-- Rows that go down leave the history. -/
theorem scrollback_scrollDown (p : Page) (top bottom cols n : Nat) :
    (p.scrollDown top bottom cols n).scrollback = p.scrollback := by
  induction n generalizing p with
  | zero => rfl
  | succ n ih =>
      rw [scrollDown, ih]
      rfl

end Page

namespace Terminal

/-- The cursor stands on a row that scrolls. -/
def InRegion (t : Terminal) : Prop :=
  t.region.top ≤ t.cursor.row ∧ t.cursor.row ≤ t.region.bottom

instance (t : Terminal) : Decidable t.InRegion := inferInstanceAs (Decidable (_ ∧ _))

/-- Between `t` and `t'` nothing happened outside the scroll region. -/
structure Confined (t t' : Terminal) : Prop where
  region_eq : t'.region = t.region
  inRegion : t'.InRegion
  /-- Each row above and below has its cells and its mark, and its place. -/
  getElem?_rows : ∀ i, i < t.region.top ∨ t.region.bottom < i →
    t'.active.rows[i]? = t.active.rows[i]?
  usingAlternate_eq : t'.usingAlternate = t.usingAlternate
  hidden_eq : t'.hidden = t.hidden
  scrollback_eq : t.usingAlternate = true ∨ 0 < t.region.top →
    t'.active.scrollback = t.active.scrollback

namespace Confined

theorem refl {t : Terminal} (h : t.InRegion) : t.Confined t :=
  ⟨rfl, h, fun _ _ => rfl, rfl, rfl, fun _ => rfl⟩

theorem trans {t₁ t₂ t₃ : Terminal} (h : t₁.Confined t₂) (h' : t₂.Confined t₃) :
    t₁.Confined t₃ where
  region_eq := h'.region_eq.trans h.region_eq
  inRegion := h'.inRegion
  getElem?_rows i hi := by
    rw [← h.region_eq] at hi
    rw [h'.getElem?_rows i hi]
    rw [h.region_eq] at hi
    exact h.getElem?_rows i hi
  usingAlternate_eq := h'.usingAlternate_eq.trans h.usingAlternate_eq
  hidden_eq := h'.hidden_eq.trans h.hidden_eq
  scrollback_eq hkeep := by
    have hnext := hkeep
    rw [← h.region_eq, ← h.usingAlternate_eq] at hnext
    rw [h'.scrollback_eq hnext, h.scrollback_eq hkeep]

end Confined

/-- A change of the page that is shown that leaves the cursor in the region and the rows outside. -/
theorem confined_modifyActive {t : Terminal} {f : Page → Page}
    (hcursor : t.region.top ≤ (f t.active).cursor.row ∧ (f t.active).cursor.row ≤ t.region.bottom)
    (hrows : ∀ i, i < t.region.top ∨ t.region.bottom < i →
      (f t.active).rows[i]? = t.active.rows[i]?)
    (hback : t.usingAlternate = true ∨ 0 < t.region.top →
      (f t.active).scrollback = t.active.scrollback) :
    t.Confined (t.modifyActive f) where
  region_eq := region_modifyActive t f
  inRegion := by
    unfold InRegion
    rw [region_modifyActive, cursor_modifyActive]
    exact hcursor
  getElem?_rows i hi := by
    rw [active_modifyActive]
    exact hrows i hi
  usingAlternate_eq := usingAlternate_modifyActive t f
  hidden_eq := hidden_modifyActive t f
  scrollback_eq hkeep := by
    rw [active_modifyActive]
    exact hback hkeep

/-- The cursor's row is a row of the region. -/
theorem Retouched.confined {t t' : Terminal} (h : t.Retouched t') (ht : t.InRegion) :
    t.Confined t' := by
  obtain ⟨edit, hrows⟩ := h.active.rows_eq
  rw [h.frame]
  refine confined_modifyActive ?_ ?_ ?_
  · have hrow : t'.active.cursor.row = t.cursor.row := h.row_eq
    rw [hrow]
    exact ht
  · intro i hi
    have hne : t.active.cursor.row ≠ i := by
      rintro rfl
      obtain ⟨htop, hbottom⟩ := ht
      unfold cursor at htop hbottom
      omega
    rw [hrows, List.getElem?_modify_ne _ _ hne]
  · intro _
    exact h.active.scrollback_eq

namespace InRegion

variable {t t' : Terminal}

/-! ## Scrolling and moving -/

/-- The rows from one of the region on are moved up.  Only the top of the primary page becomes
history. -/
theorem movedUp (h : t.InRegion) {first : Nat} {keep : Bool} (htop : t.region.top ≤ first)
    (hbottom : first ≤ t.region.bottom)
    (hkeep : t.usingAlternate = true ∨ 0 < t.region.top → keep = false) (n : Nat) :
    t.Confined (t.modifyActive fun p =>
      (p.scrollUp first t.region.bottom t.cols keep n).markAllDirty) := by
  refine confined_modifyActive ?_ ?_ ?_
  · rw [Page.cursor_markAllDirty, Page.cursor_scrollUp]
    exact h
  · intro i hi
    exact Page.getElem?_rows_scrollUp hbottom (by omega) _ _ _
  · intro hlost
    rw [hkeep hlost]
    exact Page.scrollback_scrollUp_false _ _ _ _ _

/-- Rows of the region that go down are confined to it. -/
theorem movedDown (h : t.InRegion) {first : Nat} (htop : t.region.top ≤ first)
    (hbottom : first ≤ t.region.bottom) (n : Nat) :
    t.Confined (t.modifyActive fun p =>
      (p.scrollDown first t.region.bottom t.cols n).markAllDirty) := by
  refine confined_modifyActive ?_ ?_ ?_
  · rw [Page.cursor_markAllDirty, Page.cursor_scrollDown]
    exact h
  · intro i hi
    exact Page.getElem?_rows_scrollDown hbottom (by omega) _ _
  · intro _
    exact Page.scrollback_scrollDown _ _ _ _ _

/-- Scrolling up is confined to the region. -/
theorem scrollUp (h : t.InRegion) (n : Nat) : t.Confined (t.scrollUp n) := by
  unfold Terminal.scrollUp
  dsimp only
  split
  · refine h.movedUp (Nat.le_refl _) (Nat.le_trans h.1 h.2) ?_ _
    rintro (halternate | htop)
    · simp [halternate]
    · simp [Nat.ne_of_gt htop]
  · exact .refl h

theorem scrollDown (h : t.InRegion) (n : Nat) : t.Confined (t.scrollDown n) := by
  unfold Terminal.scrollDown
  dsimp only
  split
  · exact h.movedDown (Nat.le_refl _) (Nat.le_trans h.1 h.2) _
  · exact .refl h

/-- Inserting lines is confined to the region. -/
theorem insertLines (h : t.InRegion) {n : Nat} (hok : t.insertLines n = .ok t') :
    t.Confined t' := by
  rcases insertLines_cases hok with rfl | ⟨count, rfl⟩
  · exact .refl h
  · exact h.movedDown h.1 h.2 count

theorem deleteLines (h : t.InRegion) {n : Nat} (hok : t.deleteLines n = .ok t') :
    t.Confined t' := by
  rcases deleteLines_cases hok with rfl | ⟨count, rfl⟩
  · exact .refl h
  · exact h.movedUp h.1 h.2 (fun _ => rfl) count

/-- To another row of the region. -/
theorem moveToRow {row : Nat} (htop : t.region.top ≤ row) (hbottom : row ≤ t.region.bottom) :
    t.Confined (t.modifyActive fun p => p.moveToRow row) :=
  confined_modifyActive ⟨htop, hbottom⟩ (fun _ _ => rfl) fun _ => rfl

/-- Below the last row of the region the cursor does not go: there the region scrolls. -/
theorem index (h : t.InRegion) : t.Confined t.index := by
  obtain ⟨htop, hbottom⟩ := id h
  unfold Terminal.index
  dsimp only
  split
  · exact h.scrollUp 1
  · split
    · exact moveToRow (by omega) (by omega)
    · exact .refl h

theorem reverseIndex (h : t.InRegion) : t.Confined t.reverseIndex := by
  obtain ⟨htop, hbottom⟩ := id h
  unfold Terminal.reverseIndex
  split
  · exact h.scrollDown 1
  · have hup : t.cursorUp 1 = t.modifyActive fun p => p.moveToRow (t.cursor.row - 1) :=
      modifyActive_congr rfl
    rw [hup]
    exact moveToRow (by omega) (by omega)

theorem lineFeed (h : t.InRegion) : t.Confined t.lineFeed := by
  unfold Terminal.lineFeed
  split
  · have hmoved := (t.retouched_moveToCol 0).confined h
    exact hmoved.trans hmoved.inRegion.index
  · exact h.index

/-- Every step of printing, and so printing. -/
theorem printed (h : t.InRegion) (hprinted : Printed t t') : t.Confined t' := by
  induction hprinted with
  | refl => exact .refl h
  | tail _ hstep ih =>
      cases hstep with
      | retouch hretouched => exact ih.trans (hretouched.confined ih.inRegion)
      | goDown => exact ih.trans ih.inRegion.index

/-! ## Runs -/

/-- Output that never fails is confined to the region. -/
theorem performSimple (h : t.InRegion) {action : Action} (haction : action.isOutput = true) :
    t.Confined (t.performSimple action) := by
  cases action with
  | backspace => exact (t.retouched_cursorBackward 1).confined h
  | lineFeed => exact h.lineFeed
  | carriageReturn => exact t.retouched_carriageReturn.confined h
  | index => exact h.index
  | nextLine =>
      have hreturned := t.retouched_carriageReturn.confined h
      exact hreturned.trans hreturned.inRegion.index
  | reverseIndex => exact h.reverseIndex
  | cursorForward n => exact (t.retouched_cursorForward n).confined h
  | cursorBackward n => exact (t.retouched_cursorBackward n).confined h
  | cursorColumn col => exact (t.retouched_cursorColumn col).confined h
  | eraseInLine part => exact (t.retouched_eraseInLine part).confined h
  | insertChars n => exact (t.retouched_insertChars n).confined h
  | deleteChars n => exact (t.retouched_deleteChars n).confined h
  | eraseChars n => exact (t.retouched_eraseChars n).confined h
  | scrollUp n => exact h.scrollUp n
  | scrollDown n => exact h.scrollDown n
  | print | horizontalTab | insertLines | deleteLines => exact .refl h
  | _ => cases haction

/-- **An action of output is confined to the region.** -/
theorem perform (h : t.InRegion) {action : Action} (haction : action.isOutput = true)
    {replies : List Reply} (hok : t.perform action = .ok (t', replies)) : t.Confined t' := by
  rcases perform_cases hok with ⟨c, -, hprint⟩ | ⟨-, hmove⟩ | ⟨n, -, hopen⟩ | ⟨n, -, hclose⟩ | rfl
  · exact h.printed (printed_of_putChar hprint)
  · exact (retouched_of_horizontalTab hmove).confined h
  · exact h.insertLines hopen
  · exact h.deleteLines hclose
  · exact h.performSimple haction

/-- Output in any form is confined to the region. -/
theorem operate (h : t.InRegion) {op : Operation} (hop : op.isOutput = true)
    (hok : t.operate op = .ok t') : t.Confined t' := by
  cases op with
  | perform action =>
      obtain ⟨⟨done, replies⟩, hperform, hend⟩ := exists_of_bind_eq_ok hok
      obtain rfl := Except.ok.inj hend
      exact h.perform hop hperform
  | putText text => exact h.printed (printed_of_putText hok)
  | _ => cases hop

/-- **The scroll region confines output.**  With the cursor in the scroll region, every run of
output that goes through leaves it there, and leaves the region, the rows above and below it, the
page that is not shown and, but for the top of the primary page, the history as they are.  On a
well-formed terminal every such run goes through. -/
theorem confined_run (h : t.InRegion) {ops : List Operation}
    (hops : ∀ op ∈ ops, op.isOutput = true) :
    (∀ t', t.run ops = .ok t' → t.Confined t') ∧
      ∀ cols rows limit, t.WellFormed cols rows limit → ∃ t', t.run ops = .ok t' := by
  constructor
  · intro t' hrun
    refine foldlM_induction ?_ (Confined.refl h) hrun
    intro op hop before after hbefore hok
    exact hbefore.trans (hbefore.inRegion.operate (hops op hop) hok)
  · intro cols rows limit hwell
    obtain ⟨t', hrun, -⟩ := hwell.exists_run fun op hop =>
      Operation.admissible_of_isOutput (hops op hop)
    exact ⟨t', hrun⟩

/-- A screen of three rows, of which the last one does not scroll. -/
def aboveStatus : Terminal := { Terminal.new 4 3 9 with region := ⟨0, 1⟩ }

/-- More text than fits, with a mark for a character at the margin, and rows that come and go. -/
def filling : List Operation :=
  [.putText ['a', 'b', 'c', 'd', '\u0301', 'e', 'f', '\u4E2D', 'g'], .perform .lineFeed,
    .perform .reverseIndex, .perform (.insertLines 9), .perform (.deleteLines 1),
    .perform (.scrollUp 7), .perform (.scrollDown 1), .perform (.eraseInLine 2)]

/-- The last row is kept while the first one becomes history. -/
theorem confined_run_filling :
    aboveStatus.InRegion ∧ (∀ op ∈ filling, op.isOutput = true) ∧ aboveStatus.WellFormed 4 3 9 ∧
      ∃ t', aboveStatus.run filling = .ok t' ∧ aboveStatus.Confined t' := by
  have hregion : aboveStatus.InRegion := by decide
  have hfilling : ∀ op ∈ filling, op.isOutput = true := by decide
  have hwell : aboveStatus.WellFormed 4 3 9 :=
    (WellFormed.new (by decide) 9).withRegion (by decide) (by decide)
  obtain ⟨hconfined, hruns⟩ := confined_run hregion hfilling
  obtain ⟨t', hrun⟩ := hruns 4 3 9 hwell
  exact ⟨hregion, hfilling, hwell, t', hrun, hconfined t' hrun⟩

end InRegion

end Terminal

end VideoTerminal
