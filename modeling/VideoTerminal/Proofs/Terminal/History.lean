import VideoTerminal.Proofs.Screen.History
import VideoTerminal.Proofs.Screen.Recorded
import VideoTerminal.Proofs.Terminal.Lines

/-!
# The history is what has left

While a terminal shows its primary page, every row that is scrolled off the top of the screen leaves
for the history, and nothing else does.  `Terminal.departures` lists the rows that leave in a run,
as they were when they left, and takes no notice of the history itself.  What the terminal has kept
at the end is the last of them, as many as the limit allows (`Terminal.history_run`).

The list is followed through a run by an invariant with the rows that have left so far as its last
argument (`Terminal.Chronicles`): an operation keeps it with the rows added that leave by the
operation.
-/

namespace VideoTerminal

/-- Output, and the choice of the region that scrolls. -/
def Operation.isOutputOrRegion : Operation → Bool
  | .perform (.setScrollRegion _ _) => true
  | op => op.isOutput

/-- Output is admissible, and so is setting the region. -/
theorem Operation.admissible_of_isOutputOrRegion {op : Operation}
    (h : op.isOutputOrRegion = true) : op.Admissible := by
  cases op with
  | resize cols rows => cases h
  | _ => trivial

namespace Terminal

/-! ## The rows that leave -/

/-- The rows that leave when the region scrolls up by `n`: the top ones of the primary page, if the
region begins there. -/
def leavingTop (t : Terminal) (n : Nat) : List Row :=
  if t.usingAlternate = false ∧ t.region.top = 0 ∧ t.region.fits t.active.rows.length = true then
    t.active.rows.take (min n (t.region.bottom + 1))
  else []

/-- The row that leaves when the cursor goes down from the bottom of the region. -/
def leavingIndex (t : Terminal) : List Row :=
  if t.cursor.row = t.region.bottom then t.leavingTop 1 else []

/-- The row that leaves when `c` is printed. -/
def leavingPrint (t : Terminal) (c : Char) : List Row :=
  match t.goingDown? c with
  | some down => down.leavingIndex
  | none => []

/-- The rows that leave in a computation, step after step, as long as it goes through. -/
def leavingAll {α : Type} (step : Terminal → α → Except Fault Terminal)
    (leaving : Terminal → α → List Row) (t : Terminal) : List α → List Row
  | [] => []
  | x :: rest =>
    leaving t x ++
      match step t x with
      | .ok t' => leavingAll step leaving t' rest
      | .error _ => []

/-- The rows that leave when an operation is done. -/
def leavingOperate (t : Terminal) : Operation → List Row
  | .putText text => leavingAll putChar leavingPrint t text
  | .perform (.print c) => t.leavingPrint c
  | .perform .lineFeed | .perform .index | .perform .nextLine => t.leavingIndex
  | .perform (.scrollUp n) => t.leavingTop n
  | _ => []

/-- The rows that leave in a run. -/
def departures (t : Terminal) (ops : List Operation) : List Row :=
  leavingAll operate leavingOperate t ops

/-- The second part of a computation begins where the first has ended. -/
theorem leavingAll_append {α : Type} {step : Terminal → α → Except Fault Terminal}
    {leaving : Terminal → α → List Row} {t t' : Terminal} {front : List α}
    (h : front.foldlM step t = .ok t') (back : List α) :
    leavingAll step leaving t (front ++ back) =
      leavingAll step leaving t front ++ leavingAll step leaving t' back := by
  induction front generalizing t with
  | nil =>
      obtain rfl := Except.ok.inj h
      rfl
  | cons x rest ih =>
      rw [List.foldlM_cons] at h
      obtain ⟨middle, hmiddle, hrest⟩ := exists_of_bind_eq_ok h
      rw [List.cons_append, leavingAll, leavingAll, hmiddle]
      dsimp only
      rw [ih hrest, List.append_assoc]

/-- A run that ends with scrolling up. -/
theorem departures_scrollUp {t t' : Terminal} {ops : List Operation} (h : t.run ops = .ok t')
    (n : Nat) :
    t.departures (ops ++ [.perform (.scrollUp n)]) = t.departures ops ++ t'.leavingTop n := by
  refine (leavingAll_append h _).trans (congrArg (t.departures ops ++ ·) ?_)
  exact List.append_nil _

/-- What leaves the screen depends on its rows and on the cursor's. -/
theorem leavingIndex_modifyActive {t : Terminal} {f : Page → Page}
    (hrows : (f t.active).rows = t.active.rows)
    (hrow : (f t.active).cursor.row = t.cursor.row) :
    (t.modifyActive f).leavingIndex = t.leavingIndex := by
  simp only [leavingIndex, leavingTop, cursor_modifyActive, region_modifyActive,
    usingAlternate_modifyActive, active_modifyActive, hrows, hrow]

/-! ## What has left is kept -/

/-- A terminal of a size and with a limit to its history shows its primary page, on which its region
lies, and of the rows that have left it keeps the last. -/
structure Chronicles (t : Terminal) (cols rows limit : Nat) (left : List Row) : Prop where
  cols_eq : t.cols = cols
  rows_eq : t.rows = rows
  usingAlternate : t.usingAlternate = false
  limit_eq : t.active.scrollbackLimit = limit
  length_rows : t.active.rows.length = rows
  fits : t.region.fits rows = true
  history : t.active.scrollback.toList = left.rtake limit

/-- Nothing has left a fresh terminal. -/
theorem chronicles_new {cols rows : Nat} (limit : Nat) (h : 0 < rows) :
    (new cols rows limit).Chronicles cols rows limit [] where
  cols_eq := rfl
  rows_eq := rfl
  usingAlternate := rfl
  limit_eq := rfl
  length_rows := List.length_replicate
  fits := by
    have hlast : rows - 1 < rows := Nat.sub_lt h Nat.one_pos
    simp [new, fullRegion, Region.fits, hlast]
  history := by
    rw [List.rtake_nil]
    rfl

namespace Chronicles

variable {t t' : Terminal} {cols rows limit : Nat} {left : List Row}

/-- The history is no longer than its limit. -/
theorem size_le (h : t.Chronicles cols rows limit left) :
    t.active.scrollback.size ≤ t.active.scrollbackLimit := by
  rw [h.limit_eq, ← Array.length_toList, h.history, List.rtake, List.length_drop]
  omega

/-- The region lies on the screen. -/
theorem top_le_bottom (h : t.Chronicles cols rows limit left) :
    t.region.top ≤ t.region.bottom ∧ t.region.bottom < t.active.rows.length := by
  have hfits := h.fits
  rw [h.length_rows]
  simp only [Region.fits, Bool.and_eq_true, decide_eq_true_eq] at hfits
  exact hfits.symm

/-- A change of the page that is shown, by which rows may become history. -/
theorem modifyActive {left' : List Row} (h : t.Chronicles cols rows limit left) {f : Page → Page}
    (hlimit : (f t.active).scrollbackLimit = t.active.scrollbackLimit)
    (hlength : (f t.active).rows.length = t.active.rows.length)
    (hhistory : (f t.active).scrollback.toList = left'.rtake limit) :
    (t.modifyActive f).Chronicles cols rows limit left' where
  cols_eq := by rw [cols_modifyActive, h.cols_eq]
  rows_eq := by rw [rows_modifyActive, h.rows_eq]
  usingAlternate := by rw [usingAlternate_modifyActive, h.usingAlternate]
  limit_eq := by rw [active_modifyActive, hlimit, h.limit_eq]
  length_rows := by rw [active_modifyActive, hlength, h.length_rows]
  fits := by rw [region_modifyActive, h.fits]
  history := by rw [active_modifyActive, hhistory]

/-- A change by which none does. -/
theorem keep (h : t.Chronicles cols rows limit left) {f : Page → Page}
    (hlimit : (f t.active).scrollbackLimit = t.active.scrollbackLimit)
    (hlength : (f t.active).rows.length = t.active.rows.length)
    (hback : (f t.active).scrollback = t.active.scrollback) :
    (t.modifyActive f).Chronicles cols rows limit left :=
  h.modifyActive hlimit hlength (by rw [hback, h.history])

/-- No row leaves. -/
theorem nothing (h : t.Chronicles cols rows limit left) :
    t.Chronicles cols rows limit (left ++ []) := by
  rw [List.append_nil]
  exact h

/-- Moving the cursor sends nothing to the history. -/
theorem moveToRow (h : t.Chronicles cols rows limit left) (row : Page → Nat) :
    (t.modifyActive fun p => p.moveToRow (row p)).Chronicles cols rows limit left :=
  h.keep rfl rfl rfl

/-- What changes the cursor's row only sends nothing to the history. -/
theorem retouched (h : t.Chronicles cols rows limit left) (ht : t.Retouched t') :
    t'.Chronicles cols rows limit left := by
  obtain ⟨edit, hrows⟩ := ht.active.rows_eq
  rw [ht.frame]
  refine h.keep ht.active.limit_eq ?_ ht.active.scrollback_eq
  rw [hrows, List.length_modify]

/-! ### Scrolling -/

/-- Rows that are moved up without being kept are lost. -/
theorem movedUp (h : t.Chronicles cols rows limit left) {first : Nat}
    (hfirst : first ≤ t.region.bottom) (n : Nat) :
    (t.modifyActive fun p =>
      (p.scrollUp first t.region.bottom t.cols false n).markAllDirty).Chronicles
        cols rows limit left := by
  obtain ⟨-, hbottom⟩ := h.top_le_bottom
  refine h.keep (Page.scrollbackLimit_scrollUp _ _ _ _ _ _) ?_ ?_
  · exact (Page.scrollUp_frame _ hfirst _ _ fun _ => hbottom).1
  · exact Page.scrollback_scrollUp_false _ _ _ _ _

/-- So are those that are moved down. -/
theorem movedDown (h : t.Chronicles cols rows limit left) {first : Nat}
    (hfirst : first ≤ t.region.bottom) (n : Nat) :
    (t.modifyActive fun p =>
      (p.scrollDown first t.region.bottom t.cols n).markAllDirty).Chronicles
        cols rows limit left := by
  obtain ⟨-, hbottom⟩ := h.top_le_bottom
  refine h.keep (Page.scrollbackLimit_scrollDown _ _ _ _ _) ?_ ?_
  · exact (Page.scrollDown_frame _ hfirst _ fun _ => hbottom).1
  · exact Page.scrollback_scrollDown _ _ _ _ _

/-- **Scrolling up** makes those rows history that leave. -/
theorem scrollUp (h : t.Chronicles cols rows limit left) (n : Nat) :
    (t.scrollUp n).Chronicles cols rows limit (left ++ t.leavingTop n) := by
  obtain ⟨htop, hbottom⟩ := h.top_le_bottom
  have hfits : t.region.fits t.active.rows.length = true := by rw [h.length_rows, h.fits]
  unfold Terminal.scrollUp leavingTop
  dsimp only
  rw [if_pos hfits]
  by_cases hzero : t.region.top = 0
  · have hheight : t.region.height = t.region.bottom + 1 := by rw [Region.height, hzero, Nat.sub_zero]
    have hlines : (t.active.rows.take (t.region.bottom + 1)).length = t.region.bottom + 1 :=
      List.length_take_of_le hbottom
    have hcount : min n (t.region.bottom + 1) ≤ t.region.bottom + 1 := Nat.min_le_right _ _
    have hhistory := Page.toList_scrollback_scrollUp t.cols
      (List.take_append_drop (t.region.bottom + 1) t.active.rows).symm hlines
      (hcount.trans (Nat.le_of_eq hlines.symm)) h.size_le
    rw [List.take_take, Nat.min_eq_left hcount, h.history, h.limit_eq, rtake_append] at hhistory
    rw [if_pos ⟨h.usingAlternate, hzero, hfits⟩, h.usingAlternate, hzero, hheight]
    refine h.modifyActive (Page.scrollbackLimit_scrollUp _ _ _ _ _ _) ?_ hhistory
    exact (Page.scrollUp_frame _ (Nat.zero_le _) _ _ fun _ => hbottom).1
  · have hlost : (!t.usingAlternate && t.region.top == 0) = false := by simp [hzero]
    rw [if_neg fun hall => hzero hall.2.1, hlost]
    exact (h.movedUp htop _).nothing

theorem scrollDown (h : t.Chronicles cols rows limit left) (n : Nat) :
    (t.scrollDown n).Chronicles cols rows limit left := by
  unfold Terminal.scrollDown
  dsimp only
  split
  · exact h.movedDown h.top_le_bottom.1 _
  · exact h

/-- Inserting lines sends nothing to the history. -/
theorem insertLines {n : Nat} (h : t.Chronicles cols rows limit left)
    (hok : t.insertLines n = .ok t') : t'.Chronicles cols rows limit left := by
  unfold Terminal.insertLines at hok
  dsimp only at hok
  split at hok
  · obtain rfl := Except.ok.inj hok
    exact h
  · split at hok
    · cases hok
    · obtain rfl := Except.ok.inj hok
      exact h.movedDown (by omega) _

theorem deleteLines {n : Nat} (h : t.Chronicles cols rows limit left)
    (hok : t.deleteLines n = .ok t') : t'.Chronicles cols rows limit left := by
  unfold Terminal.deleteLines at hok
  dsimp only at hok
  split at hok
  · obtain rfl := Except.ok.inj hok
    exact h
  · split at hok
    · cases hok
    · obtain rfl := Except.ok.inj hok
      exact h.movedUp (by omega) _

theorem reverseIndex (h : t.Chronicles cols rows limit left) :
    t.reverseIndex.Chronicles cols rows limit left := by
  unfold Terminal.reverseIndex
  split
  · exact h.scrollDown 1
  · exact h.moveToRow _

/-! ### Going down, and printing -/

/-- Going down a row sends to the history what leaves the screen. -/
theorem index (h : t.Chronicles cols rows limit left) :
    t.index.Chronicles cols rows limit (left ++ t.leavingIndex) := by
  unfold Terminal.index leavingIndex
  dsimp only
  split
  · exact h.scrollUp 1
  · rw [List.append_nil]
    split
    · exact h.moveToRow _
    · exact h

theorem lineFeed (h : t.Chronicles cols rows limit left) :
    t.lineFeed.Chronicles cols rows limit (left ++ t.leavingIndex) := by
  unfold Terminal.lineFeed
  split
  · have hmoved := (h.retouched (t.retouched_moveToCol 0)).index
    rw [leavingIndex_modifyActive rfl rfl] at hmoved
    exact hmoved
  · exact h.index

theorem nextLine (h : t.Chronicles cols rows limit left) :
    t.carriageReturn.index.Chronicles cols rows limit (left ++ t.leavingIndex) := by
  have hmoved := (h.retouched t.retouched_carriageReturn).index
  rw [carriageReturn, leavingIndex_modifyActive rfl rfl] at hmoved
  exact hmoved

/-- Printing a character sends to the history what leaves the screen when the row wraps. -/
theorem putChar {c : Char} (h : t.Chronicles cols rows limit left) (hok : t.putChar c = .ok t') :
    t'.Chronicles cols rows limit (left ++ t.leavingPrint c) := by
  have hdown := goesDown_putChar hok
  unfold leavingPrint
  generalize t.goingDown? c = down? at hdown ⊢
  cases hdown with
  | never hwithin =>
      rw [List.append_nil]
      exact h.retouched hwithin
  | once hbefore hafter => exact (h.retouched hbefore).index.retouched hafter

/-- What each step keeps, a computation that goes through keeps. -/
theorem foldlM {α : Type} {step : Terminal → α → Except Fault Terminal}
    {leaving : Terminal → α → List Row} {l : List α}
    (hstep : ∀ x ∈ l, ∀ {t t' : Terminal} {left : List Row}, t.Chronicles cols rows limit left →
      step t x = .ok t' → t'.Chronicles cols rows limit (left ++ leaving t x))
    (h : t.Chronicles cols rows limit left) (hok : l.foldlM step t = .ok t') :
    t'.Chronicles cols rows limit (left ++ leavingAll step leaving t l) := by
  induction l generalizing t left with
  | nil =>
      obtain rfl := Except.ok.inj hok
      rw [leavingAll, List.append_nil]
      exact h
  | cons x rest ih =>
      rw [List.foldlM_cons] at hok
      obtain ⟨middle, hmiddle, hrest⟩ := exists_of_bind_eq_ok hok
      rw [leavingAll, hmiddle, ← List.append_assoc]
      exact ih (fun y hy => hstep y (List.mem_cons_of_mem x hy))
        (hstep x List.mem_cons_self h hmiddle) hrest

/-- Printing a text sends to the history what each of its characters does. -/
theorem putText {text : List Char} (h : t.Chronicles cols rows limit left)
    (hok : t.putText text = .ok t') :
    t'.Chronicles cols rows limit (left ++ leavingAll Terminal.putChar leavingPrint t text) :=
  h.foldlM (fun _ _ _ _ _ hbefore hchar => hbefore.putChar hchar) (t.putText_eq text ▸ hok)

/-- Setting the region sends nothing to the history. -/
theorem setScrollRegion (h : t.Chronicles cols rows limit left) (top bottom : Nat) :
    (t.setScrollRegion top bottom).Chronicles cols rows limit left := by
  obtain ⟨-, hbottom⟩ := h.top_le_bottom
  have hlength := h.length_rows
  have hrows := h.rows_eq
  unfold Terminal.setScrollRegion
  dsimp only
  split
  · next hlt =>
    have hregion : Terminal.Chronicles
        { t with region := ⟨min (top - 1) (t.rows - 1), min (bottom - 1) (t.rows - 1)⟩ }
        cols rows limit left := by
      refine { h with fits := ?_ }
      simp only [Region.fits, Bool.and_eq_true, decide_eq_true_eq]
      omega
    exact (hregion.moveToRow _).retouched (retouched_cursorColumn _ _)
  · exact h

/-! ### Runs -/

/-- An action that never fails sends to the history the rows that leave by it. -/
theorem performSimple (h : t.Chronicles cols rows limit left) {action : Action}
    (haction : (Operation.perform action).isOutputOrRegion = true)
    (hprint : ∀ c, action ≠ .print c) :
    (t.performSimple action).Chronicles cols rows limit
      (left ++ t.leavingOperate (.perform action)) := by
  cases action with
  | backspace => exact (h.retouched (t.retouched_cursorBackward 1)).nothing
  | lineFeed => exact h.lineFeed
  | carriageReturn => exact (h.retouched t.retouched_carriageReturn).nothing
  | index => exact h.index
  | nextLine => exact h.nextLine
  | reverseIndex => exact h.reverseIndex.nothing
  | cursorForward n => exact (h.retouched (t.retouched_cursorForward n)).nothing
  | cursorBackward n => exact (h.retouched (t.retouched_cursorBackward n)).nothing
  | cursorColumn col => exact (h.retouched (t.retouched_cursorColumn col)).nothing
  | eraseInLine part => exact (h.retouched (t.retouched_eraseInLine part)).nothing
  | insertChars n => exact (h.retouched (t.retouched_insertChars n)).nothing
  | deleteChars n => exact (h.retouched (t.retouched_deleteChars n)).nothing
  | eraseChars n => exact (h.retouched (t.retouched_eraseChars n)).nothing
  | scrollUp n => exact h.scrollUp n
  | scrollDown n => exact (h.scrollDown n).nothing
  | setScrollRegion top bottom => exact (h.setScrollRegion top _).nothing
  | horizontalTab | insertLines | deleteLines => exact h.nothing
  | print c => exact absurd rfl (hprint c)
  | _ => cases haction

/-- An action sends to the history the rows that leave by it. -/
theorem perform {action : Action} {replies : List Reply} (h : t.Chronicles cols rows limit left)
    (haction : (Operation.perform action).isOutputOrRegion = true)
    (hok : t.perform action = .ok (t', replies)) :
    t'.Chronicles cols rows limit (left ++ t.leavingOperate (.perform action)) := by
  rcases perform_cases hok with ⟨c, rfl, hprint⟩ | ⟨rfl, hmove⟩ | ⟨n, rfl, hopen⟩ |
    ⟨n, rfl, hclose⟩ | hsimple
  · exact h.putChar hprint
  · exact (h.retouched (retouched_of_horizontalTab hmove)).nothing
  · exact (h.insertLines hopen).nothing
  · exact (h.deleteLines hclose).nothing
  · by_cases hprint : ∃ c, action = .print c
    · obtain ⟨c, rfl⟩ := hprint
      obtain ⟨printed, hprinted, hend⟩ := exists_of_bind_eq_ok (t.perform_print c ▸ hok)
      obtain rfl := congrArg Prod.fst (Except.ok.inj hend)
      exact h.putChar hprinted
    · rw [hsimple]
      exact h.performSimple haction fun c hc => hprint ⟨c, hc⟩

/-- An operation sends to the history the rows that leave by it. -/
theorem operate {op : Operation} (h : t.Chronicles cols rows limit left)
    (hop : op.isOutputOrRegion = true) (hok : t.operate op = .ok t') :
    t'.Chronicles cols rows limit (left ++ t.leavingOperate op) := by
  cases op with
  | perform action =>
      obtain ⟨⟨done, replies⟩, hperform, hend⟩ := exists_of_bind_eq_ok hok
      obtain rfl := Except.ok.inj hend
      exact h.perform hop hperform
  | putText text => exact h.putText hok
  | _ => cases hop

/-- **Operations one after the other** send to the history the rows that leave by them, in order. -/
theorem run {ops : List Operation} (h : t.Chronicles cols rows limit left)
    (hops : ∀ op ∈ ops, op.isOutputOrRegion = true) (hok : t.run ops = .ok t') :
    t'.Chronicles cols rows limit (left ++ t.departures ops) :=
  h.foldlM (fun op hop _ _ _ hbefore hdone => hbefore.operate (hops op hop) hdone) hok

/-! ### What scrolling up does to history and screen -/

/-- The page with the history is the one that is shown. -/
theorem primary_eq (h : t.Chronicles cols rows limit left) : t.primary = t.active := by
  rw [active, if_neg (by rw [h.usingAlternate]; exact Bool.false_ne_true)]

/-- In a region that begins at the top, those rows leave that come first. -/
theorem leavingTop_eq (h : t.Chronicles cols rows limit left) (htop : t.region.top = 0) (n : Nat) :
    t.leavingTop n = t.primary.rows.take (min n (t.region.bottom + 1)) := by
  rw [h.primary_eq]
  exact if_pos ⟨h.usingAlternate, htop, by rw [h.length_rows, h.fits]⟩

/-- The others of the region are raised. -/
theorem rows_scrollUp (h : t.Chronicles cols rows limit left) (htop : t.region.top = 0) (n : Nat) :
    (t.scrollUp n).primary.rows =
      Lines.raised cols (min n (t.region.bottom + 1))
          (t.primary.rows.take (t.region.bottom + 1)) ++
        t.primary.rows.drop (t.region.bottom + 1) := by
  obtain ⟨-, hbottom⟩ := h.top_le_bottom
  have hfits : t.region.fits t.active.rows.length = true := by rw [h.length_rows, h.fits]
  have hheight : t.region.height = t.region.bottom + 1 := by rw [Region.height, htop, Nat.sub_zero]
  have hrows : t.active.rows = [] ++ t.active.rows.take (t.region.bottom + 1) ++
      t.active.rows.drop (t.region.bottom + 1) := (List.take_append_drop _ _).symm
  have hraised := relined_scrollUp hfits hrows htop.symm
    (by rw [hheight]; exact List.length_take_of_le hbottom) n
  rw [h.primary_eq, (h.scrollUp n).primary_eq, hraised.rows_eq, hheight, h.cols_eq,
    List.nil_append]

/-- If the whole screen scrolls, history and screen go on as one. -/
theorem history_scrollUp (h : t.Chronicles cols rows limit left)
    (hregion : t.region = fullRegion rows) (n : Nat) :
    (t.scrollUp n).primary.scrollback.toList ++ (t.scrollUp n).primary.rows =
      (t.primary.scrollback.toList ++ t.primary.rows ++
        List.replicate (min n rows) (Row.new cols)).drop
          (t.primary.scrollback.size + min n rows - limit) := by
  have hfits : t.region.fits t.active.rows.length = true := by rw [h.length_rows, h.fits]
  obtain ⟨-, hbottom⟩ := h.top_le_bottom
  rw [hregion, fullRegion, h.length_rows] at hbottom
  have hlast : t.active.rows.length = rows - 1 + 1 := by
    rw [h.length_rows]
    omega
  have hheight : (fullRegion rows).height = rows := by
    rw [fullRegion, Region.height]
    dsimp only
    omega
  have hfull := Page.history_scrollUp_full (n := min n rows) cols hlast
    (by rw [h.length_rows]; exact Nat.min_le_right _ _) h.size_le
  rw [h.primary_eq, (h.scrollUp n).primary_eq, ← h.limit_eq, ← hfull]
  unfold Terminal.scrollUp
  dsimp only
  rw [if_pos hfits, active_modifyActive, h.usingAlternate, h.cols_eq, hregion, hheight]
  rfl

end Chronicles

/-- **The history is what has left.**  On a fresh terminal of at least one row, a run of output,
with any choices of the region in between, leaves in the history of the primary page the last rows
that have left at the top, as many as the limit allows, in order and as they were when they left.
From there on, if the region begins at the top, scrolling up by `n` takes `n` rows off the top, or
all of the region if these are fewer; and if the whole screen scrolls, history and screen together
lose nothing but the oldest rows for which there is no room.  If the size is addressable, the run
goes through. -/
theorem history_run {cols rows limit : Nat} (hrows : 0 < rows) {ops : List Operation}
    (hops : ∀ op ∈ ops, op.isOutputOrRegion = true) :
    (Addressable cols rows → ∃ t, (new cols rows limit).run ops = .ok t) ∧
      ∀ t, (new cols rows limit).run ops = .ok t →
        t.primary.scrollback.toList = ((new cols rows limit).departures ops).rtake limit ∧
        (∀ n, t.region.top = 0 →
          let k := min n (t.region.bottom + 1)
          (new cols rows limit).departures (ops ++ [.perform (.scrollUp n)]) =
              (new cols rows limit).departures ops ++ t.primary.rows.take k ∧
            (t.primary.rows.take k).length = k ∧
            (t.scrollUp n).primary.rows =
              Lines.raised cols k (t.primary.rows.take (t.region.bottom + 1)) ++
                t.primary.rows.drop (t.region.bottom + 1)) ∧
        ∀ n, t.region = fullRegion rows →
          (t.scrollUp n).primary.scrollback.toList ++ (t.scrollUp n).primary.rows =
            (t.primary.scrollback.toList ++ t.primary.rows ++
              List.replicate (min n rows) (Row.new cols)).drop
                (t.primary.scrollback.size + min n rows - limit) := by
  constructor
  · intro hsize
    obtain ⟨t, hrun, -⟩ := (WellFormed.new hsize limit).exists_run fun op hop =>
      Operation.admissible_of_isOutputOrRegion (hops op hop)
    exact ⟨t, hrun⟩
  · intro t hrun
    have hchronicles := (chronicles_new limit hrows).run hops hrun
    rw [List.nil_append] at hchronicles
    obtain ⟨-, hbottom⟩ := hchronicles.top_le_bottom
    refine ⟨?_, fun n htop => ⟨?_, ?_, hchronicles.rows_scrollUp htop n⟩,
      fun n hregion => hchronicles.history_scrollUp hregion n⟩
    · rw [hchronicles.primary_eq, hchronicles.history]
    · rw [departures_scrollUp hrun, hchronicles.leavingTop_eq htop]
    · rw [hchronicles.primary_eq]
      exact List.length_take_of_le (by omega)

/-- Three rows are filled on a screen of two, and a line feed is made. -/
def threeLines : List Operation := [.putText ['a', 'b', 'c', 'd', 'e'], .perform .lineFeed]

/-- Two rows have left, and there is room for one. -/
theorem history_run_threeLines :
    0 < 2 ∧ (∀ op ∈ threeLines, op.isOutputOrRegion = true) ∧
      ∃ t, (new 2 2 1).run threeLines = .ok t ∧
        t.primary.scrollback.toList = [⟨[⟨'c', .empty⟩, ⟨'d', .empty⟩], true⟩] := by
  have hops : ∀ op ∈ threeLines, op.isOutputOrRegion = true := by decide
  obtain ⟨hruns, hhistory⟩ := @history_run 2 2 1 (by decide) threeLines hops
  obtain ⟨t, hrun⟩ := hruns (by decide)
  have hleft : (new 2 2 1).departures threeLines =
      [⟨[⟨'a', .empty⟩, ⟨'b', .empty⟩], true⟩, ⟨[⟨'c', .empty⟩, ⟨'d', .empty⟩], true⟩] := by
    decide +kernel
  refine ⟨by decide, hops, t, hrun, ?_⟩
  rw [(hhistory t hrun).1, hleft]
  rfl

end Terminal

end VideoTerminal
