import VideoTerminal.Proofs.Terminal.Recorded
import VideoTerminal.Proofs.Terminal.Report

/-!
# Counting columns and rows

On a screen whose size can be counted, all places can: no cursor stands further than one column
behind the last, nor below the last row, and no more rows scroll than there are
(`Reachable.inColumns`, `Reachable.seated`).  Nor is it seen further to the right, whatever the line
holds (`visual_columns_bounded`).  What can not always be counted is the sum that says where a cursor
is to go or how it is reported.  There are three such sums, the column behind a
character to be printed, the next tab stop and the column of a report, and `Overshoots` says when
one of them exceeds the greatest coordinate.  `Reachable.overflows_iff` is the main statement:
nothing else ever does, and none of them on a screen of fewer than 65528 columns.  Printing a text
overflows where one of its characters overshoots (`overflows_putText_iff`).
-/

namespace VideoTerminal.Terminal

/-! ## Columns of a reachable terminal -/

/-- The cursors stand no further than one column behind the last. -/
structure InColumns (t : Terminal) : Prop where
  shown : t.cursor.col ≤ t.cols
  hidden : t.hidden.cursor.col ≤ t.cols

namespace InColumns

variable {t t' : Terminal}

/-- At first the cursors stand in the first column. -/
theorem new (cols rows limit : Nat) : (Terminal.new cols rows limit).InColumns :=
  ⟨Nat.zero_le _, Nat.zero_le _⟩

/-- Work on the page that is shown leaves its cursor in a column or right behind the last. -/
theorem work (h : t.InColumns) (hwork : t.Records none t') : t'.InColumns where
  shown := by
    rw [hwork.onShown.cols_eq]
    exact hwork.col_le h.shown
  hidden := by
    rw [hwork.onShown.hidden_eq, hwork.onShown.cols_eq]
    exact h.hidden

/-- A page whose cursor stands in a column may be put in the place of another. -/
theorem modifyActive (h : t.InColumns) {f : Page → Page} (hf : (f t.active).cursor.col ≤ t.cols) :
    (t.modifyActive f).InColumns where
  shown := by
    rw [cursor_modifyActive, cols_modifyActive]
    exact hf
  hidden := by
    rw [hidden_modifyActive, cols_modifyActive]
    exact h.hidden

/-- The cursor of the other page takes its place. -/
theorem useAlternateBuffer (h : t.InColumns) (on : Bool) : (t.useAlternateBuffer on).InColumns := by
  have hshown := h.shown
  have hhidden := h.hidden
  unfold Terminal.cursor Terminal.active at hshown
  unfold Terminal.hidden at hhidden
  unfold Terminal.useAlternateBuffer
  split
  · exact h
  · next hne =>
    cases on with
    | false =>
        have hon : t.usingAlternate = true := by simpa using hne
        rw [if_pos hon] at hshown hhidden
        exact ⟨hhidden, hshown⟩
    | true =>
        have hoff : t.usingAlternate = false := by simpa using hne
        rw [hoff] at hshown
        exact ⟨Nat.zero_le _, hshown⟩

/-- No effect of a mode takes a cursor out of the columns. -/
theorem applyEffect (h : t.InColumns) (e : ModeEffect) : (t.applyEffect e).InColumns := by
  cases e with
  | useAlternateBuffer on => exact h.useAlternateBuffer on
  | saveCursor => exact h.work t.records_saveCursor
  | restoreCursor => exact h.work t.records_restoreCursor
  | setCursorVisible on =>
      change (t.modifyCursor fun c => { c with visible := on }).InColumns
      exact h.modifyActive h.shown
  | setRenderSuspended on => exact ⟨h.shown, h.hidden⟩
  | requestFlush =>
      have hflush : InColumns { t with flushRequested := true } := ⟨h.shown, h.hidden⟩
      exact hflush.modifyActive h.shown
  | clearScreen => exact h.work t.records_clearScreen
  | resetScrollRegion => exact ⟨h.shown, h.hidden⟩

theorem setMode (h : t.InColumns) (m : Mode) (on : Bool) : (t.setMode m on).InColumns := by
  have hmodes : InColumns { t with modes := t.modes.set m on } := ⟨h.shown, h.hidden⟩
  exact List.foldlRecOn (m.effects on) _ hmodes fun _ ht e _ => ht.applyEffect e

/-- In another size the cursors are put back into the columns. -/
theorem resize (t : Terminal) (cols rows : Nat) : (t.resize cols rows).InColumns := by
  have hclamp : ∀ p : Page, (p.resize cols rows).cursor.col ≤ cols :=
    fun p => Nat.le_trans (Nat.min_le_right _ _) (Nat.sub_le cols 1)
  refine ⟨?_, ?_⟩
  · unfold Terminal.cursor Terminal.active
    split <;> exact hclamp _
  · unfold Terminal.hidden
    split <;> exact hclamp _

theorem takeRenderRequest (h : t.InColumns) : t.takeRenderRequest.2.InColumns := by
  obtain ⟨changed, hactive⟩ := t.exists_active_takeRenderRequest
  obtain ⟨changed', hhidden⟩ := t.exists_hidden_takeRenderRequest
  have hcols : t.takeRenderRequest.2.cols = t.cols := by
    unfold Terminal.takeRenderRequest
    split <;> rfl
  refine ⟨?_, ?_⟩
  · rw [cursor, hactive, hcols]
    exact h.shown
  · rw [hhidden, hcols]
    exact h.hidden

end InColumns

/-- That the cursors stand in columns lasts, whatever is done. -/
theorem lasting_inColumns : Lasting InColumns where
  work h hwork := h.work hwork
  setMode h m on := h.setMode m on
  reset _ := .new _ _ _
  resize _ cols rows := .resize _ cols rows

/-- **On every reachable terminal** the cursors stand no further than one column behind the last. -/
theorem Reachable.inColumns {t : Terminal} (h : t.Reachable) : t.InColumns :=
  lasting_inColumns.of_reachable .new (fun _ ht => ht.modifyActive ht.shown)
    (fun _ => InColumns.takeRenderRequest) h

/-- The cursor is seen no further to the right than behind the last column. -/
theorem InColumns.visualCursorCol_le {t : Terminal} (h : t.InColumns) :
    t.visualCursorCol ≤ t.cols := by
  cases hrow : t.active.rows[t.cursor.row]? with
  | none =>
      have hcol : t.visualCursorCol = t.cursor.col := by
        unfold visualCursorCol
        rw [hrow]
      rw [hcol]
      exact h.shown
  | some row =>
      rw [visualCursorCol_of_row hrow]
      exact Line.visualColumn_le_width _ _ _

/-- A coordinate fits into sixteen bits. -/
theorem toNat_ofNat_of_le {n : Nat} (h : n ≤ maxCoordinate) : (UInt16.ofNat n).toNat = n :=
  UInt16.toNat_ofNat_of_lt' (Nat.lt_succ_of_le h)

/-- **No column is counted beyond the width of its line**, whatever characters, marks and stray tails
the line holds and however far right the slot is that is asked for.  So the column of the cursor fits
into sixteen bits wherever the width of the screen does, and on a reachable terminal the cursor is
seen on the screen or right behind it. -/
theorem visual_columns_bounded :
    (∀ (line : Line) (col width : Nat), line.visualColumn col width ≤ width) ∧
    (∀ (t : Terminal) (row : Row), t.cols ≤ maxCoordinate →
      t.active.rows[t.cursor.row]? = some row →
        (UInt16.ofNat (row.cells.line.visualColumn t.cursor.col t.cols)).toNat =
          t.visualCursorCol) ∧
    ∀ t : Terminal, t.Reachable → t.visualCursorCol ≤ t.cols := by
  refine ⟨Line.visualColumn_le_width, fun t row hcols hrow => ?_, fun t h =>
    h.inColumns.visualCursorCol_le⟩
  have hwidth := row.cells.line.visualColumn_le_width t.cursor.col t.cols
  rw [visualCursorCol_of_row hrow]
  exact toNat_ofNat_of_le (hwidth.trans hcols)

/-- Two letters, each with a stray tail behind it, take all four columns of a row. -/
theorem visual_columns_bounded_stray :
    ∃ (t : Terminal) (row : Row), t.Reachable ∧ t.cols ≤ maxCoordinate ∧
      t.active.rows[t.cursor.row]? = some row ∧
      (UInt16.ofNat (row.cells.line.visualColumn t.cursor.col t.cols)).toNat =
        t.visualCursorCol ∧
      t.visualCursorCol ≤ t.cols ∧ t.visualCursorCol = t.cols ∧
      row.cells.line.wideBefore t.cols t.cols = 2 := by
  obtain ⟨t, hrun, ht⟩ := (WellFormed.new (by decide : Addressable 4 1) 0).exists_run
    (by decide : ∀ op ∈ [.putText ['a', wideTail, 'b', wideTail]], Operation.Admissible op)
  have hplace : ((Terminal.new 4 1 0).run [.putText ['a', wideTail, 'b', wideTail]]).toOption.map
      (fun t => decide (t.cols ≤ maxCoordinate ∧ t.visualCursorCol = t.cols ∧
        t.active.rows[t.cursor.row]?.map (fun row => row.cells.line.wideBefore t.cols t.cols) =
          some 2)) = some true := by decide +kernel
  rw [hrun] at hplace
  obtain ⟨hcols, hfull, hwide⟩ := of_decide_eq_true (Option.some.inj hplace)
  obtain ⟨row, hrow, hwide⟩ := Option.map_eq_some_iff.mp hwide
  have hreachable : t.Reachable := ⟨4, 1, 0, _, hrun⟩
  exact ⟨t, row, hreachable, hcols, hrow, visual_columns_bounded.2.1 t row hcols hrow,
    visual_columns_bounded.2.2 t hreachable, hfull, hwide⟩

/-- A region that lies on the screen is no higher than the screen. -/
theorem Seated.height_le {t : Terminal} (h : t.Seated) (hrows : 0 < t.rows) :
    t.region.height ≤ t.rows := by
  have hbottom := h.bottom
  unfold Region.height
  omega

/-! ## Computations that count too far -/

/-- A computation ends in a sum beyond the greatest coordinate. -/
def Overflows {α : Type} (x : Except Fault α) : Prop := ∃ n, x = .error (.tooFar n)

section Overflows

variable {α β : Type}

/-- What comes to a result has not overflowed. -/
theorem not_overflows_ok (a : α) : ¬ Overflows (.ok a : Except Fault α) := by
  rintro ⟨n, h⟩
  cases h

/-- A missing row is no overflow. -/
theorem not_overflows_noRow (row : Nat) : ¬ Overflows (.error (.noRow row) : Except Fault α) := by
  rintro ⟨n, h⟩
  cases h

theorem not_overflows_noCell (row col : Nat) :
    ¬ Overflows (.error (.noCell row col) : Except Fault α) := by
  rintro ⟨n, h⟩
  cases h

/-- A sum overflows if it exceeds the greatest coordinate. -/
theorem overflows_coordinate_iff {n : Nat} : Overflows (coordinate n) ↔ maxCoordinate < n := by
  unfold coordinate
  split
  · next hle => exact iff_of_false (not_overflows_ok n) (Nat.not_lt.mpr hle)
  · next hlt => exact iff_of_true ⟨n, rfl⟩ (Nat.not_le.mp hlt)

/-- Two computations overflow if the first does, or the second behind it. -/
theorem overflows_bind_iff {x : Except Fault α} {f : α → Except Fault β} :
    Overflows (x >>= f) ↔ Overflows x ∨ ∃ a, x = .ok a ∧ Overflows (f a) := by
  cases x with
  | error fault =>
      constructor
      · rintro ⟨n, h⟩
        exact .inl ⟨n, congrArg Except.error (Except.error.inj h)⟩
      · rintro (⟨n, h⟩ | ⟨a, h, -⟩)
        · exact ⟨n, congrArg Except.error (Except.error.inj h)⟩
        · cases h
  | ok a =>
      constructor
      · intro h
        exact .inr ⟨a, rfl, h⟩
      · rintro (h | ⟨b, hb, h⟩)
        · exact absurd h (not_overflows_ok a)
        · obtain rfl := Except.ok.inj hb
          exact h

/-- What comes after the sum can not overflow. -/
theorem overflows_bind_iff_left {x : Except Fault α} {f : α → Except Fault β}
    (hf : ∀ a, x = .ok a → ¬ Overflows (f a)) : Overflows (x >>= f) ↔ Overflows x := by
  rw [overflows_bind_iff, or_iff_left]
  rintro ⟨a, hx, h⟩
  exact hf a hx h

/-- What is made of a result does not overflow. -/
theorem overflows_bind_pure_iff {x : Except Fault α} {f : α → β} :
    Overflows (x >>= fun a => pure (f a)) ↔ Overflows x :=
  overflows_bind_iff_left fun a _ => not_overflows_ok (f a)

/-- A run overflows where one of its steps does, after all steps before it. -/
theorem overflows_foldlM_iff {f : β → α → Except Fault β} {steps : List α} {b : β} :
    Overflows (steps.foldlM f b) ↔
      ∃ front a rest b', steps = front ++ a :: rest ∧ front.foldlM f b = .ok b' ∧
        Overflows (f b' a) := by
  induction steps generalizing b with
  | nil =>
      refine iff_of_false (not_overflows_ok b) ?_
      rintro ⟨front, a, rest, b', hsplit, -⟩
      exact absurd hsplit.symm (by simp)
  | cons a rest ih =>
      rw [List.foldlM_cons, overflows_bind_iff]
      constructor
      · rintro (hfirst | ⟨b₁, hstep, hrest⟩)
        · exact ⟨[], a, rest, b, rfl, rfl, hfirst⟩
        · obtain ⟨front, a', rest', b', rfl, hfront, hover⟩ := ih.mp hrest
          refine ⟨a :: front, a', rest', b', rfl, ?_, hover⟩
          rw [List.foldlM_cons, hstep]
          exact hfront
      · rintro ⟨front, a', rest', b', hsplit, hfront, hover⟩
        cases front with
        | nil =>
            obtain ⟨rfl, rfl⟩ := List.cons.inj hsplit
            obtain rfl := Except.ok.inj hfront
            exact .inl hover
        | cons d front =>
            obtain ⟨rfl, rfl⟩ := List.cons.inj hsplit
            rw [List.foldlM_cons] at hfront
            cases hstep : f b a with
            | error fault =>
                rw [hstep] at hfront
                cases hfront
            | ok b₁ =>
                rw [hstep] at hfront
                exact .inr ⟨b₁, rfl, ih.mpr ⟨front, a', rest', b', rfl, hfront, hover⟩⟩

end Overflows

/-! ## Parts of printing -/

section Printing

variable (t : Terminal)

/-- Releasing what is covered counts no columns. -/
theorem not_overflows_releaseCovered (row col width : Nat) :
    ¬ Overflows (t.releaseCovered row col width) := by
  unfold releaseCovered
  split
  · exact not_overflows_ok _
  · exact not_overflows_noRow _

theorem not_overflows_attachHere (c : Char) : ¬ Overflows (t.attachHere c) := by
  unfold attachHere
  dsimp only
  split
  · exact not_overflows_noRow _
  · split
    · exact not_overflows_ok _
    · exact not_overflows_noCell _ _

theorem not_overflows_writeHere (c : Char) (width : Nat) : ¬ Overflows (t.writeHere c width) := by
  unfold writeHere
  dsimp only
  split
  · exact not_overflows_noRow _
  · split
    · exact not_overflows_noCell _ _
    · split
      · exact not_overflows_noCell _ _
      · exact not_overflows_ok _

/-- Going to the next row counts no columns. -/
theorem not_overflows_wrapRow : ¬ Overflows t.wrapRow := by
  unfold wrapRow
  split
  · exact not_overflows_ok _
  · exact not_overflows_noRow _

theorem not_overflows_wrapLastCluster : ¬ Overflows t.wrapLastCluster := by
  unfold wrapLastCluster
  dsimp only
  split
  · exact not_overflows_noRow _
  · split
    · exact not_overflows_ok _
    · rw [overflows_bind_pure_iff]
      exact not_overflows_releaseCovered _ _ _ _

/-- Attaching counts no columns, wherever it takes place. -/
theorem not_overflows_attach (c : Char) : ¬ Overflows (t.attach c) := by
  unfold attach
  split
  · exact not_overflows_noRow _
  · split
    · split
      · rw [overflows_bind_iff_left]
        · exact t.not_overflows_wrapLastCluster
        · intro moved _
          cases moved with
          | none => exact not_overflows_ok _
          | some wrapped => exact wrapped.not_overflows_attachHere c
      · exact not_overflows_ok _
    · exact t.not_overflows_attachHere c

/-- **Making room** overflows if the column behind the character exceeds the greatest. -/
theorem overflows_makeRoom_iff {width : Nat} :
    Overflows (t.makeRoom width) ↔ maxCoordinate < t.cursor.col + width := by
  unfold makeRoom
  rw [overflows_bind_iff_left, overflows_coordinate_iff]
  intro stop _
  split
  · split
    · exact t.not_overflows_wrapRow
    · exact not_overflows_ok _
  · exact not_overflows_ok _

end Printing

/-! ## Actions -/

/-- A sum of the action exceeds the greatest coordinate. -/
def Overshoots (t : Terminal) : Action → Prop
  | .print c => ∃ width, Text.columns? c = some width ∧
      extendsPrevious t.previousScalar? c = false ∧ width ≤ t.cols ∧
        maxCoordinate < t.cursor.col + width
  | .horizontalTab => maxCoordinate < t.cursor.col + 8
  | .reportCursor => t.visualCursorCol = maxCoordinate
  | _ => False

section Actions

variable (t : Terminal)

/-- The character's own width counts. -/
theorem overshoots_print_iff {c : Char} {width : Nat} (hwidth : Text.columns? c = some width) :
    t.Overshoots (.print c) ↔ extendsPrevious t.previousScalar? c = false ∧ width ≤ t.cols ∧
      maxCoordinate < t.cursor.col + width := by
  constructor
  · rintro ⟨width', hwidth', hlead⟩
    obtain rfl := Option.some.inj (hwidth'.symm.trans hwidth)
    exact hlead
  · exact fun hlead => ⟨width, hwidth, hlead⟩

/-- **Printing a character** overflows exactly if it overshoots. -/
theorem overflows_putChar_iff (c : Char) : Overflows (t.putChar c) ↔ t.Overshoots (.print c) := by
  cases hwidth : Text.columns? c with
  | none =>
      refine iff_of_false ?_ ?_
      · rw [putChar_eq, hwidth]
        exact not_overflows_ok _
      · rintro ⟨width, hsome, -⟩
        rw [hwidth] at hsome
        cases hsome
  | some width =>
      rw [t.overshoots_print_iff hwidth]
      cases hext : extendsPrevious t.previousScalar? c with
      | true =>
          rw [putChar_of_attached hwidth hext]
          exact iff_of_false (t.not_overflows_attach c) (by simp)
      | false =>
          by_cases hfit : width ≤ t.cols
          · rw [putChar_of_lead hwidth hext hfit, overflows_bind_iff_left, overflows_makeRoom_iff]
            · simp [hfit]
            · intro roomy _
              dsimp only
              rw [overflows_bind_iff_left fun _ _ => not_overflows_writeHere _ _ _]
              exact not_overflows_releaseCovered _ _ _ _
          · rw [putChar_of_lt hwidth hext (Nat.not_le.mp hfit)]
            exact iff_of_false (not_overflows_ok t) (by simp [hfit])

/-- A character of the text overshoots where it is printed, behind all that stand before it. -/
def OvershootsIn (text : List Char) : Prop :=
  ∃ front c rest t', text = front ++ c :: rest ∧ t.putText front = .ok t' ∧
    t'.Overshoots (.print c)

/-- **Printing a text** overflows exactly if one of its characters overshoots. -/
theorem overflows_putText_iff (text : List Char) :
    Overflows (t.putText text) ↔ t.OvershootsIn text := by
  unfold OvershootsIn
  rw [putText_eq, overflows_foldlM_iff]
  simp only [putText_eq, overflows_putChar_iff]

/-- **A tab** overflows exactly if the stop exceeds the greatest coordinate. -/
theorem overflows_horizontalTab_iff :
    Overflows t.horizontalTab ↔ t.Overshoots .horizontalTab := by
  unfold horizontalTab
  rw [overflows_bind_pure_iff, overflows_coordinate_iff]
  unfold Overshoots maxCoordinate
  omega

/-- **A report** overflows exactly if the cursor is seen behind the greatest column. -/
theorem overflows_cursorReport_iff (hcol : t.visualCursorCol ≤ maxCoordinate)
    (hrow : t.cursor.row < maxCoordinate) :
    Overflows t.cursorReport ↔ t.Overshoots .reportCursor := by
  have hcount : ∀ top, coordinate (t.cursor.row - top + 1) = .ok (t.cursor.row - top + 1) :=
    fun top => coordinate_eq_ok_iff.mpr ⟨by omega, rfl⟩
  have hreport : t.cursorReport = coordinate (t.visualCursorCol + 1) >>= fun col =>
      pure (.cursorPosition (t.cursor.row - (if t.has .originMode then t.region.top else 0) + 1)
        col) := by
    unfold cursorReport
    dsimp only
    rw [hcount]
    rfl
  rw [hreport, overflows_bind_pure_iff, overflows_coordinate_iff]
  unfold Overshoots
  omega

/-- Inserting lines counts no columns. -/
theorem not_overflows_insertLines (n : Nat) : ¬ Overflows (t.insertLines n) := by
  unfold insertLines
  dsimp only
  split
  · exact not_overflows_ok _
  · split
    · exact not_overflows_noRow _
    · exact not_overflows_ok _

theorem not_overflows_deleteLines (n : Nat) : ¬ Overflows (t.deleteLines n) := by
  unfold deleteLines
  dsimp only
  split
  · exact not_overflows_ok _
  · split
    · exact not_overflows_noRow _
    · exact not_overflows_ok _

/-- An action overflows exactly if it overshoots. -/
theorem overflows_perform_iff (hcol : t.visualCursorCol ≤ maxCoordinate)
    (hrow : t.cursor.row < maxCoordinate) (action : Action) :
    Overflows (t.perform action) ↔ t.Overshoots action := by
  cases action with
  | print c =>
      rw [perform_print, overflows_bind_pure_iff,
        overflows_putChar_iff]
  | horizontalTab =>
      rw [perform_horizontalTab, overflows_bind_pure_iff,
        overflows_horizontalTab_iff]
  | reportCursor =>
      rw [perform_reportCursor, overflows_bind_pure_iff,
        t.overflows_cursorReport_iff hcol hrow]
  | insertLines n =>
      rw [perform_insertLines, overflows_bind_pure_iff]
      exact iff_of_false (t.not_overflows_insertLines n) id
  | deleteLines n =>
      rw [perform_deleteLines, overflows_bind_pure_iff]
      exact iff_of_false (t.not_overflows_deleteLines n) id
  | _ => exact iff_of_false (not_overflows_ok _) id

end Actions

/-- Only a screen of at least 65528 columns can be overshot. -/
theorem InColumns.lt_of_overshoots {t : Terminal} (h : t.InColumns) {action : Action}
    (hover : t.Overshoots action) : maxCoordinate < t.cols + 8 := by
  have hcol := h.shown
  have hvisual := h.visualCursorCol_le
  cases action with
  | print c =>
      obtain ⟨width, hwidth, -, -, hsum⟩ := hover
      have htwo := Text.columns?_le_two hwidth
      omega
  | horizontalTab =>
      change maxCoordinate < t.cursor.col + 8 at hover
      omega
  | reportCursor =>
      change t.visualCursorCol = maxCoordinate at hover
      omega
  | _ => exact hover.elim

/-- **Where counting goes too far.**  On a reachable terminal whose size can be counted, so can the
places of the cursor and the height of the region that scrolls.  An action has a sum beyond the
greatest coordinate exactly if it overshoots, and that never happens on screens of fewer than 65528
columns. -/
theorem Reachable.overflows_iff {t : Terminal} (h : t.Reachable) (hcols : t.cols ≤ maxCoordinate)
    (hpos : 0 < t.rows) (hrows : t.rows ≤ maxCoordinate) :
    (t.cursor.col ≤ t.cols ∧ t.visualCursorCol ≤ t.cols ∧ t.cursor.row < t.rows ∧
        t.region.height ≤ t.rows) ∧
      ∀ action, (Overflows (t.perform action) ↔ t.Overshoots action) ∧
        (t.Overshoots action → maxCoordinate < t.cols + 8) := by
  have hin := h.inColumns
  have hvisual := hin.visualCursorCol_le
  have hrow : t.cursor.row < t.rows := by
    have hshown := h.seated.shown
    omega
  refine ⟨⟨hin.shown, hvisual, hrow, h.seated.height_le hpos⟩, fun action => ⟨?_, ?_⟩⟩
  · exact t.overflows_perform_iff (Nat.le_trans hvisual hcols) (Nat.lt_of_lt_of_le hrow hrows)
      action
  · exact hin.lt_of_overshoots

/-- The last column of the widest screen. -/
def atLastColumn : Terminal := (Terminal.new maxCoordinate 1 0).cursorColumn maxCoordinate

section AtLastColumn

/-- The last column of the widest screen is reached. -/
theorem reachable_atLastColumn : atLastColumn.Reachable :=
  ⟨maxCoordinate, 1, 0, [.perform (.cursorColumn maxCoordinate)], rfl⟩

theorem cols_atLastColumn : atLastColumn.cols = maxCoordinate := cols_modifyActive _ _

theorem rows_atLastColumn : atLastColumn.rows = 1 := rows_modifyActive _ _

/-- The cursor stands in the last column. -/
theorem col_atLastColumn : atLastColumn.cursor.col = 65534 := by
  unfold atLastColumn cursorColumn
  rw [cursor_modifyActive]
  rfl

/-- From there the next tab stop exceeds the greatest coordinate. -/
theorem overshoots_atLastColumn : atLastColumn.Overshoots .horizontalTab := by
  unfold Overshoots
  rw [col_atLastColumn]
  decide

/-- In the last column a letter can still be printed, but there is no next tab stop. -/
theorem overflows_iff_atLastColumn :
    atLastColumn.Reachable ∧ atLastColumn.cols ≤ maxCoordinate ∧ 0 < atLastColumn.rows ∧
      atLastColumn.rows ≤ maxCoordinate ∧ atLastColumn.cursor.col ≤ atLastColumn.cols ∧
      Overflows (atLastColumn.perform .horizontalTab) ∧
      ¬ Overflows (atLastColumn.perform (.print 'A')) := by
  have hcols : atLastColumn.cols ≤ maxCoordinate := Nat.le_of_eq cols_atLastColumn
  have hpos : 0 < atLastColumn.rows := rows_atLastColumn ▸ Nat.one_pos
  have hrows : atLastColumn.rows ≤ maxCoordinate := rows_atLastColumn ▸ by decide
  obtain ⟨⟨hcol, -⟩, hactions⟩ := reachable_atLastColumn.overflows_iff hcols hpos hrows
  refine ⟨reachable_atLastColumn, hcols, hpos, hrows, hcol,
    (hactions .horizontalTab).1.mpr overshoots_atLastColumn, ?_⟩
  rw [(hactions (.print 'A')).1, overshoots_print_iff _ (by decide : Text.columns? 'A' = some 1),
    col_atLastColumn]
  rintro ⟨-, -, hsum⟩
  exact absurd hsum (by decide)

/-- Not every tab stop can be counted. -/
theorem not_counts :
    ¬ ∀ t : Terminal, t.Reachable → t.cols ≤ maxCoordinate → 0 < t.rows →
      t.rows ≤ maxCoordinate → ∀ action, ¬ Overflows (t.perform action) := by
  intro hall
  refine hall atLastColumn reachable_atLastColumn (Nat.le_of_eq cols_atLastColumn)
    (rows_atLastColumn ▸ Nat.one_pos) (rows_atLastColumn ▸ by decide) .horizontalTab ?_
  rw [perform_horizontalTab, overflows_bind_pure_iff, overflows_horizontalTab_iff]
  exact overshoots_atLastColumn

end AtLastColumn

end VideoTerminal.Terminal
