import Mathlib.Logic.Relation
import VideoTerminal.Proofs.Control.Interpreter
import VideoTerminal.Proofs.Terminal.Slots

/-!
# Printing step by step

However long the text, printing only ever does two things: it changes the cursor's row and the
cursor's column (`Terminal.Retouched`), or it goes down one row as `Terminal.index` does.
`printed_of_putText` takes printing apart into such steps, so that what each of them keeps, printing
keeps.

A character goes down a row at most once: if it does not fit before the right margin, and if it
belongs to a character that has to leave the full row with it.  `Terminal.goingDown?` tells from the
terminal and the character whether that happens, and what the terminal is like at that moment
(`Terminal.goesDown_putChar`).

Many motions and edits are a single step of the first kind.
-/

namespace VideoTerminal

/-- `q` is `p` but for the row of the cursor and the column of the cursor. -/
structure Page.Retouched (p q : Page) : Prop where
  rows_eq : ∃ edit, q.rows = p.rows.modify p.cursor.row edit
  cursor_eq : ∃ col, q.cursor = { p.cursor with col := col }
  scrollback_eq : q.scrollback = p.scrollback
  limit_eq : q.scrollbackLimit = p.scrollbackLimit

namespace Page.Retouched

/-- The row may be left as it is. -/
theorem of_rows_eq {p q : Page} {col : Nat} (hrows : q.rows = p.rows)
    (hcursor : q.cursor = { p.cursor with col := col }) (hback : q.scrollback = p.scrollback)
    (hlimit : q.scrollbackLimit = p.scrollbackLimit) : p.Retouched q where
  rows_eq := ⟨id, by rw [hrows, List.modify_id]⟩
  cursor_eq := ⟨col, hcursor⟩
  scrollback_eq := hback
  limit_eq := hlimit

theorem refl (p : Page) : p.Retouched p := of_rows_eq rfl rfl rfl rfl

/-- Two changes of the row come to one. -/
theorem trans {p q r : Page} (h : p.Retouched q) (h' : q.Retouched r) : p.Retouched r := by
  obtain ⟨⟨edit, hrows⟩, ⟨col, hcursor⟩, hback, hlimit⟩ := h
  obtain ⟨⟨edit', hrows'⟩, ⟨col', hcursor'⟩, hback', hlimit'⟩ := h'
  refine ⟨⟨edit' ∘ edit, ?_⟩, ⟨col', ?_⟩, hback'.trans hback, hlimit'.trans hlimit⟩
  · rw [hrows', hrows, hcursor, List.modify_modify_eq]
  · rw [hcursor', hcursor]

/-- Moving the cursor in its row leaves the other rows. -/
theorem moveToCol (p : Page) (col : Nat) : p.Retouched (p.moveToCol col) :=
  of_rows_eq rfl rfl rfl rfl

theorem modifyRow (p : Page) (edit : Row → Row) : p.Retouched (p.modifyRow p.cursor.row edit) where
  rows_eq := ⟨edit, rfl⟩
  cursor_eq := ⟨p.cursor.col, rfl⟩
  scrollback_eq := rfl
  limit_eq := rfl

theorem editRow (p : Page) (edit : Row → Row) : p.Retouched (p.editRow p.cursor.row edit) := by
  unfold Page.editRow
  split
  · exact ⟨⟨edit, rfl⟩, ⟨p.cursor.col, rfl⟩, rfl, rfl⟩
  · exact refl p

/-- How printing puts something into the row of the cursor. -/
theorem write (p : Page) (edit : Row → Row) (line col : Nat) :
    p.Retouched (((p.modifyRow p.cursor.row edit).markDirty line).moveToCol col) :=
  ⟨⟨edit, rfl⟩, ⟨col, rfl⟩, rfl, rfl⟩

end Page.Retouched

namespace Terminal

/-- What each step of a computation keeps, a computation that goes through keeps. -/
theorem foldlM_induction {σ α : Type} {P : σ → Prop} {step : σ → α → Except Fault σ} {l : List α}
    (hstep : ∀ x ∈ l, ∀ s s', P s → step s x = .ok s' → P s') {s s' : σ} (hs : P s)
    (h : l.foldlM step s = .ok s') : P s' := by
  induction l generalizing s with
  | nil =>
      obtain rfl := Except.ok.inj h
      exact hs
  | cons x rest ih =>
      rw [List.foldlM_cons] at h
      obtain ⟨middle, hmiddle, hrest⟩ := exists_of_bind_eq_ok h
      have hnext := hstep x List.mem_cons_self s middle hs hmiddle
      exact ih (fun y hy => hstep y (List.mem_cons_of_mem x hy)) hnext hrest

/-- `t'` is `t` but for the cursor's row and column on the page that is shown. -/
structure Retouched (t t' : Terminal) : Prop where
  frame : t' = t.modifyActive fun _ => t'.active
  active : t.active.Retouched t'.active

/-- A change of the cursor's row and column is one of the terminal. -/
theorem retouched_modifyActive {t : Terminal} {f : Page → Page}
    (h : t.active.Retouched (f t.active)) : t.Retouched (t.modifyActive f) where
  frame := modifyActive_congr (by rw [active_modifyActive])
  active := by
    rw [active_modifyActive]
    exact h

theorem Retouched.refl (t : Terminal) : t.Retouched t where
  frame := (modifyActive_eq_self rfl).symm
  active := .refl _

theorem Retouched.trans {t t' t'' : Terminal} (h : t.Retouched t') (h' : t'.Retouched t'') :
    t.Retouched t'' where
  frame := by rw [h'.frame, h.frame, modifyActive_modifyActive, active_modifyActive]
  active := h.active.trans h'.active

/-- Of the cursor only the column changes. -/
theorem Retouched.cursor_eq {t t' : Terminal} (h : t.Retouched t') :
    t'.cursor = { t.cursor with col := t'.cursor.col } := by
  obtain ⟨col, hcursor⟩ := h.active.cursor_eq
  change t'.cursor = { t.cursor with col := col } at hcursor
  rw [hcursor]

/-- The cursor stays in its row. -/
theorem Retouched.row_eq {t t' : Terminal} (h : t.Retouched t') :
    t'.cursor.row = t.cursor.row := by
  rw [h.cursor_eq]

/-- A change of the cursor's row, seen in that row. -/
theorem getElem?_cursorRow_modifyActive {t : Terminal} {f : Page → Page} {g : Row → Row} {r : Row}
    (hr : t.active.rows[t.cursor.row]? = some r)
    (hrows : (f t.active).rows = t.active.rows.modify t.cursor.row g)
    (hrow : (f t.active).cursor.row = t.cursor.row) :
    (t.modifyActive f).active.rows[(t.modifyActive f).cursor.row]? = some (g r) := by
  rw [active_modifyActive, cursor_modifyActive, hrows, hrow, List.getElem?_modify_eq, hr]
  rfl

/-- The rows above the cursor's and below it stay. -/
theorem Retouched.rows_eq_append {t t' : Terminal} (h : t.Retouched t') {above below : List Row}
    {r r' : Row} (hrows : t.active.rows = above ++ r :: below) (habove : above.length = t.cursor.row)
    (hr : t'.active.rows[t'.cursor.row]? = some r') : t'.active.rows = above ++ r' :: below := by
  obtain ⟨edit, hedit⟩ := h.active.rows_eq
  have hold : t.active.rows[above.length]? = some r := by
    rw [hrows, List.getElem?_append_right (Nat.le_refl _), Nat.sub_self, List.getElem?_cons_zero]
  have hset : t'.active.rows = above ++ edit r :: below := by
    rw [hedit, ← cursor, ← habove, List.modify_eq_set_getElem?, hold, hrows]
    simp
  rw [h.row_eq, ← habove, hset, List.getElem?_append_right (Nat.le_refl _), Nat.sub_self,
    List.getElem?_cons_zero] at hr
  rw [hset, Option.some.inj hr]

/-! ## Motions and edits within a row -/

section Single

variable (t : Terminal)

/-- Moving in the row stays in it. -/
theorem retouched_moveToCol (col : Nat) : t.Retouched (t.modifyActive fun p => p.moveToCol col) :=
  retouched_modifyActive (.moveToCol _ _)

/-- A carriage return stays in the row. -/
theorem retouched_carriageReturn : t.Retouched t.carriageReturn :=
  retouched_modifyActive (.of_rows_eq rfl rfl rfl rfl)

theorem retouched_cursorForward (n : Nat) : t.Retouched (t.cursorForward n) :=
  retouched_modifyActive (.moveToCol _ _)

theorem retouched_cursorBackward (n : Nat) : t.Retouched (t.cursorBackward n) :=
  retouched_modifyActive (.moveToCol _ _)

theorem retouched_cursorColumn (col : Nat) : t.Retouched (t.cursorColumn col) :=
  t.retouched_moveToCol _

theorem retouched_of_horizontalTab {t t' : Terminal} (h : t.horizontalTab = .ok t') :
    t.Retouched t' := by
  obtain ⟨stop, -, hok⟩ := exists_of_bind_eq_ok h
  obtain rfl := Except.ok.inj hok
  exact t.retouched_moveToCol _

/-- An edit at the cursor changes its row only. -/
theorem retouched_editCursorRow (edit : Cells → Nat → Cells) :
    t.Retouched (t.editCursorRow edit) := by
  refine retouched_modifyActive ?_
  split
  · split
    · exact .editRow _ _
    · exact .refl _
  · exact .refl _

theorem retouched_insertChars (n : Nat) : t.Retouched (t.insertChars n) :=
  t.retouched_editCursorRow _

theorem retouched_deleteChars (n : Nat) : t.Retouched (t.deleteChars n) :=
  t.retouched_editCursorRow _

theorem retouched_eraseChars (n : Nat) : t.Retouched (t.eraseChars n) :=
  t.retouched_editCursorRow _

/-- Erasing in the row changes it only. -/
theorem retouched_eraseInLine (part : Nat) : t.Retouched (t.eraseInLine part) := by
  refine retouched_modifyActive ?_
  match part with
  | 0 | 1 | 2 => exact .editRow _ _
  | _ + 3 => exact .refl _

end Single

/-! ## Lines that are opened and removed -/

section Lines

variable {t t' : Terminal} {n : Nat}

/-- Inserting lines does nothing, or it moves rows of the region down. -/
theorem insertLines_cases (h : t.insertLines n = .ok t') :
    t' = t ∨ ∃ count, t' = t.modifyActive fun p =>
      (p.scrollDown t.cursor.row t.region.bottom t.cols count).markAllDirty := by
  unfold insertLines at h
  dsimp only at h
  split at h
  · exact .inl (Except.ok.inj h).symm
  · split at h
    · cases h
    · exact .inr ⟨_, (Except.ok.inj h).symm⟩

/-- Deleting lines does nothing, or it moves rows of the region up. -/
theorem deleteLines_cases (h : t.deleteLines n = .ok t') :
    t' = t ∨ ∃ count, t' = t.modifyActive fun p =>
      (p.scrollUp t.cursor.row t.region.bottom t.cols false count).markAllDirty := by
  unfold deleteLines at h
  dsimp only at h
  split at h
  · exact .inl (Except.ok.inj h).symm
  · split at h
    · cases h
    · exact .inr ⟨_, (Except.ok.inj h).symm⟩

end Lines

/-! ## Where printing goes down a row -/

/-- The row is marked as going on in the next, and the cursor goes to its start. -/
def wrapping (t : Terminal) : Terminal :=
  t.modifyActive fun p =>
    (p.modifyRow p.cursor.row fun r => { r with wrapped := true }).moveToCol 0

/-- The same after the last character of the row has been taken out of it, unless it fills the
row. -/
def emptying? (t : Terminal) : Option Terminal :=
  t.active.rows[t.cursor.row]?.bind fun r =>
    let stop := min t.cols r.cells.length
    let start := lastClusterStart r.cells (stop - 1)
    if start = 0 then none
    else some (t.modifyActive fun p =>
      ((p.modifyRow t.cursor.row fun r => ⟨Cells.fill r.cells start stop t.blank, true⟩).markDirty
        t.cursor.row).moveToCol 0)

/-- The terminal as it goes down a row when `c` is printed, if it does. -/
def goingDown? (t : Terminal) (c : Char) : Option Terminal :=
  match Text.columns? c with
  | none => none
  | some w =>
    if w = 0 ∨ extendsPrevious t.previousScalar? c then
      if t.cols ≤ t.cursor.col ∧ t.has .autoWrap then t.emptying? else none
    else if t.cols < w then none
    else if t.cols < t.cursor.col + w ∧ t.has .autoWrap then some t.wrapping
    else none

/-- `t'` comes from `t` by changes within rows and by going down once, if at all, and then as
`down?` says. -/
inductive GoesDown (t : Terminal) : (down? : Option Terminal) → (t' : Terminal) → Prop
  | never {t' : Terminal} : t.Retouched t' → GoesDown t none t'
  | once {down t' : Terminal} : t.Retouched down → down.index.Retouched t' →
      GoesDown t (some down) t'

namespace GoesDown

theorem refl (t : Terminal) : t.GoesDown none t := .never (.refl t)

/-- What goes down a row may work on it there. -/
theorem retouched {t t' t'' : Terminal} {down? : Option Terminal} (h : t.GoesDown down? t')
    (h' : t'.Retouched t'') : t.GoesDown down? t'' := by
  cases h with
  | never hbefore => exact .never (hbefore.trans h')
  | once hbefore hafter => exact .once hbefore (hafter.trans h')

end GoesDown

/-! ## Printing a character -/

/-- Releasing what is covered changes the cursor's row only. -/
theorem retouched_of_releaseCovered {t t' : Terminal} {col width : Nat}
    (h : t.releaseCovered t.cursor.row col width = .ok t') : t.Retouched t' := by
  unfold releaseCovered at h
  split at h
  · obtain rfl := Except.ok.inj h
    exact retouched_modifyActive (.modifyRow _ _)
  · cases h

/-- Putting a mark in its row changes that row only. -/
theorem retouched_of_attachHere {t t' : Terminal} {c : Char} (h : t.attachHere c = .ok t') :
    t.Retouched t' := by
  unfold attachHere at h
  dsimp only at h
  split at h
  · cases h
  · split at h
    · obtain rfl := Except.ok.inj h
      exact retouched_modifyActive (.write _ _ _ _)
    · cases h

theorem retouched_of_writeHere {t t' : Terminal} {c : Char} {width : Nat}
    (h : t.writeHere c width = .ok t') : t.Retouched t' := by
  unfold writeHere at h
  dsimp only at h
  split at h
  · cases h
  · split at h
    · cases h
    · split at h
      · cases h
      · obtain rfl := Except.ok.inj h
        exact retouched_modifyActive (.write _ _ _ _)

section Characters

variable {t t' : Terminal} {c : Char}

/-- Wrapping goes down a row. -/
theorem goesDown_wrapRow (h : t.wrapRow = .ok t') : t.GoesDown (some t.wrapping) t' := by
  unfold wrapRow at h
  split at h
  · obtain rfl := Except.ok.inj h
    refine .once (retouched_modifyActive ?_) (.refl _)
    exact ⟨⟨_, rfl⟩, ⟨0, rfl⟩, rfl, rfl⟩
  · cases h

/-- A full row of a single character is left alone. -/
theorem emptying?_of_wrapLastCluster (h : t.wrapLastCluster = .ok none) : t.emptying? = none := by
  unfold wrapLastCluster at h
  unfold emptying?
  dsimp only at h
  split at h
  · cases h
  · next r hrow =>
    rw [hrow]
    split at h
    · next hstart => exact if_pos hstart
    · obtain ⟨released, -, hplace⟩ := exists_of_bind_eq_ok h
      cases hplace

/-- Taking a character along goes down a row. -/
theorem goesDown_wrapLastCluster (h : t.wrapLastCluster = .ok (some t')) :
    t.GoesDown t.emptying? t' := by
  unfold wrapLastCluster at h
  dsimp only at h
  split at h
  · cases h
  · next r hrow =>
    split at h
    · cases h
    · next hstart =>
      obtain ⟨released, hrelease, hplace⟩ := exists_of_bind_eq_ok h
      obtain rfl := Option.some.inj (Except.ok.inj hplace)
      have hreleased := retouched_of_releaseCovered hrelease
      unfold emptying?
      rw [hrow, Option.bind_some]
      dsimp only
      rw [if_neg hstart]
      refine .once (retouched_modifyActive (.write _ _ _ _)) (hreleased.trans ?_)
      rw [← hreleased.row_eq]
      exact retouched_modifyActive (.write _ _ _ _)

/-- Attaching goes down a row if the row is full and text wraps. -/
theorem goesDown_attach (h : t.attach c = .ok t') :
    t.GoesDown (if t.cols ≤ t.cursor.col ∧ t.has .autoWrap then t.emptying? else none) t' := by
  unfold attach at h
  split at h
  · cases h
  · split at h
    · next hfull =>
      split at h
      · next hwrap =>
        rw [if_pos ⟨hfull, hwrap⟩]
        obtain ⟨moved, hmoved, hattach⟩ := exists_of_bind_eq_ok h
        cases moved with
        | none =>
            obtain rfl := Except.ok.inj hattach
            rw [emptying?_of_wrapLastCluster hmoved]
            exact .refl t
        | some wrapped =>
            exact (goesDown_wrapLastCluster hmoved).retouched (retouched_of_attachHere hattach)
      · next hwrap =>
        rw [if_neg fun hboth => hwrap hboth.2]
        obtain rfl := Except.ok.inj h
        exact .refl t
    · next hroom =>
      rw [if_neg fun hboth => hroom hboth.1]
      exact .never (retouched_of_attachHere h)

/-- Making room goes down a row if the character does not fit and text wraps. -/
theorem goesDown_makeRoom {width : Nat} (h : t.makeRoom width = .ok t') :
    t.GoesDown (if t.cols < t.cursor.col + width ∧ t.has .autoWrap then some t.wrapping else none)
      t' := by
  obtain ⟨stop, hstop, hroom⟩ := exists_of_bind_eq_ok h
  obtain ⟨-, rfl⟩ := coordinate_eq_ok_iff.mp hstop
  split at hroom
  · next hover =>
    split at hroom
    · next hwrap =>
      rw [if_pos ⟨hover, hwrap⟩]
      exact goesDown_wrapRow hroom
    · next hwrap =>
      rw [if_neg fun hboth => hwrap hboth.2]
      obtain rfl := Except.ok.inj hroom
      exact .never (t.retouched_moveToCol _)
  · next hroomy =>
    rw [if_neg fun hboth => hroomy hboth.1]
    obtain rfl := Except.ok.inj hroom
    exact .refl t

/-- **Printing a character** goes down a row only where it is foreseen. -/
theorem goesDown_putChar (h : t.putChar c = .ok t') : t.GoesDown (t.goingDown? c) t' := by
  rw [putChar_eq] at h
  unfold goingDown?
  generalize Text.columns? c = width at h ⊢
  cases width with
  | none =>
      obtain rfl := Except.ok.inj h
      exact .refl t
  | some w =>
      dsimp only [Option.elim_some] at h ⊢
      by_cases hattached : w = 0 ∨ extendsPrevious t.previousScalar? c = true
      · rw [if_pos hattached] at h ⊢
        exact goesDown_attach h
      · rw [if_neg hattached] at h ⊢
        unfold putLead at h
        by_cases hnarrow : t.cols < w
        · rw [if_pos hnarrow] at h ⊢
          obtain rfl := Except.ok.inj h
          exact .refl t
        · rw [if_neg hnarrow] at h ⊢
          obtain ⟨roomy, hroom, hrest⟩ := exists_of_bind_eq_ok h
          obtain ⟨released, hrelease, hwrite⟩ := exists_of_bind_eq_ok hrest
          refine (((goesDown_makeRoom hroom).retouched ?_).retouched
            (retouched_of_releaseCovered hrelease)).retouched (retouched_of_writeHere hwrite)
          split
          · exact roomy.retouched_insertChars _
          · exact .refl roomy

end Characters

/-! ## Printing a text -/

/-- A step of printing. -/
inductive PrintStep : Terminal → Terminal → Prop
  | retouch {t t' : Terminal} : t.Retouched t' → PrintStep t t'
  /-- Down one row. -/
  | goDown (t : Terminal) : PrintStep t t.index

/-- What steps of printing come to. -/
abbrev Printed : Terminal → Terminal → Prop := Relation.ReflTransGen PrintStep

theorem Retouched.printed {t t' : Terminal} (h : t.Retouched t') : Printed t t' :=
  .single (.retouch h)

/-- What goes down a row at most is what printing does. -/
theorem GoesDown.printed {t t' : Terminal} {down? : Option Terminal} (h : t.GoesDown down? t') :
    Printed t t' := by
  cases h with
  | never hwithin => exact hwithin.printed
  | once hbefore hafter => exact (hbefore.printed.trans (.single (.goDown _))).trans hafter.printed

/-- Every character is printed step by step. -/
theorem printed_of_putChar {t t' : Terminal} {c : Char} (h : t.putChar c = .ok t') :
    Printed t t' :=
  (goesDown_putChar h).printed

/-- And so is every text. -/
theorem printed_of_putText {t t' : Terminal} {text : List Char} (h : t.putText text = .ok t') :
    Printed t t' := by
  rw [putText_eq] at h
  refine foldlM_induction (P := Printed t) ?_ .refl h
  intro c _ before after hbefore hok
  exact hbefore.trans (printed_of_putChar hok)

end Terminal

end VideoTerminal
