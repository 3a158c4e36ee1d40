import VideoTerminal.Proofs.Terminal.Run
import VideoTerminal.Proofs.Terminal.Steps

/-!
# Printing without automatic wraps

A program that turns automatic wrapping off expects its text to stay on the line.  Both ways to
print a character can go down a row, the plain one when the character does not fit and the attaching
one when the row is full, and each has its own test of the mode.  `Terminal.KeepsLine` says what
staying on the line comes to: other cells, another column and nothing else, not even the mark of a
row that goes on in the next.  `exists_keepsLine_putText` shows it for any text.

Only the marks have to be looked at here.  That nothing else changes is what `GoesDown` says of a
character that does not go down, and without the mode none does.
-/

namespace VideoTerminal.Terminal

/-- Which rows of the screen go on in the next one. -/
def wraps (t : Terminal) : List Bool := t.active.rows.map Row.wrapped

/-- `t'` is `t` but for cells of the cursor's row and for the column of the cursor. -/
structure KeepsLine (t t' : Terminal) : Prop extends t.Retouched t' where
  wraps_eq : t'.wraps = t.wraps

namespace KeepsLine

variable {t t' t'' : Terminal}

theorem refl (t : Terminal) : t.KeepsLine t := ⟨.refl t, rfl⟩

theorem trans (h : t.KeepsLine t') (h' : t'.KeepsLine t'') : t.KeepsLine t'' :=
  ⟨h.toRetouched.trans h'.toRetouched, h'.wraps_eq.trans h.wraps_eq⟩

/-- What stays in its line switches no mode. -/
theorem modes_eq (h : t.KeepsLine t') : t'.modes = t.modes := by
  rw [h.frame, modes_modifyActive]

end KeepsLine

/-! ## The marks of the rows -/

/-- A change of the cells of one row leaves the marks. -/
theorem wraps_modifyRow {t : Terminal} {f : Page → Page} {row : Nat} {edit : Row → Row}
    (hrows : (f t.active).rows = t.active.rows.modify row edit)
    (hedit : ∀ r, (edit r).wrapped = r.wrapped) : (t.modifyActive f).wraps = t.wraps := by
  unfold wraps
  rw [active_modifyActive, hrows]
  refine List.ext_getElem? fun i => ?_
  rw [List.getElem?_map, List.getElem?_map, List.getElem?_modify]
  cases t.active.rows[i]? with
  | none => rfl
  | some r =>
      rw [Option.map_eq_map, Option.map_some, Option.map_some, Option.map_some]
      split
      · rw [hedit]
      · rfl

/-- Moving in the row marks no wrap. -/
theorem wraps_moveToCol (t : Terminal) (col : Nat) :
    (t.modifyActive fun p => p.moveToCol col).wraps = t.wraps := by
  unfold wraps
  rw [active_modifyActive]
  rfl

theorem wraps_insertChars (t : Terminal) (n : Nat) : (t.insertChars n).wraps = t.wraps := by
  unfold insertChars editCursorRow wraps
  rw [active_modifyActive]
  split
  · split
    · next r hr hcol =>
      rw [← active_modifyActive t fun p => p.editRow p.cursor.row _]
      refine @wraps_modifyRow t _ t.active.cursor.row (fun r =>
        { r with cells := Cells.insertBlanks r.cells t.active.cursor.col n t.blank }) ?_
        fun _ => rfl
      rw [Page.editRow, if_pos (List.getElem?_eq_some_iff.mp hr).1]
      rfl
    · rfl
  · rfl

variable {t t' : Terminal} {c : Char}

/-- Releasing what is covered marks no wrap. -/
theorem wraps_of_releaseCovered {row col width : Nat}
    (h : t.releaseCovered row col width = .ok t') : t'.wraps = t.wraps := by
  unfold releaseCovered at h
  split at h
  · obtain rfl := Except.ok.inj h
    exact wraps_modifyRow rfl fun _ => rfl
  · cases h

/-- Putting a mark in its row marks no wrap. -/
theorem wraps_of_attachHere (h : t.attachHere c = .ok t') : t'.wraps = t.wraps := by
  unfold attachHere at h
  dsimp only at h
  split at h
  · cases h
  · split at h
    · obtain rfl := Except.ok.inj h
      exact wraps_modifyRow rfl fun _ => rfl
    · cases h

/-- Writing a character marks no wrap. -/
theorem wraps_of_writeHere {width : Nat} (h : t.writeHere c width = .ok t') :
    t'.wraps = t.wraps := by
  unfold writeHere at h
  dsimp only at h
  split at h
  · cases h
  · split at h
    · cases h
    · split at h
      · cases h
      · obtain rfl := Except.ok.inj h
        exact wraps_modifyRow rfl fun _ => rfl

/-! ## Printing -/

/-- A mark behind a full row is dropped. -/
theorem wraps_of_attach (hwrap : t.has .autoWrap = false) (h : t.attach c = .ok t') :
    t'.wraps = t.wraps := by
  unfold attach at h
  rw [hwrap] at h
  split at h
  · cases h
  · split at h
    · obtain rfl := Except.ok.inj h
      rfl
    · exact wraps_of_attachHere h

/-- A character that does not fit goes into the last columns. -/
theorem wraps_of_makeRoom {width : Nat} (hwrap : t.has .autoWrap = false)
    (h : t.makeRoom width = .ok t') : t'.wraps = t.wraps := by
  obtain ⟨stop, -, hroom⟩ := exists_of_bind_eq_ok h
  rw [hwrap] at hroom
  split at hroom
  · obtain rfl := Except.ok.inj hroom
    exact t.wraps_moveToCol _
  · obtain rfl := Except.ok.inj hroom
    rfl

/-- A character that is dropped, or written where room is made for it, marks no row. -/
theorem wraps_of_putLead {width : Nat} (hwrap : t.has .autoWrap = false)
    (h : t.putLead c width = .ok t') : t'.wraps = t.wraps := by
  unfold putLead at h
  split at h
  · obtain rfl := Except.ok.inj h
    rfl
  · obtain ⟨roomy, hroom, hrest⟩ := exists_of_bind_eq_ok h
    obtain ⟨released, hrelease, hwrite⟩ := exists_of_bind_eq_ok hrest
    calc t'.wraps
        = released.wraps := wraps_of_writeHere hwrite
      _ = (if roomy.has .insertMode then roomy.insertChars width else roomy).wraps :=
          wraps_of_releaseCovered hrelease
      _ = roomy.wraps := by
          split
          · exact roomy.wraps_insertChars width
          · rfl
      _ = t.wraps := wraps_of_makeRoom hwrap hroom

/-- Printing a character marks no row. -/
theorem wraps_of_putChar (hwrap : t.has .autoWrap = false) (h : t.putChar c = .ok t') :
    t'.wraps = t.wraps := by
  rw [putChar_eq] at h
  cases hwidth : Text.columns? c with
  | none =>
      rw [hwidth] at h
      obtain rfl := Except.ok.inj h
      rfl
  | some w =>
      rw [hwidth, Option.elim_some] at h
      split at h
      · exact wraps_of_attach hwrap h
      · exact wraps_of_putLead hwrap h

/-- Without automatic wrapping no character goes down a row. -/
theorem goingDown?_of_not_autoWrap (hwrap : t.has .autoWrap = false) (c : Char) :
    t.goingDown? c = none := by
  unfold goingDown?
  split
  · rfl
  · simp only [hwrap, Bool.false_eq_true, and_false, if_false, ite_self]

/-- **Printing stays in its line** where text does not wrap. -/
theorem keepsLine_putChar (hwrap : t.has .autoWrap = false) (h : t.putChar c = .ok t') :
    t.KeepsLine t' := by
  have hdown := goesDown_putChar h
  rw [goingDown?_of_not_autoWrap hwrap] at hdown
  cases hdown with
  | never hretouched => exact ⟨hretouched, wraps_of_putChar hwrap h⟩

/-- Whatever a text comes to, it comes to on the line; this holds of any terminal at all. -/
theorem keepsLine_putText {text : List Char} (hwrap : t.has .autoWrap = false)
    (h : t.putText text = .ok t') : t.KeepsLine t' := by
  rw [putText_eq] at h
  refine foldlM_induction (P := t.KeepsLine) ?_ (.refl t) h
  intro c _ before after hbefore hok
  have hstill : before.has .autoWrap = false := by
    rw [has, hbefore.modes_eq]
    exact hwrap
  exact hbefore.trans (keepsLine_putChar hstill hok)

/-- **Without automatic wrapping text stays on its line**, wherever the cursor stands, also behind
the last column, and with or without insert mode.  A well-formed terminal prints any text; wherever
else printing succeeds, the same holds. -/
theorem putText_keepsLine (hwrap : t.has .autoWrap = false) (text : List Char) :
    (∀ cols rows limit, t.WellFormed cols rows limit →
      ∃ t', t.putText text = .ok t' ∧ t.KeepsLine t') ∧
    ∀ t', t.putText text = .ok t' → t.KeepsLine t' := by
  refine ⟨fun cols rows limit h => ?_, fun t' hok => keepsLine_putText hwrap hok⟩
  obtain ⟨t', hok, -⟩ := h.exists_putText text
  exact ⟨t', hok, keepsLine_putText hwrap hok⟩

/-- A row is filled, so that the wrap is pending, and then the modes are changed. -/
def pendingUnwrapped : List Operation :=
  [.putText ['a', 'b', '\u4E2D'], .setMode .autoWrap false, .setMode .insertMode true]

/-- A mark is dropped there, and the letter and the wide character go into the last columns. -/
theorem putText_keepsLine_pending :
    ∃ t t' : Terminal, t.WellFormed 4 2 3 ∧ t.has .autoWrap = false ∧
      t.has .insertMode = true ∧ t.cursor.col = t.cols ∧
      t.putText ['\u0301', 'x', '\u4E2D'] = .ok t' ∧ t.KeepsLine t' ∧
      t'.grid = [['a', 'b', '\u4E2D', wideTail], [' ', ' ', ' ', ' ']] := by
  obtain ⟨t, hrun, ht⟩ := (WellFormed.new (by decide : Addressable 4 2) 3).exists_run
    (by decide : ∀ op ∈ pendingUnwrapped, op.Admissible)
  have hstart : ((Terminal.new 4 2 3).run pendingUnwrapped).toOption.map (fun t =>
      decide (t.has .autoWrap = false ∧ t.has .insertMode = true ∧ t.cursor.col = t.cols)) =
      some true := by decide +kernel
  have hgrid : ((Terminal.new 4 2 3).run pendingUnwrapped).toOption.map (fun t =>
      (t.putText ['\u0301', 'x', '\u4E2D']).toOption.map grid) =
      some (some [['a', 'b', '\u4E2D', wideTail], [' ', ' ', ' ', ' ']]) := by decide +kernel
  rw [hrun] at hstart hgrid
  obtain ⟨hwrap, hinsert, hcol⟩ := of_decide_eq_true (Option.some.inj hstart)
  obtain ⟨t', hok, hkeeps⟩ :=
    (putText_keepsLine hwrap ['\u0301', 'x', '\u4E2D']).1 4 2 3 ht
  have hprinted : (t.putText ['\u0301', 'x', '\u4E2D']).toOption.map grid =
      some [['a', 'b', '\u4E2D', wideTail], [' ', ' ', ' ', ' ']] := Option.some.inj hgrid
  rw [hok] at hprinted
  exact ⟨t, t', ht, hwrap, hinsert, hcol, hok, hkeeps, Option.some.inj hprinted⟩

end VideoTerminal.Terminal
