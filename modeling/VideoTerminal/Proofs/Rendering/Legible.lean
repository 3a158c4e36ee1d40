import VideoTerminal.Proofs.Rendering.Styles

/-!
# Legible rows

A row is legible if it comes from printing and none of its styles has an attribute that is not
written.  A text that neither prints a wide tail nor asks for hidden text (`Piece.Visible`) leaves
legible rows only (`Sheet.Legible.step?`).
-/

namespace VideoTerminal

/-- All styles of the cells can be written. -/
def Cells.Writable (cells : Cells) : Prop := ∀ cell ∈ cells, cell.style.Writable

/-- A row that comes from printing, in styles that can be written. -/
structure Row.Legible (row : Row) (cols : Nat) : Prop where
  composed : Cells.Composed row.cells
  length_eq : row.cells.length = cols
  writable : Cells.Writable row.cells

namespace Cells.Writable

variable {front back : Cells} {style : Style}

/-- Cells one after the other can be written if they can. -/
theorem append (hfront : front.Writable) (hback : back.Writable) : (front ++ back).Writable :=
  List.forall_mem_append.mpr ⟨hfront, hback⟩

/-- Equal cells can be written if one of them can. -/
theorem replicate (n : Nat) {cell : Cell} (h : cell.style.Writable) :
    Cells.Writable (List.replicate n cell) := by
  intro other hother
  rwa [List.eq_of_mem_replicate hother]

/-- Blanks can be written. -/
theorem pad (h : front.Writable) (cols : Nat) : (front.pad cols).Writable :=
  h.append (.replicate _ Style.writable_empty)

/-- A character can be written in a style that can. -/
theorem glyph (h : style.Writable) (c : Char) : (Cells.glyph c style).Writable := by
  unfold Cells.glyph
  split <;> simpa [Cells.Writable] using h

/-- A mark can be written, whether its style is the new one or that of its character. -/
theorem mark (hfront : front.Writable) (hstyle : style.Writable) (c : Char) :
    (front.mark c style).Writable := by
  rcases mark_cases front c style with ⟨-, h⟩ | ⟨before, last, rfl, -, h⟩ |
    ⟨before, last, rfl, -, h⟩
  · rw [h]
    exact List.forall_mem_singleton.mpr hstyle
  · obtain ⟨hbefore, hlast⟩ := List.forall_mem_append.mp hfront
    have hown : last.style.Writable := hlast last List.mem_cons_self
    rw [h]
    exact append hbefore (List.forall_mem_cons.mpr ⟨hown, hlast⟩)
  · have hown : last.style.Writable :=
      hfront last (List.mem_append_right before List.mem_cons_self)
    rw [h]
    exact hfront.append (List.forall_mem_singleton.mpr hown)

end Cells.Writable

namespace Sheet

/-- All styles of a sheet can be written, and the one in force as well. -/
structure Writable (s : Sheet) : Prop where
  past : ∀ line ∈ s.past, Cells.Writable line
  front : s.front.Writable
  style : s.style.Writable

variable {cols : Nat} {s : Sheet}

namespace Writable

/-- A row that is completed can be written if its cells can. -/
theorem push (h : s.Writable) {line front : Cells} (hline : line.Writable)
    (hfront : front.Writable) :
    ({ s with past := s.past ++ [line], front := front } : Sheet).Writable where
  past := List.forall_mem_append.mpr ⟨h.past, List.forall_mem_singleton.mpr hline⟩
  front := hfront
  style := h.style

theorem withFront (h : s.Writable) {front : Cells} (hfront : front.Writable) :
    ({ s with front := front } : Sheet).Writable := ⟨h.past, hfront, h.style⟩

/-- Ending a line keeps a sheet that can be written. -/
theorem newLine (h : s.Writable) (cols : Nat) : (s.newLine cols).Writable :=
  h.push (h.front.pad cols) (by simp [Cells.Writable])

/-- Attaching a mark keeps a sheet that can be written. -/
theorem attach (h : s.Writable) (cols : Nat) (c : Char) : (s.attach cols c).Writable := by
  unfold Sheet.attach
  split
  · exact h.withFront (h.front.mark h.style c)
  · dsimp only
    split
    · exact h
    · refine h.push (.append (fun cell hcell => h.front cell (List.mem_of_mem_take hcell))
        (.replicate _ (Style.writable_colorsOnly _))) (.mark ?_ h.style c)
      exact fun cell hcell => h.front cell (List.mem_of_mem_drop hcell)

/-- Printing keeps a sheet that can be written. -/
theorem put (h : s.Writable) (cols : Nat) (c : Char) : (s.put cols c).Writable := by
  have hglyph := Cells.Writable.glyph h.style c
  unfold Sheet.put
  split
  · exact h
  · split
    · exact h.attach cols c
    · split
      · exact h
      · split
        · exact (h.newLine cols).withFront hglyph
        · exact h.withFront (h.front.append hglyph)

end Writable

/-- The sheet comes from printing, in styles that can be written. -/
structure Legible (cols : Nat) (s : Sheet) : Prop where
  composed : s.Composed cols
  writable : s.Writable

/-- An empty sheet is legible. -/
theorem legible_empty (cols : Nat) : ({} : Sheet).Legible cols where
  composed := composed_empty cols
  writable := ⟨by simp, by simp [Cells.Writable], Style.writable_empty⟩

/-- Each row of the screen is legible. -/
theorem Legible.of_mem_screen (h : s.Legible cols) {rows : Nat} {row : Row}
    (hrow : row.cells ∈ s.screen cols rows) : row.Legible cols where
  composed := (h.composed.of_mem_screen hrow).1
  length_eq := (h.composed.of_mem_screen hrow).2
  writable := by
    rcases mem_screen hrow with hold | hfront | hblank
    · exact h.writable.past _ hold
    · rw [hfront]
      exact h.writable.front.pad cols
    · rw [hblank]
      exact .pad (by simp [Cells.Writable]) cols

end Sheet

/-- The piece prints a character that is not a wide tail, or asks for a rendition without an 8. -/
def Piece.Visible : Piece → Prop
  | print c => Text.isControl7 c = false ∧ c ≠ wideTail
  | newLine => True
  | rendition f => 8 ∉ f.values

instance (piece : Piece) : Decidable piece.Visible :=
  match piece with
  | .print c => inferInstanceAs (Decidable (Text.isControl7 c = false ∧ c ≠ wideTail))
  | .newLine => .isTrue trivial
  | .rendition f => inferInstanceAs (Decidable (8 ∉ f.values))

/-- Visible pieces are plain. -/
theorem Piece.Visible.plain {piece : Piece} (h : piece.Visible) : piece.Plain := by
  intro c hc
  subst hc
  exact h.1

/-- **A sheet stays legible.** -/
theorem Sheet.Legible.step? {cols : Nat} {s s' : Sheet} (h : s.Legible cols) {piece : Piece}
    (hpiece : piece.Visible) (hstep : s.step? cols piece = some s') : s'.Legible cols := by
  cases piece with
  | print c =>
      have hput := (Option.ite_none_right_eq_some.mp hstep).2
      rw [← Option.some.inj hput]
      exact ⟨h.composed.put hpiece.2, h.writable.put cols c⟩
  | newLine =>
      rw [← Option.some.inj hstep]
      exact ⟨h.composed.newLine, h.writable.newLine cols⟩
  | rendition f =>
      have hparams : 8 ∉ f.params.take Parser.maxParams := fun hmem =>
        hpiece (Fields.mem_values_of_mem_params (List.mem_of_mem_take hmem) (by decide))
      rw [← Option.some.inj hstep]
      exact ⟨h.composed.restyle _,
        ⟨h.writable.past, h.writable.front, h.writable.style.select hparams⟩⟩

end VideoTerminal
