import VideoTerminal.Proofs.Line.Characters
import VideoTerminal.Proofs.Line.Columns
import VideoTerminal.Proofs.Screen.Slots

/-!
# Cells composed by printing

At the end of a row printing does one of two things: it begins a new character (`Cells.glyph`), or
it puts a mark to the last one, whose style the mark takes (`Cells.mark`).  Cells that come to be
like this are *composed* (`Cells.Composed`).  The tails in them are those that wide characters
brought along, so the row is whole (`Composed.whole`); and since a character knows nothing of what
stands before it, composed cells may be cut before any character (`Composed.of_append`).
-/

namespace VideoTerminal

namespace Slots

/-- At the start of a row there is nothing to attach to. -/
theorem scalarBefore_nil : scalarBefore [] = none := rfl

/-- Behind a wide tail it is looked through. -/
theorem scalarBefore_concat_wideTail (front : List Char) :
    scalarBefore (front ++ [wideTail]) = front.getLast? := by
  unfold scalarBefore
  rw [List.getLast?_concat, if_pos rfl, List.dropLast_concat]

/-- Unless a tail comes last, the last scalar is what is attached to. -/
theorem scalarBefore_of_ne {front : List Char} (h : front.getLast? ≠ some wideTail) :
    scalarBefore front = front.getLast? := if_neg h

end Slots

namespace Cells

/-- The cells of a character that begins a new one, with its tail if it is wide. -/
def glyph (c : Char) (style : Style) : Cells :=
  if Text.columns? c = some 2 then [⟨c, style⟩, ⟨wideTail, style⟩] else [⟨c, style⟩]

/-- The cells with one more mark, in the style of the cell before it and in front of a wide tail.
Where there is no cell it has a style of its own. -/
def mark (front : Cells) (c : Char) (style : Style) : Cells :=
  match front.getLast? with
  | some last =>
    if last.isWideTail then front.dropLast ++ [⟨c, last.style⟩, last]
    else front ++ [⟨c, last.style⟩]
  | none => [⟨c, style⟩]

@[simp] theorem slots_nil : slots [] = [] := rfl

theorem slots_singleton (cell : Cell) : slots [cell] = [cell.char] := rfl

/-- A character has its own slot, and a tail if it is wide. -/
theorem slots_glyph (c : Char) (style : Style) : (glyph c style).slots = Slots.closed [c] := by
  unfold glyph
  rw [Slots.closed]
  split <;> rfl

/-- A character takes as many cells as columns. -/
theorem length_glyph {c : Char} {w : Nat} (hwidth : Text.columns? c = some w) (hpos : 0 < w)
    (style : Style) : (glyph c style).length = w := by
  rw [← length_slots, slots_glyph, Slots.length_closed_singleton hwidth hpos]

section Mark

variable (front : Cells) (c : Char) (style : Style)

/-- A mark is put in front of the tail, in the style of the tail. -/
theorem mark_concat_wideTail {last : Cell} (h : last.char = wideTail) :
    mark (front ++ [last]) c style = front ++ [⟨c, last.style⟩, last] := by
  unfold mark
  rw [List.getLast?_concat]
  dsimp only
  rw [if_pos (by simpa [Cell.isWideTail] using h), List.dropLast_concat]

/-- A mark is put behind a narrow character, in its style. -/
theorem mark_concat_of_ne {last : Cell} (h : last.char ≠ wideTail) :
    mark (front ++ [last]) c style = front ++ [last] ++ [⟨c, last.style⟩] := by
  unfold mark
  rw [List.getLast?_concat]
  dsimp only
  rw [if_neg (by simpa [Cell.isWideTail] using h)]

/-- The ways in which a mark comes to the cells. -/
theorem mark_cases :
    (front = [] ∧ mark front c style = [⟨c, style⟩]) ∨
    (∃ before last, front = before ++ [last] ∧ last.char = wideTail ∧
      mark front c style = before ++ [⟨c, last.style⟩, last]) ∨
    (∃ before last, front = before ++ [last] ∧ last.char ≠ wideTail ∧
      mark front c style = front ++ [⟨c, last.style⟩]) := by
  cases front using List.reverseRecOn with
  | nil => exact .inl ⟨rfl, rfl⟩
  | append_singleton before last =>
      by_cases h : last.char = wideTail
      · exact .inr (.inl ⟨before, last, rfl, h, mark_concat_wideTail before c style h⟩)
      · exact .inr (.inr ⟨before, last, rfl, h, mark_concat_of_ne before c style h⟩)

/-- A mark goes where attaching puts it. -/
theorem slots_mark : (mark front c style).slots = Slots.attach front.slots c [] := by
  unfold Slots.attach
  rcases mark_cases front c style with ⟨rfl, h⟩ | ⟨before, last, rfl, hlast, h⟩ |
    ⟨before, last, rfl, hlast, h⟩
  · rw [h]
    rfl
  · rw [h, slots_append, slots_append, slots_singleton, hlast, List.getLast?_concat, if_pos rfl,
      List.dropLast_concat]
    change slots before ++ [c, last.char] = _
    rw [hlast]
  · rw [h, slots_append, slots_append, slots_singleton, List.getLast?_concat,
      if_neg (by simpa using hlast)]
    rfl

/-- One mark more is one cell more. -/
theorem length_mark : (mark front c style).length = front.length + 1 := by
  rcases mark_cases front c style with ⟨rfl, h⟩ | ⟨before, last, rfl, -, h⟩ |
    ⟨before, last, rfl, -, h⟩ <;> rw [h] <;> simp

variable {front c style} in
/-- A mark leaves the cells that were there. -/
theorem mem_mark {cell : Cell} (h : cell ∈ front.mark c style) : cell ∈ front ∨ cell.char = c := by
  rcases mark_cases front c style with ⟨rfl, hmark⟩ | ⟨before, last, rfl, -, hmark⟩ |
    ⟨before, last, rfl, -, hmark⟩ <;> rw [hmark] at h
  · exact .inr (by rw [List.mem_singleton.mp h])
  · rcases List.mem_append.mp h with hbefore | hend
    · exact .inl (List.mem_append_left _ hbefore)
    · rcases List.mem_cons.mp hend with rfl | hlast
      · exact .inr rfl
      · exact .inl (List.mem_append_right _ hlast)
  · rcases List.mem_append.mp h with hold | hnew
    · exact .inl hold
    · exact .inr (by rw [List.mem_singleton.mp hnew])

/-- In the middle of a row a mark takes the next slot. -/
theorem attach_append (x : Cell) (back : Cells) :
    attach (front ++ x :: back) front.length c style = mark front c style ++ back := by
  unfold attach
  rcases mark_cases front c style with ⟨rfl, hmark⟩ | ⟨before, last, rfl, hlast, hmark⟩ |
    ⟨before, last, rfl, hlast, hmark⟩
  · rw [hmark]
    rfl
  · have htail : last.isWideTail = true := by simpa [Cell.isWideTail] using hlast
    rw [hmark]
    simp [htail]
  · have htail : last.isWideTail = false := by simpa [Cell.isWideTail] using hlast
    rw [hmark]
    simp [htail]

/-- Only the last cell of a row has to do with where a mark is put. -/
theorem mark_append (before : Cells) {cells : Cells} (h : cells ≠ []) :
    mark (before ++ cells) c style = before ++ mark cells c style := by
  obtain ⟨cells, last, rfl⟩ : ∃ cells' last, cells = cells' ++ [last] :=
    ⟨_, _, (List.dropLast_concat_getLast h).symm⟩
  rw [← List.append_assoc]
  by_cases hlast : last.char = wideTail
  · rw [mark_concat_wideTail _ _ _ hlast, mark_concat_wideTail _ _ _ hlast, List.append_assoc]
  · rw [mark_concat_of_ne _ _ _ hlast, mark_concat_of_ne _ _ _ hlast]
    simp only [List.append_assoc]

end Mark

/-- What is before a slot that begins a character is not seen behind it. -/
theorem scalarBefore_slots_append_cons (front between : Cells) {x : Cell} (h : x.char ≠ wideTail) :
    Slots.scalarBefore (slots (front ++ x :: between)) =
      Slots.scalarBefore (slots (x :: between)) := by
  rw [slots_append]
  exact Slots.scalarBefore_append_cons front.slots (slots between) h

/-- The place of an element in two lists put together. -/
theorem append_cons_eq_append {α : Type} {front back first second : List α} {x : α}
    (h : front ++ x :: back = first ++ second) :
    (∃ between, first = front ++ x :: between ∧ back = between ++ second) ∨
      ∃ between, front = first ++ between ∧ second = between ++ x :: back := by
  rcases List.append_eq_append_iff.mp h with ⟨between, hfirst, hsecond⟩ | ⟨between, hfront, hsecond⟩
  · cases between with
    | nil => exact .inr ⟨[], by simpa using hfirst.symm, hsecond.symm⟩
    | cons y between =>
        obtain ⟨rfl, hback⟩ := List.cons.inj hsecond
        exact .inl ⟨between, hfirst, hback⟩
  · exact .inr ⟨between, hfront, hsecond⟩

/-- Where cells with one more mark are cut, the mark stays with the part behind the cut, unless the
cut is right before it. -/
theorem mark_eq_append {front before back : Cells} {x : Cell} {c : Char} {style : Style}
    (h : mark front c style = before ++ x :: back) (hx : x.char ≠ wideTail) :
    (∃ between, front = before ++ x :: between ∧ x :: back = mark (x :: between) c style) ∨
      (x.char = c ∧ before.slots.getLast? = Slots.scalarBefore front.slots) := by
  have hcut : (∃ between, front = before ++ x :: between) ∨
      (x.char = c ∧ before.slots.getLast? = Slots.scalarBefore front.slots) := by
    rcases mark_cases front c style with ⟨rfl, hmark⟩ | ⟨earlier, last, rfl, hlast, hmark⟩ |
      ⟨earlier, last, rfl, hlast, hmark⟩
    · rw [hmark] at h
      cases before with
      | nil =>
          obtain ⟨rfl, -⟩ := List.cons.inj h
          exact .inr ⟨rfl, rfl⟩
      | cons y before => simp at h
    · rw [hmark] at h
      rcases append_cons_eq_append h.symm with ⟨between, rfl, -⟩ | ⟨between, rfl, hmark⟩
      · exact .inl ⟨between ++ [last], by simp⟩
      · cases between with
        | nil =>
            obtain ⟨rfl, -⟩ := List.cons.inj hmark
            rw [List.append_nil, slots_append, slots_singleton, hlast,
              Slots.scalarBefore_concat_wideTail]
            exact .inr ⟨rfl, rfl⟩
        | cons y between =>
            have hrest := (List.cons.inj hmark).2
            cases between with
            | nil =>
                obtain ⟨rfl, -⟩ := List.cons.inj hrest
                exact absurd hlast hx
            | cons z between => simp at hrest
    · rw [hmark] at h
      rcases append_cons_eq_append h.symm with ⟨between, hfront, -⟩ | ⟨between, rfl, hmark⟩
      · exact .inl ⟨between, hfront⟩
      · cases between with
        | nil =>
            obtain ⟨rfl, -⟩ := List.cons.inj hmark
            rw [List.append_nil, slots_append, slots_singleton,
              Slots.scalarBefore_of_ne (by simpa using hlast)]
            exact .inr ⟨rfl, rfl⟩
        | cons y between => simp at hmark
  refine hcut.imp_left ?_
  rintro ⟨between, rfl⟩
  rw [mark_append _ _ _ (List.cons_ne_nil x between)] at h
  exact ⟨between, rfl, (List.append_cancel_left h).symm⟩

/-- Only the first cell of a character begins one. -/
theorem eq_nil_of_glyph_eq {c : Char} {style : Style} {before back : Cells} {x : Cell}
    (h : glyph c style = before ++ x :: back) (hx : x.char ≠ wideTail) :
    before = [] ∧ glyph c style = x :: back := by
  unfold glyph at h ⊢
  cases before with
  | nil => exact ⟨rfl, h⟩
  | cons y before =>
      exfalso
      split at h
      · obtain ⟨-, h⟩ := List.cons.inj h
        cases before with
        | nil =>
            obtain ⟨rfl, -⟩ := List.cons.inj h
            exact hx rfl
        | cons z before => simp at h
      · simp at h

/-- Cells that printing puts one behind the other. -/
inductive Composed : Cells → Prop
  | nil : Composed []
  | glyph {front : Cells} {c : Char} (style : Style) : Composed front → (Text.columns? c).isSome →
      extendsPrevious (Slots.scalarBefore front.slots) c = false →
      Composed (front ++ Cells.glyph c style)
  | mark {front : Cells} {c : Char} (style : Style) : Composed front → (Text.columns? c).isSome →
      c ≠ wideTail → extendsPrevious (Slots.scalarBefore front.slots) c = true →
      Composed (front.mark c style)

namespace Composed

variable {front back : Cells} {x : Cell}

/-- A blank is a character of its own. -/
theorem concat_space (h : Composed front) (style : Style) : Composed (front ++ [⟨' ', style⟩]) := by
  have hblank := h.glyph (c := ' ') style (by decide) (extendsPrevious_space _)
  rwa [Cells.glyph, if_neg (by decide)] at hblank

/-- Blanks may be printed behind composed cells. -/
theorem append_replicate (h : Composed front) (n : Nat) (style : Style) :
    Composed (front ++ List.replicate n ⟨' ', style⟩) := by
  induction n with
  | zero => rwa [List.replicate_zero, List.append_nil]
  | succ n ih =>
      rw [List.replicate_succ', ← List.append_assoc]
      exact ih.concat_space style

/-- Nothing but what has a width is printed. -/
theorem isSome_columns? (h : Composed front) :
    ∀ cell ∈ front, (Text.columns? cell.char).isSome := by
  induction h with
  | nil => simp
  | @glyph front c style _ hwidth _ ih =>
      refine List.forall_mem_append.mpr ⟨ih, fun cell hcell => ?_⟩
      have htail : (Text.columns? wideTail).isSome := by decide +kernel
      unfold Cells.glyph at hcell
      split at hcell
      · rcases List.mem_cons.mp hcell with rfl | hcell
        · exact hwidth
        · obtain rfl := List.mem_singleton.mp hcell
          exact htail
      · obtain rfl := List.mem_singleton.mp hcell
        exact hwidth
  | @mark front c style _ hwidth _ _ ih =>
      intro cell hcell
      rcases mem_mark hcell with hold | rfl
      · exact ih cell hold
      · exact hwidth

/-- Every wide character has its tail, and there is no other tail. -/
theorem whole (h : Composed front) : Slots.Whole front.slots := by
  induction h with
  | nil => exact Slots.follows_nil.whole
  | @glyph front c style _ _ hlead ih =>
      have hglyph : Slots.Follows (Slots.closed [c] ++ []) :=
        Slots.follows_nil.closed_append hlead rfl List.not_mem_nil
      rw [List.append_nil] at hglyph
      rw [slots_append, slots_glyph]
      exact ih.append hglyph
  | @mark front c style _ _ hc hext ih =>
      -- The mark may as well be put over a blank behind the cells.
      have hblank : Slots.Whole (front.slots ++ ' ' :: []) :=
        ih.append (Slots.follows_replicate 1)
      rw [slots_mark]
      refine (hblank.whole_attach_iff hc hext).mpr ?_
      unfold Slots.AttachBreaks
      split
      · exact fun hne => hne rfl
      · rintro (heq | ⟨hmem, -⟩)
        · cases heq
        · exact absurd hmem List.not_mem_nil

/-- Composed cells may be cut before any character. -/
theorem of_append (h : Composed (front ++ x :: back))
    (hlead : extendsPrevious front.slots.getLast? x.char = false) :
    Composed front ∧ Composed (x :: back) := by
  have hx : x.char ≠ wideTail := by
    intro htail
    rw [htail] at hlead
    cases hlead
  generalize hcells : front ++ x :: back = cells at h
  induction h generalizing back with
  | nil => simp at hcells
  | @glyph earlier c style hearlier hwidth hnew ih =>
      rcases append_cons_eq_append hcells with ⟨between, rfl, rfl⟩ | ⟨between, rfl, hglyph⟩
      · -- The cut is before the new character.
        obtain ⟨hfront, hback⟩ := ih rfl
        refine ⟨hfront, hback.glyph style hwidth ?_⟩
        rw [← scalarBefore_slots_append_cons front between hx]
        exact hnew
      · obtain ⟨rfl, hback⟩ := eq_nil_of_glyph_eq hglyph hx
        rw [List.append_nil, ← hback]
        exact ⟨hearlier, Composed.nil.glyph style hwidth
          (extendsPrevious_eq_false_of_ne hnew (by simp [Slots.scalarBefore_nil]))⟩
  | @mark earlier c style hearlier hwidth hc hext ih =>
      rcases mark_eq_append hcells.symm hx with ⟨between, rfl, hback⟩ | ⟨rfl, hlast⟩
      · obtain ⟨hfront, hrest⟩ := ih rfl
        refine ⟨hfront, ?_⟩
        rw [hback]
        refine hrest.mark style hwidth hc ?_
        rw [← scalarBefore_slots_append_cons front between hx]
        exact hext
      · -- A mark is no place to cut.
        rw [hlast, hext] at hlead
        cases hlead

/-- So they are cut at a slot that does not belong to the one before. -/
theorem cut (h : Composed front) {start : Nat} (hlt : start < front.length)
    (hlead : front.isAttached start = false) :
    Composed (front.take start) ∧ Composed (front.drop start) ∧
      Slots.scalarBefore (slots (front.drop start)) = Slots.scalarBefore front.slots := by
  obtain ⟨x, rest, hrest⟩ : ∃ x rest, front.drop start = x :: rest :=
    List.exists_cons_of_ne_nil (by simpa using hlt)
  have hsplit : front = front.take start ++ x :: rest := by rw [← hrest, List.take_append_drop]
  have hslots : front.slots = slots (front.take start) ++ x.char :: slots rest := by
    rw [hsplit, slots_append, ← hsplit]
    rfl
  have hlen : (slots (front.take start)).length = start := by
    rw [length_slots, List.length_take, Nat.min_eq_left (Nat.le_of_lt hlt)]
  have hraw := isAttached_of_slots_eq hslots
  rw [hlen, hlead] at hraw
  have hx : x.char ≠ wideTail := by
    intro htail
    rw [htail] at hraw
    cases hraw
  have hparts := of_append (hsplit ▸ h) hraw.symm
  rw [hrest]
  refine ⟨hparts.1, hparts.2, ?_⟩
  rw [← scalarBefore_slots_append_cons (front.take start) rest hx, ← hsplit]

end Composed

/-! ## Rows that begin with some cells -/

/-- A row of `cols` cells that begins with some and is untouched behind them. -/
def pad (cols : Nat) (front : Cells) : Cells :=
  front ++ List.replicate (cols - front.length) ({} : Cell)

section Pad

variable {cols : Nat} {front : Cells}

/-- Cells are padded with as many blanks as they lack. -/
theorem pad_eq (front : Cells) {n : Nat} (h : front.length + n = cols) :
    pad cols front = front ++ List.replicate n ({} : Cell) := by
  rw [pad, ← h, Nat.add_sub_cancel_left]

/-- Cells that fit are padded to the width of the row. -/
theorem length_pad (h : front.length ≤ cols) : (pad cols front).length = cols := by
  rw [pad, List.length_append, List.length_replicate]
  omega

theorem pad_nil (cols : Nat) : pad cols [] = List.replicate cols ({} : Cell) := rfl

/-- Padded cells show what they showed, and blanks. -/
theorem slots_pad (cols : Nat) (front : Cells) :
    (pad cols front).slots = front.slots ++ List.replicate (cols - front.length) ' ' := by
  rw [pad, slots_append, slots, slots, List.map_replicate]

/-- A mark put behind the cells. -/
theorem attach_pad (h : front.length < cols) (c : Char) (style : Style) :
    attach (pad cols front) front.length c style = pad cols (front.mark c style) := by
  obtain ⟨n, rfl⟩ := Nat.exists_eq_add_of_lt h
  have hlen := length_mark front c style
  rw [pad_eq front (n := n + 1) (by omega), pad_eq (mark front c style) (n := n) (by omega),
    List.replicate_succ, attach_append]

/-- A character written behind the cells. -/
theorem overwrite_pad {c : Char} {w : Nat} (hwidth : Text.columns? c = some w) (hpos : 0 < w)
    (h : front.length + w ≤ cols) (style : Style) :
    overwrite (pad cols front) front.length c w style = pad cols (front ++ glyph c style) := by
  obtain ⟨n, rfl⟩ := Nat.exists_eq_add_of_le h
  have htwo := Text.columns?_le_two hwidth
  unfold overwrite glyph
  rw [hwidth]
  by_cases hw : w = 2
  · subst hw
    rw [if_pos rfl, if_pos rfl, pad_eq front (n := n + 1 + 1) (by omega),
      pad_eq (front ++ [_, _]) (n := n) (by simp)]
    simp [List.replicate_succ]
  · obtain rfl : w = 1 := by omega
    rw [if_neg (by decide), if_neg (by decide), pad_eq front (n := n + 1) (by omega),
      pad_eq (front ++ [_]) (n := n) (by simp)]
    simp [List.replicate_succ]

/-- Behind the cells every slot begins a character. -/
theorem isAttached_pad {i : Nat} (h : front.length ≤ i) :
    isAttached (pad cols front) i = false := by
  have hslot : line (pad cols front) i = none ∨ line (pad cols front) i = some ' ' := by
    unfold line pad
    rw [List.getElem?_append_right h, List.getElem?_replicate]
    split
    · exact .inr rfl
    · exact .inl rfl
  unfold isAttached Line.isStructural
  rcases hslot with hslot | hslot
  · rw [hslot]
  · rw [hslot]
    exact extendsPrevious_space _

/-- There, nothing is covered in part. -/
theorem releaseCovered_pad (cols : Nat) (front : Cells) (w : Nat) (blank : Cell) :
    releaseCovered (pad cols front) front.length w blank = pad cols front := by
  have hline : line (pad cols front) front.length ≠ some wideTail := by
    intro htail
    have hstructural := Line.isStructural_of_wideTail htail
    exact Bool.false_ne_true (isAttached_pad (Nat.le_refl _) ▸ hstructural)
  unfold releaseCovered
  split
  · next hlt =>
    dsimp only
    generalize hstart : min (front.length + w) (pad cols front).length = start
    have hend : attachedEnd (pad cols front) ((pad cols front).length - start) start = start := by
      cases (pad cols front).length - start with
      | zero => rfl
      | succ n => rw [attachedEnd, isAttached_pad (by omega), if_neg Bool.false_ne_true]
    rw [hend, fill_self]
  · rfl

end Pad

end Cells

end VideoTerminal
