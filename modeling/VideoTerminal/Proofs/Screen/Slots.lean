import VideoTerminal.Proofs.Line.Whole
import VideoTerminal.Screen.Page

/-!
# The slots of a row

What printing does to the slots of a row of cells.  A character that belongs to the one before it is
put behind that one (`Cells.slots_attach`).  Before any other is written (`Cells.slots_overwrite`),
what it would leave of others is blanked (`Cells.exists_slots_releaseCovered`): behind it the marks
that lose their character, so that whatever follows begins with a new one, and in front of it the
beginning of a wide character if it comes to stand on that one's tail.
-/

namespace VideoTerminal

namespace Cells

/-- The characters in the slots of a row. -/
def slots (cells : Cells) : List Char := cells.map Cell.char

/-- Each cell is one slot. -/
@[simp] theorem length_slots (cells : Cells) : cells.slots.length = cells.length := List.length_map _

/-- Cells one after the other have their slots one after the other. -/
theorem slots_append (front back : Cells) : slots (front ++ back) = front.slots ++ back.slots :=
  List.map_append

/-- Another cell is another scalar in its slot. -/
@[simp] theorem slots_set (cells : Cells) (i : Nat) (c : Cell) :
    slots (cells.set i c) = cells.slots.set i c.char := List.map_set

/-- The cells behind some of the slots. -/
theorem slots_drop {cells : Cells} {front back : List Char} (h : cells.slots = front ++ back) :
    slots (cells.drop front.length) = back := by
  rw [slots, List.map_drop]
  change cells.slots.drop _ = _
  rw [h, List.drop_left]

/-- Cells put over the first ones of a row. -/
theorem slots_take_append_drop {cells moved : Cells} {covered back : List Char}
    (h : cells.slots = covered ++ back) (hlen : covered.length = moved.length) :
    slots (moved.take cells.length ++ cells.drop moved.length) = moved.slots ++ back := by
  have hle : moved.length ≤ cells.length := by
    rw [← hlen, ← length_slots, h, List.length_append]
    omega
  rw [List.take_of_length_le hle, slots_append, ← hlen, slots_drop h]

/-- The line of cells is that of their slots. -/
theorem line_eq_ofList (cells : Cells) : cells.line = Line.ofList cells.slots := by
  funext i
  simp [line, Line.ofList, slots]

/-- A slot is found behind those in front of it. -/
theorem line_of_slots_eq {cells : Cells} {front back : List Char} {x : Char}
    (h : cells.slots = front ++ x :: back) : cells.line front.length = some x := by
  rw [line_eq_ofList, h]
  simp [Line.ofList]

/-- Whether a slot is attached depends on it and on the one before. -/
theorem isAttached_of_slots_eq {cells : Cells} {front back : List Char} {x : Char}
    (h : cells.slots = front ++ x :: back) :
    cells.isAttached front.length = extendsPrevious front.getLast? x := by
  rw [isAttached, line_eq_ofList, h, Line.isStructural_ofList]

/-- Nothing lies between a place and itself. -/
theorem fill_self (cells : Cells) (i : Nat) (c : Cell) : fill cells i i c = cells := by
  refine List.ext_getElem? fun j => ?_
  have hnone : ¬ (i ≤ j ∧ j < i) := by omega
  simp only [getElem?_fill, hnone, if_false, Option.map_id']

/-- The cells between two places. -/
theorem slots_fill {cells : Cells} {front inner back : List Char} (blank : Cell)
    (h : cells.slots = front ++ inner ++ back) :
    slots (fill cells front.length (front.length + inner.length) blank) =
      front ++ List.replicate inner.length blank.char ++ back := by
  refine List.ext_getElem? fun i => ?_
  have hold : cells[i]?.map Cell.char = (front ++ inner ++ back)[i]? := by
    rw [← h, slots, List.getElem?_map]
  simp only [slots, List.getElem?_map, getElem?_fill, Option.map_map]
  by_cases hin : front.length ≤ i ∧ i < front.length + inner.length
  · have hlt : i < cells.length := by
      rw [← length_slots, h, List.length_append, List.length_append]
      omega
    rw [List.getElem?_eq_getElem hlt, List.getElem?_append_left (by simp; omega),
      List.getElem?_append_right hin.1, List.getElem?_replicate, if_pos (by omega)]
    simp [hin]
  · have hsame : (Cell.char ∘ fun old : Cell =>
        if front.length ≤ i ∧ i < front.length + inner.length then blank else old) = Cell.char := by
      funext old
      simp [hin]
    rw [hsame, hold]
    simp only [List.getElem?_append, List.length_append, List.length_replicate]
    split
    · split
      · rfl
      · omega
    · rfl

/-- The end of the slots that belong to the character before them. -/
theorem attachedEnd_eq {cells : Cells} {front back : List Char} (h : cells.slots = front ++ back) :
    attachedEnd cells back.length front.length =
      front.length + (Slots.attached front.getLast? back).length := by
  induction back generalizing front with
  | nil => simp [attachedEnd, Slots.attached]
  | cons x back ih =>
      rw [List.length_cons, attachedEnd, isAttached_of_slots_eq h, Slots.attached]
      split
      · have hnext : cells.slots = (front ++ [x]) ++ back := by simp [h]
        have := ih hnext
        simp only [List.length_append, List.length_singleton, List.getLast?_concat] at this
        rw [this, List.length_cons]
        omega
      · rfl

/-- The search for the lead ends at one, or at the start of the row. -/
theorem leadBefore_spec (cells : Cells) (col : Nat) :
    leadBefore cells col ≤ col ∧
      (leadBefore cells col = 0 ∨ cells.isAttached (leadBefore cells col) = false) := by
  induction col with
  | zero => exact ⟨Nat.le_refl 0, .inl rfl⟩
  | succ col ih =>
      unfold leadBefore
      split
      · exact ⟨by omega, ih.2⟩
      · next h => exact ⟨by omega, .inr (Bool.eq_false_iff.mpr h)⟩

/-- Blanking the beginning of a wide character whose tail is to be covered. -/
theorem exists_slots_releaseFront {cells : Cells} {front back : List Char} {x : Char} {blank : Cell}
    (h : cells.slots = front ++ x :: back) (hblank : blank.char = ' ') :
    ∃ front', front'.length = front.length ∧
      slots (if cells.line front.length = some wideTail then
        fill cells (leadBefore cells front.length) front.length blank else cells) =
          front' ++ x :: back ∧
      (x ≠ wideTail → front' = front) ∧
      (Slots.Whole cells.slots → x = wideTail → Slots.Whole front') := by
  have hcol := line_of_slots_eq h
  by_cases hx : x = wideTail
  · rw [if_pos (hx ▸ hcol)]
    obtain ⟨hle, hlead⟩ := leadBefore_spec cells front.length
    generalize leadBefore cells front.length = l at hle hlead
    have hsplit : cells.slots = front.take l ++ front.drop l ++ x :: back := by
      rw [List.take_append_drop, h]
    have hfill := slots_fill blank hsplit
    have hstart : (front.take l).length = l := by simp [hle]
    have hstop : l + (front.drop l).length = front.length := by
      rw [List.length_drop]
      omega
    rw [hstart, hstop, hblank] at hfill
    refine ⟨front.take l ++ List.replicate (front.drop l).length ' ', ?_, hfill,
      fun hne => absurd hx hne, fun hrow _ => ?_⟩
    · rw [List.length_append, List.length_replicate, hstart, hstop]
    · have htake : Slots.Whole (front.take l) := by
        rcases hlead with rfl | hlead
        · exact Slots.follows_nil.whole
        · obtain ⟨y, rest, hy⟩ : ∃ y rest, front.drop l ++ x :: back = y :: rest :=
            List.exists_cons_of_ne_nil (by simp)
          rw [List.append_assoc, hy] at hsplit
          have hattached := isAttached_of_slots_eq hsplit
          rw [hstart, hlead] at hattached
          exact ((hsplit ▸ hrow).of_append hattached.symm).1
      exact htake.append (Slots.follows_replicate _)
  · have hne : cells.line front.length ≠ some wideTail := by
      rw [hcol]
      simpa using hx
    rw [if_neg hne]
    exact ⟨front, rfl, h, fun _ => rfl, fun _ htail => absurd htail hx⟩

/-- What is left around slots that a write covers, of which `x` is the first.  Marks behind them go
and in front of them something goes only if `x` is a wide tail. -/
structure Released (front : List Char) (x : Char) (covered back front' back' : List Char) : Prop where
  length_front : front'.length = front.length
  front_eq : x ≠ wideTail → front' = front
  back_eq : ∃ marks rest, back = marks ++ rest ∧ back' = List.replicate marks.length ' ' ++ rest
  whole_front : Slots.Whole (front ++ x :: (covered ++ back)) → x = wideTail → Slots.Whole front'
  follows : Slots.Whole (front ++ x :: (covered ++ back)) → Slots.Follows back'

/-- Releasing what stands behind leaves as many slots. -/
theorem Released.length_back {front covered back front' back' : List Char} {x : Char}
    (h : Released front x covered back front' back') : back'.length = back.length := by
  obtain ⟨marks, rest, rfl, rfl⟩ := h.back_eq
  simp

/-- Blanks behind need not be released. -/
theorem Released.back_eq_replicate {front covered front' back' : List Char} {x : Char} {n : Nat}
    (h : Released front x covered (List.replicate n ' ') front' back') :
    back' = List.replicate n ' ' := by
  obtain ⟨marks, rest, hback, rfl⟩ := h.back_eq
  obtain ⟨-, hmarks, hrest⟩ := List.append_eq_replicate_iff.mp hback.symm
  rw [hback, ← hmarks]

/-- Blanking what a write covers in part.  The slots that the write covers stay for now. -/
theorem exists_slots_releaseCovered {cells : Cells} {front covered back : List Char} {x : Char}
    {blank : Cell} (h : cells.slots = front ++ x :: (covered ++ back)) (hblank : blank.char = ' ') :
    ∃ front' back', Released front x covered back front' back' ∧
      slots (releaseCovered cells front.length (covered.length + 1) blank) =
        front' ++ x :: covered ++ back' := by
  obtain ⟨front', hlen, hfront, hkeep, hwhole⟩ := exists_slots_releaseFront h hblank
  obtain ⟨rest, hrest, hhead⟩ := Slots.exists_eq_attached_append (x :: covered).getLast? back
  generalize hmarks : Slots.attached (x :: covered).getLast? back = marks at hrest hhead
  have hfollows : Slots.Whole cells.slots → Slots.Follows rest := by
    intro hrow
    cases rest with
    | nil => exact Slots.follows_nil
    | cons d rest =>
        have hsplit : cells.slots = (front ++ x :: covered ++ marks) ++ d :: rest := by
          rw [h, hrest]
          simp
        refine ((hsplit ▸ hrow).of_append ?_).2
        rw [List.getLast?_append, List.getLast?_append, List.getLast?_cons, Option.some_or,
          ← List.getLast?_cons]
        exact hhead d rfl
  refine ⟨front', List.replicate marks.length ' ' ++ rest, ?_, ?_⟩
  · rw [h] at hwhole hfollows
    exact ⟨hlen, hkeep, ⟨marks, rest, hrest, rfl⟩, hwhole, fun hrow =>
      (hfollows hrow).replicate_append _⟩
  · have hlength : cells.length = (front' ++ x :: covered).length + back.length := by
      rw [← length_slots, h]
      simp only [List.length_append, List.length_cons, hlen]
      omega
    have hstart : min (front.length + (covered.length + 1)) cells.length =
        (front' ++ x :: covered).length := by
      rw [hlength]
      simp only [List.length_append, List.length_cons, hlen]
      omega
    have hcount : cells.length - (front' ++ x :: covered).length = back.length := by omega
    have hlast : (front' ++ x :: covered).getLast? = (x :: covered).getLast? := by
      simp [List.getLast?_append, List.getLast?_cons]
    have hcol : front.length < cells.length := by
      rw [← length_slots, h]
      simp
    unfold releaseCovered
    rw [if_pos hcol]
    dsimp only
    generalize (if cells.line front.length = some wideTail then
      fill cells (leadBefore cells front.length) front.length blank else cells) = released at hfront
    rw [← List.cons_append, ← List.append_assoc] at hfront
    rw [hstart, hcount, attachedEnd_eq hfront, hlast, hmarks]
    rw [hrest, ← List.append_assoc] at hfront
    rw [slots_fill blank hfront, hblank, List.append_assoc]

/-- A character written there leaves the row whole unless it breaks a wide one. -/
theorem Released.whole_closed_iff {front covered back front' back' : List Char} {x c : Char}
    {p : Option Char} (h : Released front x covered back front' back')
    (hrow : Slots.Whole (front ++ x :: (covered ++ back))) (hlead : extendsPrevious p c = false)
    (hfront : extendsPrevious front.getLast? c = false ∨ covered ++ back = []) :
    Slots.Whole (front' ++ Slots.closed [c] ++ back') ↔
      ¬ Slots.WriteBreaks front x (covered ++ back) := by
  have hfollows : Slots.Follows (Slots.closed [c] ++ back') :=
    (h.follows hrow).closed_append hlead rfl List.not_mem_nil
  rw [List.append_assoc]
  by_cases hx : x = wideTail
  · exact iff_of_true ((h.whole_front hrow hx).append hfollows) fun hbreaks => hbreaks.1 hx
  · rw [h.front_eq hx]
    have hiff := hrow.whole_front_iff hx
    constructor
    · rintro hwhole ⟨-, hbreaks⟩
      rcases hfront with hfront | hnil
      · obtain ⟨more, hmore⟩ : ∃ more, Slots.closed [c] ++ back' = c :: more := by
          rw [Slots.closed]
          split
          · exact ⟨_, rfl⟩
          · exact ⟨_, rfl⟩
        rw [hmore] at hwhole
        exact hiff.mp (hwhole.of_append hfront).1 hbreaks
      · rw [hnil] at hbreaks
        exact absurd hbreaks.2 List.not_mem_nil
    · intro hbreaks
      exact (hiff.mpr fun hin => hbreaks ⟨hx, hin⟩).append hfollows

/-- The cells of a row after a character has been written at `col`. -/
def overwrite (cells : Cells) (col : Nat) (c : Char) (width : Nat) (style : Style) : Cells :=
  let front := cells.set col ⟨c, style⟩
  if width = 2 then front.set (col + 1) ⟨wideTail, style⟩ else front

/-- One slot of the row. -/
theorem slots_set_eq {cells : Cells} {front back : List Char} {x : Char} {i : Nat} (c : Cell)
    (hi : i = front.length) (h : cells.slots = front ++ x :: back) :
    slots (cells.set i c) = front ++ c.char :: back := by
  rw [slots_set, h, hi, List.set_append_right _ _ (Nat.le_refl _), Nat.sub_self,
    List.set_cons_zero]

/-- A wide character and its tail replace two slots, any other one. -/
theorem slots_overwrite {cells : Cells} {front covered back : List Char} {x c : Char} {width : Nat}
    (style : Style) (h : cells.slots = front ++ x :: covered ++ back)
    (hwidth : Text.columns? c = some width) (hcovered : covered.length + 1 = width) :
    slots (overwrite cells front.length c width style) =
      front ++ Slots.closed [c] ++ back := by
  have hfirst : slots (cells.set front.length ⟨c, style⟩) = front ++ c :: (covered ++ back) := by
    refine slots_set_eq ⟨c, style⟩ rfl (x := x) ?_
    rw [h, List.append_assoc, List.cons_append]
  unfold overwrite
  rw [Slots.closed, hwidth]
  by_cases htwo : width = 2
  · obtain ⟨y, rfl⟩ := List.length_eq_one_iff.mp (by omega : covered.length = 1)
    rw [if_pos htwo, if_pos (congrArg some htwo)]
    have hsecond : slots ((cells.set front.length ⟨c, style⟩).set (front.length + 1)
        ⟨wideTail, style⟩) = (front ++ [c]) ++ wideTail :: back := by
      refine slots_set_eq ⟨wideTail, style⟩ (by simp) (x := y) ?_
      rw [hfirst, List.append_assoc]
      rfl
    rw [hsecond]
    simp
  · have hnil := Text.columns?_le_two hwidth
    obtain rfl := List.eq_nil_of_length_eq_zero (by omega : covered.length = 0)
    rw [if_neg htwo, if_neg (by simpa using htwo), hfirst]
    simp

/-- The cells of a row after a character has been attached at `col` to the one before it, whose
style it takes. -/
def attach (cells : Cells) (col : Nat) (c : Char) (style : Style) : Cells :=
  match if col = 0 then none else cells[col - 1]? with
  | some last =>
    if last.isWideTail then (cells.set (col - 1) ⟨c, last.style⟩).set col last
    else cells.set col ⟨c, last.style⟩
  | none => cells.set col ⟨c, style⟩

/-- Attaching to cells is attaching to their slots. -/
theorem slots_attach {cells : Cells} {front back : List Char} {x : Char} (c : Char) (style : Style)
    (h : cells.slots = front ++ x :: back) :
    slots (attach cells front.length c style) = Slots.attach front c back := by
  unfold attach Slots.attach
  cases front using List.reverseRecOn with
  | nil => exact slots_set_eq _ rfl h
  | append_singleton front y =>
      rw [List.append_assoc, List.singleton_append] at h
      have hlast : (cells[front.length]?).map Cell.char = some y := by
        rw [← List.getElem?_map]
        change cells.slots[front.length]? = _
        rw [h, List.getElem?_append_right (Nat.le_refl _), Nat.sub_self]
        rfl
      obtain ⟨last, hcell, rfl⟩ := Option.map_eq_some_iff.mp hlast
      have hlen : (front ++ [last.char]).length = front.length + 1 := by simp
      rw [hlen, if_neg (Nat.succ_ne_zero _), Nat.add_sub_cancel, hcell, List.getLast?_concat,
        List.dropLast_concat]
      dsimp only
      by_cases htail : last.char = wideTail
      · rw [if_pos (by simpa [Cell.isWideTail] using htail), if_pos (congrArg some htail)]
        have hfirst : slots (cells.set front.length ⟨c, last.style⟩) = front ++ c :: x :: back :=
          slots_set_eq _ rfl h
        have hsecond : slots ((cells.set front.length ⟨c, last.style⟩).set (front.length + 1)
            last) = (front ++ [c]) ++ last.char :: back := by
          refine slots_set_eq last (by simp) (x := x) ?_
          rw [hfirst, List.append_assoc]
          rfl
        rw [hsecond, htail, List.append_assoc]
        rfl
      · rw [if_neg (by simpa [Cell.isWideTail] using htail), if_neg (by simpa using htail)]
        refine slots_set_eq ⟨c, last.style⟩ (by simp) (x := x) ?_
        rw [h, List.append_assoc]
        rfl

end Cells

end VideoTerminal
