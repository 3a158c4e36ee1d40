import Mathlib.Algebra.GroupWithZero.Nat
import Mathlib.Data.List.SplitBy
import VideoTerminal.Proofs.Line.Whole

/-!
# Lines of characters

A text is cut before each character that does not belong to the one before it (`Slots.characters`).
A line is a run of such pieces, and shown in a row each takes a slot for every character of the text
and, if it is wide, one for the tail that closes it (`Slots.ofLine`).  A row that shows a line is
whole (`IsLine.follows`), and the columns in front of a slot are those of the pieces that it shows
there (`IsLine.columnsBefore`).

Printing adds to the end of a line: a piece of its own (`characters_concat_of_lead`) or one more mark
to the last (`characters_concat_of_mark`).
-/

namespace VideoTerminal.Slots

/-- The characters of a text, each with what belongs to it. -/
def characters (text : List Char) : List (List Char) :=
  text.splitBy fun a b => extendsPrevious (some a) b

/-- The slots that a line of characters takes. -/
def ofLine (line : List (List Char)) : List Char := line.flatMap closed

/-- Columns of a character, which are those of what leads it. -/
def columns (character : List Char) : Nat := (character.head?.bind Text.columns?).getD 0

/-- The characters of a text spell the text. -/
theorem flatten_characters (text : List Char) : (characters text).flatten = text :=
  List.flatten_splitBy _ text

/-- The last character of a text ends as the text does. -/
theorem exists_characters_eq_concat {text : List Char} (h : text ≠ []) :
    ∃ front g, characters text = front ++ [g] ∧ g ≠ [] ∧ g.getLast? = text.getLast? := by
  obtain ⟨front, g, hsplit⟩ : ∃ front g, characters text = front ++ [g] := by
    have hne : characters text ≠ [] := List.splitBy_ne_nil.mpr h
    exact ⟨_, _, (List.dropLast_append_getLast hne).symm⟩
  have hg : g ≠ [] := List.ne_nil_of_mem_splitBy (hsplit ▸ List.mem_append_right front
    List.mem_cons_self : g ∈ characters text)
  refine ⟨front, g, hsplit, hg, ?_⟩
  have htext := flatten_characters text
  rw [hsplit, List.flatten_append, List.flatten_singleton] at htext
  rw [← htext, List.getLast?_append_of_ne_nil _ hg]

/-! ## Texts that grow -/

/-- What begins a new character adds one. -/
theorem characters_concat_of_lead {text : List Char} {c : Char}
    (h : text = [] ∨ extendsPrevious text.getLast? c = false) :
    characters (text ++ [c]) = characters text ++ [[c]] := by
  refine List.splitBy_append_cons [] fun x hx => ?_
  rw [Option.mem_def] at hx
  rcases h with rfl | h
  · cases hx
  · rw [← hx]
    exact h

/-- Anything else goes to the last one. -/
theorem characters_concat_of_mark {text g : List Char} {front : List (List Char)} {c : Char}
    (h : characters text = front ++ [g]) (hext : extendsPrevious text.getLast? c = true) :
    characters (text ++ [c]) = front ++ [g ++ [c]] := by
  obtain ⟨htext, hnil, hchain, hapart⟩ := List.splitBy_eq_iff.mp h
  have hg : g ≠ [] := by
    rintro rfl
    exact hnil (by simp)
  have hlast : text.getLast? = g.getLast? := by
    rw [htext, List.flatten_append, List.flatten_singleton, List.getLast?_append_of_ne_nil _ hg]
  refine List.splitBy_eq_iff.mpr ⟨?_, ?_, ?_, ?_⟩
  · rw [htext]
    simp
  · simp only [List.mem_append, List.mem_singleton] at hnil ⊢
    simp_all
  · intro m hm
    rcases List.mem_append.mp hm with hm | hm
    · exact hchain m (List.mem_append_left _ hm)
    · rw [List.mem_singleton.mp hm, List.isChain_append]
      refine ⟨hchain g (by simp), List.isChain_singleton c, fun x hx y hy => ?_⟩
      rw [Option.mem_def] at hx
      obtain rfl := Option.some.inj hy
      rw [← hx, ← hlast]
      exact hext
  · rw [List.isChain_append] at hapart ⊢
    refine ⟨hapart.1, List.isChain_singleton _, fun a ha b hb => ?_⟩
    obtain rfl := Option.some.inj hb
    obtain ⟨hne, _, hlead⟩ := hapart.2.2 a ha g rfl
    exact ⟨hne, by simp, by rw [List.head_append_of_ne_nil hg]; exact hlead⟩

/-! ## Lines -/

/-- One character with what belongs to it. -/
structure IsCharacter (g : List Char) : Prop where
  exists_eq_cons : ∃ c marks previous, g = c :: marks ∧ extendsPrevious previous c = false ∧
    attached (some c) marks = marks
  wideTail_not_mem : wideTail ∉ g

/-- `b` does not belong to what is in front of it. -/
def Apart (a b : List Char) : Prop := ∀ c ∈ b.head?, extendsPrevious a.getLast? c = false

/-- A run of characters. -/
structure IsLine (line : List (List Char)) : Prop where
  isCharacter : ∀ g ∈ line, IsCharacter g
  apart : line.IsChain Apart

/-- What does not extend its predecessor is a character of its own. -/
theorem isCharacter_singleton {p : Option Char} {c : Char} (h : extendsPrevious p c = false) :
    IsCharacter [c] where
  exists_eq_cons := ⟨c, [], p, rfl, h, rfl⟩
  wideTail_not_mem := by
    rintro hmem
    obtain rfl := List.mem_singleton.mp hmem
    cases h

/-- A character has its first scalar at least. -/
theorem IsCharacter.ne_nil {g : List Char} (h : IsCharacter g) : g ≠ [] := by
  obtain ⟨c, marks, p, rfl, -⟩ := h.exists_eq_cons
  exact List.cons_ne_nil c marks

/-- A character takes one mark more. -/
theorem IsCharacter.concat {g : List Char} {c : Char} (h : IsCharacter g)
    (hext : extendsPrevious g.getLast? c = true) (hc : c ≠ wideTail) : IsCharacter (g ++ [c]) where
  exists_eq_cons := by
    obtain ⟨lead, marks, p, rfl, hlead, hmarks⟩ := h.exists_eq_cons
    refine ⟨lead, marks ++ [c], p, rfl, hlead, ?_⟩
    refine attached_append_singleton_iff.mpr ⟨hmarks, ?_⟩
    rw [List.getLast?_cons] at hext
    rw [Option.or_some]
    exact hext
  wideTail_not_mem := by
    rw [List.mem_append, List.mem_singleton, not_or]
    exact ⟨h.wideTail_not_mem, Ne.symm hc⟩

namespace IsLine

variable {line front back : List (List Char)} {g : List Char}

/-- A line may be empty. -/
theorem nil : IsLine [] := ⟨by simp, List.isChain_nil⟩

/-- Both parts of a line are lines. -/
theorem of_append (h : IsLine (front ++ back)) : IsLine front ∧ IsLine back := by
  have hapart := List.isChain_append.mp h.apart
  exact ⟨⟨fun g hg => h.isCharacter g (List.mem_append_left _ hg), hapart.1⟩,
    ⟨fun g hg => h.isCharacter g (List.mem_append_right _ hg), hapart.2.1⟩⟩

/-- A line takes one character more, if that stands apart from the last. -/
theorem concat (h : IsLine line) (hg : IsCharacter g) (hapart : ∀ a ∈ line.getLast?, Apart a g) :
    IsLine (line ++ [g]) where
  isCharacter := by
    intro a ha
    rcases List.mem_append.mp ha with ha | ha
    · exact h.isCharacter a ha
    · rw [List.mem_singleton.mp ha]
      exact hg
  apart := by
    refine List.isChain_append.mpr ⟨h.apart, List.isChain_singleton g, fun a ha b hb => ?_⟩
    obtain rfl := Option.some.inj hb
    exact hapart a ha

/-- One more mark at the end. -/
theorem concat_mark {c : Char} (h : IsLine (front ++ [g]))
    (hext : extendsPrevious g.getLast? c = true) (hc : c ≠ wideTail) :
    IsLine (front ++ [g ++ [c]]) := by
  have hg := h.isCharacter g (by simp)
  refine h.of_append.1.concat (hg.concat hext hc) fun a ha d hd => ?_
  rw [List.head?_append_of_ne_nil _ hg.ne_nil] at hd
  exact (List.isChain_append.mp h.apart).2.2 a ha g rfl d hd

end IsLine

/-- The characters of a text make up a line. -/
theorem isLine_characters {text : List Char}
    (hfirst : ∀ c ∈ text.head?, extendsPrevious none c = false) (hfree : wideTail ∉ text) :
    IsLine (characters text) := by
  induction text using List.reverseRecOn with
  | nil => exact IsLine.nil
  | append_singleton text c ih =>
      rw [List.mem_append, List.mem_singleton, not_or] at hfree
      by_cases hnil : text = []
      · subst hnil
        exact IsLine.nil.concat (isCharacter_singleton (hfirst c rfl)) (by simp)
      · have hline : IsLine (characters text) := by
          refine ih (fun d hd => hfirst d ?_) hfree.1
          rw [List.head?_append_of_ne_nil _ hnil]
          exact hd
        obtain ⟨front, g, hsplit, -, hlast⟩ := exists_characters_eq_concat hnil
        cases hc : extendsPrevious text.getLast? c with
        | false =>
            rw [characters_concat_of_lead (.inr hc)]
            refine hline.concat (isCharacter_singleton hc) fun a ha d hd => ?_
            rw [hsplit, List.getLast?_concat] at ha
            obtain rfl := Option.some.inj ha
            obtain rfl := Option.some.inj hd
            rw [hlast]
            exact hc
        | true =>
            rw [characters_concat_of_mark hsplit hc]
            rw [hsplit] at hline
            rw [← hlast] at hc
            exact hline.concat_mark hc (Ne.symm hfree.2)

/-! ## The slots of a line -/

/-- A character takes its own slots, and those of a wide one have a tail behind them. -/
theorem closed_eq_or (g : List Char) : closed g = g ∨ closed g = g ++ [wideTail] := by
  cases g with
  | nil => exact .inl rfl
  | cons c marks =>
      rw [closed]
      split
      · exact .inr rfl
      · exact .inl rfl

/-- The slots of a character begin with its first scalar, and the rest is attached to it. -/
theorem IsCharacter.exists_closed_eq_cons {g : List Char} (h : IsCharacter g) :
    ∃ c rest, closed g = c :: rest ∧ g.head? = some c ∧ attached (some c) rest = rest := by
  obtain ⟨c, marks, p, rfl, -, hmarks⟩ := h.exists_eq_cons
  rw [closed]
  split
  · exact ⟨c, marks ++ [wideTail], rfl, rfl, attached_append_singleton_iff.mpr
      ⟨hmarks, extendsPrevious_wideTail _⟩⟩
  · exact ⟨c, marks, rfl, rfl, hmarks⟩

/-- A character takes a slot at least. -/
theorem IsCharacter.closed_ne_nil {g : List Char} (h : IsCharacter g) : closed g ≠ [] := by
  obtain ⟨c, rest, heq, -⟩ := h.exists_closed_eq_cons
  rw [heq]
  exact List.cons_ne_nil c rest

/-- One mark more takes one slot more. -/
theorem length_closed_concat {g : List Char} (h : g ≠ []) (c : Char) :
    (closed (g ++ [c])).length = (closed g).length + 1 := by
  cases g with
  | nil => exact absurd rfl h
  | cons lead marks =>
      rw [List.cons_append, closed, closed]
      split <;> simp

/-- A character without marks takes as many slots as columns. -/
theorem length_closed_singleton {c : Char} {w : Nat} (h : Text.columns? c = some w) (hpos : 0 < w) :
    (closed [c]).length = w := by
  have htwo := Text.columns?_le_two h
  rw [closed, h]
  split
  · next hw => exact (Option.some.inj hw).symm
  · next hw =>
      have hne : w ≠ 2 := fun heq => hw (congrArg some heq)
      simp only [List.length_singleton]
      omega

@[simp] theorem ofLine_nil : ofLine [] = [] := rfl

/-- The slots of a line are those of its parts, one after the other. -/
@[simp] theorem ofLine_append (front back : List (List Char)) :
    ofLine (front ++ back) = ofLine front ++ ofLine back := List.flatMap_append

/-- A line of one character has the slots of that character. -/
@[simp] theorem ofLine_singleton (g : List Char) : ofLine [g] = closed g := List.flatMap_singleton ..

/-- What stands apart from a character also does so behind its tail. -/
theorem Apart.closed {a b : List Char} {c : Char} (h : Apart a b) (hc : b.head? = some c) :
    extendsPrevious (closed a).getLast? c = false := by
  have hlead := h c hc
  rcases closed_eq_or a with heq | heq
  · rw [heq]
    exact hlead
  · rw [heq, List.getLast?_concat]
    exact extendsPrevious_eq_false_of_ne hlead (by decide)

/-- Tails aside, the slots of a line hold what it is made of. -/
theorem filter_ofLine {keep : Char → Bool} (h : keep wideTail = false) (line : List (List Char)) :
    (ofLine line).filter keep = line.flatten.filter keep := by
  induction line with
  | nil => rfl
  | cons g line ih =>
      have hclosed : (closed g).filter keep = g.filter keep := by
        rcases closed_eq_or g with heq | heq
        · rw [heq]
        · rw [heq, List.filter_append]
          simp [h]
      rw [ofLine, List.flatMap_cons, List.filter_append, hclosed, List.flatten_cons,
        List.filter_append]
      exact congrArg (g.filter keep ++ ·) ih

/-- A row of the given number of slots that shows a line and nothing else. -/
def padded (cols : Nat) (line : List (List Char)) : List Char :=
  ofLine line ++ List.replicate (cols - (ofLine line).length) ' '

/-- Behind a line the rest of the row is blank. -/
theorem padded_eq {cols n : Nat} {line : List (List Char)} (h : (ofLine line).length + n = cols) :
    padded cols line = ofLine line ++ List.replicate n ' ' := by
  rw [padded, ← h, Nat.add_sub_cancel_left]

/-- A line that fits is padded to the width of the row. -/
theorem length_padded {cols : Nat} {line : List (List Char)} (h : (ofLine line).length ≤ cols) :
    (padded cols line).length = cols := by
  rw [padded, List.length_append, List.length_replicate]
  omega

/-- Rows hold what their lines are made of, tails and spaces aside. -/
theorem filter_flatten_padded {keep : Char → Bool} (htail : keep wideTail = false)
    (hspace : keep ' ' = false) (cols : Nat) (lines : List (List (List Char))) :
    (lines.map (padded cols)).flatten.filter keep = lines.flatten.flatten.filter keep := by
  induction lines with
  | nil => rfl
  | cons line lines ih =>
      have hpadded : (padded cols line).filter keep = line.flatten.filter keep := by
        rw [padded, List.filter_append, filter_ofLine htail, List.filter_replicate, hspace]
        simp
      rw [List.map_cons, List.flatten_cons, List.filter_append, hpadded, ih, List.flatten_cons,
        List.flatten_append, List.filter_append]

namespace IsLine

variable {line : List (List Char)} {g : List Char}

/-- A line that is not empty takes slots. -/
theorem ofLine_ne_nil (h : IsLine line) (hne : line ≠ []) : ofLine line ≠ [] := by
  obtain ⟨g, line, rfl⟩ := List.exists_cons_of_ne_nil hne
  rw [ofLine, List.flatMap_cons]
  exact List.append_ne_nil_of_left_ne_nil (h.isCharacter g (by simp)).closed_ne_nil _

/-- Each of the lines into which a line is cut. -/
theorem of_flatten {lines : List (List (List Char))} (h : IsLine lines.flatten)
    (hline : line ∈ lines) : IsLine line := by
  obtain ⟨front, back, rfl⟩ := List.append_of_mem hline
  rw [List.flatten_append, List.flatten_cons] at h
  exact h.of_append.2.of_append.1

/-- Behind the slots of a line another character begins. -/
theorem extendsPrevious_eq_false {c : Char} (h : IsLine (line ++ [g])) (hc : g.head? = some c) :
    extendsPrevious (ofLine line).getLast? c = false := by
  cases line using List.reverseRecOn with
  | nil =>
      obtain ⟨lead, marks, p, rfl, hlead, -⟩ := (h.isCharacter g (by simp)).exists_eq_cons
      obtain rfl := Option.some.inj hc
      exact extendsPrevious_eq_false_of_ne hlead (by simp)
  | append_singleton line a =>
      rw [ofLine_append, ofLine_singleton,
        List.getLast?_append_of_ne_nil _ (h.isCharacter a (by simp)).closed_ne_nil]
      exact ((List.isChain_append.mp h.apart).2.2 a (by simp) g rfl).closed hc

/-- A line may stand behind any complete character. -/
theorem follows (h : IsLine line) {rest : List Char} (hrest : Follows rest) :
    Follows (ofLine line ++ rest) := by
  induction line with
  | nil => exact hrest
  | cons g line ih =>
      obtain ⟨c, marks, p, rfl, hlead, hmarks⟩ := (h.isCharacter g (by simp)).exists_eq_cons
      have hfree := (h.isCharacter (c :: marks) (by simp)).wideTail_not_mem
      rw [List.mem_cons, not_or] at hfree
      rw [ofLine, List.flatMap_cons, List.append_assoc]
      have htail : IsLine line := (show IsLine ([c :: marks] ++ line) from h).of_append.2
      exact (ih htail).closed_append hlead hmarks hfree.2

/-- A padded line is whole. -/
theorem whole_padded (h : IsLine line) (cols : Nat) : Whole (padded cols line) :=
  (h.follows (follows_replicate _)).whole

/-- What is attached behind the slots of a line belongs to its last character. -/
theorem scalarBefore_eq (h : IsLine (line ++ [g])) :
    scalarBefore (ofLine (line ++ [g])) = g.getLast? := by
  have hg := h.isCharacter g (by simp)
  have hlast : g.getLast? ≠ some wideTail := fun htail =>
    hg.wideTail_not_mem (List.mem_of_getLast? htail)
  rw [ofLine_append, ofLine_singleton]
  unfold scalarBefore
  rcases closed_eq_or g with heq | heq
  · rw [heq, List.getLast?_append_of_ne_nil _ hg.ne_nil, if_neg hlast]
  · rw [heq, ← List.append_assoc, List.getLast?_concat, if_pos rfl, List.dropLast_concat,
      List.getLast?_append_of_ne_nil _ hg.ne_nil]

/-- Attaching behind the slots of a line gives those of a line with one more mark. -/
theorem attach_eq (h : IsLine (line ++ [g])) (c : Char) (back : List Char) :
    attach (ofLine (line ++ [g])) c back = ofLine (line ++ [g ++ [c]]) ++ back := by
  have hg := h.isCharacter g (by simp)
  obtain ⟨lead, marks, p, rfl, hlead, hmarks⟩ := hg.exists_eq_cons
  have hlast : (lead :: marks).getLast? ≠ some wideTail := fun htail =>
    hg.wideTail_not_mem (List.mem_of_getLast? htail)
  rw [ofLine_append, ofLine_append, ofLine_singleton, ofLine_singleton, List.cons_append]
  unfold attach
  rw [closed, closed]
  split
  · rw [← List.cons_append, ← List.append_assoc, List.getLast?_concat, if_pos rfl,
      List.dropLast_concat]
    simp
  · rw [List.getLast?_append_of_ne_nil _ (List.cons_ne_nil lead marks), if_neg hlast]
    simp

end IsLine

/-! ## The columns of a line -/

/-- Columns of the characters that begin in some slots, behind a given one. -/
def leadColumns (previous : Option Char) : List Char → Nat
  | [] => 0
  | c :: rest =>
    (if extendsPrevious previous c then 0 else if Text.columns? c = some 2 then 2 else 1) +
      leadColumns (some c) rest

/-- Columns are counted in one part and then in the other. -/
theorem leadColumns_append (previous : Option Char) (front back : List Char) :
    leadColumns previous (front ++ back) =
      leadColumns previous front + leadColumns (front.getLast?.or previous) back := by
  induction front generalizing previous with
  | nil => simp [leadColumns]
  | cons c front ih =>
      rw [List.cons_append, leadColumns, leadColumns, ih, getLast?_cons_or, Nat.add_assoc]

/-- What is attached takes no columns. -/
theorem leadColumns_of_attached {previous : Option Char} {marks : List Char}
    (h : attached previous marks = marks) : leadColumns previous marks = 0 := by
  induction marks generalizing previous with
  | nil => rfl
  | cons c marks ih =>
      rw [attached] at h
      split at h
      · next hext => rw [leadColumns, if_pos hext, ih (List.cons.inj h).2]
      · cases h

/-- A tail that belongs to a character shows that it is wide. -/
theorem closingWidth_ofList (front back : List Char) :
    (Line.ofList (front ++ back)).closingWidth back.length front.length =
      if wideTail ∈ attached front.getLast? back then 2 else 1 := by
  induction back generalizing front with
  | nil => simp [Line.closingWidth, attached]
  | cons x back ih =>
      have hslot : Line.ofList (front ++ x :: back) front.length = some x := by
        simp [Line.ofList]
      rw [List.length_cons, Line.closingWidth, hslot, Line.isStructural_ofList, attached]
      by_cases hx : x = wideTail
      · simp [hx, extendsPrevious_wideTail]
      · rw [if_neg (by simpa using hx)]
        have hnext := ih (front ++ [x])
        rw [List.append_assoc, List.singleton_append, List.length_append, List.length_singleton,
          List.getLast?_concat] at hnext
        split
        · rw [hnext]
          simp [Ne.symm hx]
        · simp

/-- In a whole row the slots have the widths of their characters. -/
theorem Whole.slotWidth_eq {front back : List Char} {x : Char} (h : Whole (front ++ x :: back)) :
    (Line.ofList (front ++ x :: back)).slotWidth (front ++ x :: back).length front.length =
      leadColumns front.getLast? [x] := by
  rw [Line.slotWidth, Line.isStructural_ofList, leadColumns, leadColumns, Nat.add_zero]
  cases hlead : extendsPrevious front.getLast? x with
  | true => rfl
  | false =>
      have hclosing := closingWidth_ofList (front ++ [x]) back
      rw [List.append_assoc, List.singleton_append, List.length_append, List.length_singleton,
        List.getLast?_concat] at hclosing
      have hcount : (front ++ x :: back).length - (front.length + 1) = back.length := by
        simp
        omega
      have hcomplete := h.lead front x back rfl hlead
      rw [if_neg Bool.false_ne_true, if_neg Bool.false_ne_true, Line.characterWidth, hcount,
        hclosing]
      unfold Complete at hcomplete
      split at hcomplete
      · next hwide =>
          obtain ⟨marks, hmarks, -⟩ := hcomplete
          rw [if_pos hwide, hmarks, if_pos (by simp)]
      · next hnarrow => rw [if_neg hnarrow, if_neg hcomplete]

/-- In a whole row the columns before a slot are those of the characters that begin there. -/
theorem Whole.columnsBefore_eq {front back : List Char} (h : Whole (front ++ back)) :
    (Line.ofList (front ++ back)).columnsBefore (front ++ back).length front.length =
      leadColumns none front := by
  induction front using List.reverseRecOn generalizing back with
  | nil => rfl
  | append_singleton front x ih =>
      rw [List.append_assoc, List.singleton_append] at h ⊢
      have hlen : (front ++ [x]).length = front.length + 1 := by simp
      rw [hlen, Line.columnsBefore, ih h, h.slotWidth_eq, leadColumns_append, Option.or_none]

/-- A character takes the columns of its first scalar. -/
theorem leadColumns_closed {p : Option Char} {g : List Char} {c : Char} (hg : IsCharacter g)
    (hc : g.head? = some c) (hlead : extendsPrevious p c = false)
    (hwidth : (Text.columns? c).isSome) : leadColumns p (closed g) = columns g := by
  obtain ⟨lead, rest, hclosed, hhead, hrest⟩ := hg.exists_closed_eq_cons
  obtain rfl : c = lead := Option.some.inj (hc.symm.trans hhead)
  obtain ⟨w, hw⟩ := Option.isSome_iff_exists.mp hwidth
  have htwo := Text.columns?_le_two hw
  have hpos : w ≠ 0 := by
    rintro rfl
    simp [extendsPrevious_of_columns?_eq_zero hw] at hlead
  rw [hclosed, leadColumns, leadColumns_of_attached hrest, hlead, columns, hhead,
    Option.bind_some, hw]
  simp only [Bool.false_eq_true, if_false, Option.some.injEq, Option.getD_some]
  split <;> omega

/-- The columns of a line are those of its characters. -/
theorem IsLine.leadColumns_eq {line : List (List Char)} (h : IsLine line)
    (hwidth : ∀ g ∈ line, ∀ c ∈ g, (Text.columns? c).isSome) :
    leadColumns none (ofLine line) = (line.map columns).sum := by
  induction line using List.reverseRecOn with
  | nil => rfl
  | append_singleton line g ih =>
      have hg := h.isCharacter g (by simp)
      obtain ⟨c, hc⟩ : ∃ c, g.head? = some c :=
        ⟨g.head hg.ne_nil, List.head?_eq_some_head hg.ne_nil⟩
      rw [ofLine_append, ofLine_singleton, leadColumns_append, Option.or_none,
        ih h.of_append.1 fun a ha => hwidth a (List.mem_append_left _ ha),
        leadColumns_closed hg hc (h.extendsPrevious_eq_false hc)
          (hwidth g (by simp) c (List.mem_of_head? hc))]
      simp

end VideoTerminal.Slots
