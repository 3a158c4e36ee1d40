import VideoTerminal.Proofs.Line.Characters

/-!
# Tails that stand where they belong

A wide tail is only a character that the terminal writes into a slot of its own accord.  What tells
it from one that a program printed is where it stands: it ends the slots of a wide character
(`Slots.TailsClose`).  Then no other character is given two columns
(`TailsClose.characterWidth_eq_one`).

Whole rows have their tails there (`Whole.tailsClose`), and a tail attached to a whole row never
does (`Whole.not_tailsClose_attach`).
-/

namespace VideoTerminal.Slots

/-! ## Slots that belong together -/

/-- Slots behind those that belong to a character belong to it as far as they belong to the last of
these. -/
theorem attached_append {previous : Option Char} {marks : List Char}
    (h : attached previous marks = marks) (back : List Char) :
    attached previous (marks ++ back) = marks ++ attached (marks.getLast?.or previous) back := by
  induction marks generalizing previous with
  | nil => rfl
  | cons c marks ih =>
      rw [attached] at h
      split at h
      · next hc =>
        rw [List.cons_append, attached, if_pos hc, ih (List.cons.inj h).2, getLast?_cons_or]
        rfl
      · cases h

/-- The first of them do. -/
theorem attached_of_append {previous : Option Char} {front back : List Char}
    (h : attached previous (front ++ back) = front ++ back) : attached previous front = front := by
  induction back using List.reverseRecOn with
  | nil => rwa [List.append_nil] at h
  | append_singleton back c ih =>
      rw [← List.append_assoc] at h
      exact ih (attached_append_singleton_iff.mp h).1

/-- Each of them does. -/
theorem extendsPrevious_of_attached {previous : Option Char} {front back : List Char} {c : Char}
    (h : attached previous (front ++ c :: back) = front ++ c :: back) :
    extendsPrevious (front.getLast?.or previous) c = true := by
  rw [List.append_cons] at h
  exact (attached_append_singleton_iff.mp (attached_of_append h)).2

/-- What belongs to a character is all there is to it. -/
theorem attached_attached (previous : Option Char) (slots : List Char) :
    attached previous (attached previous slots) = attached previous slots := by
  induction slots generalizing previous with
  | nil => rfl
  | cons c slots ih =>
      rw [attached]
      split
      · next hc => rw [attached, if_pos hc, ih]
      · rfl

/-- What comes last is the last of what stands behind, if anything does. -/
theorem getLast?_append_cons (front between : List Char) (x : Char) :
    (front ++ x :: between).getLast? = between.getLast?.or (some x) := by
  rw [List.getLast?_append, List.getLast?_cons, Option.some_or, Option.or_some]

/-- Some slots end with one character only. -/
theorem lead_eq_of_append {front front' marks marks' : List Char} {lead lead' : Char}
    (h : front ++ lead :: marks = front' ++ lead' :: marks')
    (hlead : extendsPrevious front.getLast? lead = false)
    (hlead' : extendsPrevious front'.getLast? lead' = false)
    (hmarks : attached (some lead) marks = marks)
    (hmarks' : attached (some lead') marks' = marks') : lead = lead' := by
  rcases List.append_eq_append_iff.mp h with ⟨between, rfl, hback⟩ | ⟨between, rfl, hback⟩
  · cases between with
    | nil => exact (List.cons.inj hback).1
    | cons y between =>
        obtain ⟨rfl, rfl⟩ := List.cons.inj hback
        rw [getLast?_append_cons, extendsPrevious_of_attached hmarks] at hlead'
        cases hlead'
  · cases between with
    | nil => exact (List.cons.inj hback).1.symm
    | cons y between =>
        obtain ⟨rfl, rfl⟩ := List.cons.inj hback
        rw [getLast?_append_cons, extendsPrevious_of_attached hmarks'] at hlead
        cases hlead

/-! ## Tails -/

/-- Some slots end with a wide character, its tail left aside. -/
def EndsWide (slots : List Char) : Prop :=
  ∃ front lead marks, slots = front ++ lead :: marks ∧
    extendsPrevious front.getLast? lead = false ∧ attached (some lead) marks = marks ∧
    Text.columns? lead = some 2

/-- Every wide tail is the last slot of a wide character. -/
def TailsClose (slots : List Char) : Prop :=
  ∀ before after, slots = before ++ wideTail :: after →
    EndsWide before ∧ ∀ c ∈ after.head?, extendsPrevious (some wideTail) c = false

/-- No other character has two columns. -/
theorem TailsClose.characterWidth_eq_one {front back : List Char} {x : Char}
    (h : TailsClose (front ++ x :: back)) (hlead : extendsPrevious front.getLast? x = false)
    (hx : Text.columns? x ≠ some 2) :
    (Line.ofList (front ++ x :: back)).characterWidth front.length (front ++ x :: back).length =
      1 := by
  have hclosing := closingWidth_ofList (front ++ [x]) back
  rw [List.append_assoc, List.singleton_append, List.length_append, List.length_singleton,
    List.getLast?_concat] at hclosing
  have hcount : (front ++ x :: back).length - (front.length + 1) = back.length := by
    rw [List.length_append, List.length_cons]
    omega
  rw [Line.characterWidth, hcount, hclosing, if_neg]
  intro hmem
  -- The tail would close a wide character, and that one would have to be `x`.
  obtain ⟨rest, hrest, -⟩ := exists_eq_attached_append (some x) back
  obtain ⟨marks, more, hsplit⟩ := List.append_of_mem hmem
  have hattached := attached_attached (some x) back
  rw [hsplit] at hattached
  have hmarks := attached_of_append hattached
  obtain ⟨⟨front', lead, marks', heq, hlead', hmarks', hwide⟩, -⟩ :=
    h (front ++ x :: marks) (more ++ rest) (by rw [hrest, hsplit]; simp)
  exact hx (lead_eq_of_append heq hlead hlead' hmarks hmarks' ▸ hwide)

/-- All tails of a row were written by the terminal: each closes a wide character, and no other
character takes two columns. -/
structure OwnTails (slots : List Char) : Prop where
  close : TailsClose slots
  narrow : ∀ front x back, slots = front ++ x :: back → extendsPrevious front.getLast? x = false →
    Text.columns? x ≠ some 2 → (Line.ofList slots).characterWidth front.length slots.length = 1

/-- Where tails close their characters, each is the tail of one. -/
theorem TailsClose.ownTails {slots : List Char} (h : TailsClose slots) : OwnTails slots where
  close := h
  narrow := by
    rintro front x back rfl hlead hx
    exact h.characterWidth_eq_one hlead hx

/-- In a whole row every tail closes a wide character. -/
theorem Whole.tailsClose {slots : List Char} (h : Whole slots) : TailsClose slots := by
  rintro before after rfl
  obtain ⟨front, lead, marks, hsplit, hmarks, hlead⟩ :=
    exists_last_character (by simp : before ++ [wideTail] ≠ [])
  cases marks using List.reverseRecOn with
  | nil =>
      -- A tail leads no character, and at the start of a row there is none to close.
      obtain ⟨rfl, htail⟩ := List.append_inj' hsplit rfl
      obtain rfl := (List.cons.inj htail).1
      rcases hlead with rfl | hlead
      · exact absurd h.start (by simp [attached, extendsPrevious_wideTail])
      · cases hlead
  | append_singleton marks c =>
      rw [← List.cons_append, ← List.append_assoc] at hsplit
      obtain ⟨rfl, htail⟩ := List.append_inj' hsplit rfl
      obtain rfl := (List.cons.inj htail).1
      have hall := attached_append hmarks after
      rw [List.append_assoc, List.singleton_append, List.getLast?_concat, Option.some_or] at hall
      have hraw : extendsPrevious front.getLast? lead = false := by
        refine hlead.elim ?_ id
        rintro rfl
        by_contra hstart
        refine h.start ?_
        rw [List.nil_append, List.cons_append, attached, if_pos (by simpa using hstart), hall]
        simp
      have hcomplete := h.lead front lead (marks ++ wideTail :: after) (by simp) hraw
      rw [hall] at hcomplete
      unfold Complete at hcomplete
      split at hcomplete
      · next hwide =>
        obtain ⟨inner, hinner, hfree⟩ := hcomplete
        refine ⟨⟨front, lead, marks, rfl, hraw, (attached_append_singleton_iff.mp hmarks).1, hwide⟩,
          fun d hd => ?_⟩
        obtain ⟨rest, rfl⟩ := List.head?_eq_some_iff.mp hd
        by_contra hext
        rw [attached, if_pos (by simpa using hext)] at hinner
        -- Another slot behind the tail would make it one of the inner slots.
        refine hfree ?_
        have hdrop := congrArg List.dropLast hinner
        rw [List.dropLast_concat, List.dropLast_append_of_ne_nil (List.cons_ne_nil _ _)] at hdrop
        rw [← hdrop]
        simp
      · exact absurd (by simp : wideTail ∈ marks ++ [wideTail] ++ attached (some wideTail) after)
          hcomplete

/-- A tail put behind the slots of a whole row, as if it were a mark, closes nothing. -/
theorem Whole.not_tailsClose_attach {front : List Char} (h : Whole front) (back : List Char) :
    ¬ TailsClose (attach front wideTail back) := by
  intro hclose
  unfold attach at hclose
  split at hclose
  · next htail =>
    obtain ⟨front, rfl⟩ := List.getLast?_eq_some_iff.mp htail
    rw [List.dropLast_concat] at hclose
    obtain ⟨-, hlast⟩ := hclose front (wideTail :: back) rfl
    cases hlast wideTail rfl
  · next htail =>
    obtain ⟨⟨before, lead, marks, rfl, hlead, hmarks, hwide⟩, -⟩ := hclose front back rfl
    -- A wide character has its tail already.
    have hcomplete := h.lead before lead marks rfl hlead
    rw [hmarks, Complete, if_pos hwide] at hcomplete
    obtain ⟨inner, rfl, -⟩ := hcomplete
    refine htail ?_
    rw [← List.cons_append, ← List.append_assoc, List.getLast?_concat]

/-- What comes behind a row has nothing to do with how a character is attached to it. -/
theorem attach_append (front back : List Char) (c : Char) :
    attach front c [] ++ back = attach front c back := by
  unfold attach
  split <;> simp

end VideoTerminal.Slots
