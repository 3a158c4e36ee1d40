import Mathlib.Data.List.Induction
import VideoTerminal.Line

/-!
# Whole characters in a row

A row of slots is *whole* if each wide character that it shows has its wide tail, as the last of the
slots that belong to it, and no other character has one (`Slots.Whole`).

Whether a row is whole is found by reading it once from the left, and it is enough to remember how
far the last character has come (`Glyph`): a wide one still owes its tail, or it has it, or there is
none to come.  Reading is what makes it possible to put rows together (`Glyph.read_append`): where a
character is complete, whatever begins with a new one may follow (`Slots.Follows`).
-/

namespace VideoTerminal

/-! ## What belongs to the character before it -/

/-- A tail belongs to what stands before it. -/
theorem extendsPrevious_wideTail (previous : Option Char) :
    extendsPrevious previous wideTail = true := rfl

/-- A blank stands for itself. -/
theorem extendsPrevious_space (previous : Option Char) : extendsPrevious previous ' ' = false := rfl

/-- The two signs take a column where they stand alone. -/
theorem columns?_sign {c : Char} (h : (c == '\u2640' || c == '\u2642') = true) :
    Text.columns? c = some 1 := by
  rcases Bool.or_eq_true_iff.mp h with h | h
  · rw [eq_of_beq h]
    decide +kernel
  · rw [eq_of_beq h]
    decide +kernel

/-- Only for the two signs does the slot before matter, and only a joiner there. -/
theorem eq_joiner_of_extendsPrevious {p q : Option Char} {c : Char}
    (hp : extendsPrevious p c = true) (hq : extendsPrevious q c = false) :
    p = some zeroWidthJoiner ∧ Text.columns? c = some 1 := by
  unfold extendsPrevious at hp hq
  split at hp
  · simp_all
  · split at hp
    · simp_all
    · split at hp
      · next hsign => exact ⟨eq_of_beq hp, columns?_sign hsign⟩
      · simp_all

/-- What extends one scalar only behind a joiner does not extend another. -/
theorem extendsPrevious_eq_false_of_ne {p q : Option Char} {c : Char}
    (hp : extendsPrevious p c = false) (hq : q ≠ some zeroWidthJoiner) :
    extendsPrevious q c = false :=
  Bool.eq_false_iff.mpr fun h => hq (eq_joiner_of_extendsPrevious h hp).1

/-- What extends a scalar that is no joiner extends any scalar. -/
theorem extendsPrevious_eq_true_of_ne {p : Option Char} {c : Char}
    (hp : extendsPrevious p c = true) (hne : p ≠ some zeroWidthJoiner) (q : Option Char) :
    extendsPrevious q c = true := by
  cases hq : extendsPrevious q c with
  | true => rfl
  | false => exact absurd (eq_joiner_of_extendsPrevious hp hq).1 hne

/-- What takes no columns extends what stands before it. -/
theorem extendsPrevious_of_columns?_eq_zero {c : Char} (h : Text.columns? c = some 0)
    (previous : Option Char) : extendsPrevious previous c = true := by
  unfold extendsPrevious
  split
  · rfl
  · split
    · rfl
    · split
      · next hsign => simp [columns?_sign hsign] at h
      · simp [(Text.columns?_eq_zero_iff c).mp h]

namespace Line

/-- Before the second part stands the last scalar of the first. -/
theorem before?_ofList (front back : List Char) :
    (ofList (front ++ back)).before? front.length = front.getLast? := by
  cases front using List.reverseRecOn with
  | nil => rfl
  | append_singleton front y => simp [before?, ofList]

/-- A slot takes no column if its scalar extends the one before it. -/
theorem isStructural_ofList (front back : List Char) (x : Char) :
    (ofList (front ++ x :: back)).isStructural front.length =
      extendsPrevious front.getLast? x := by
  have hslot : ofList (front ++ x :: back) front.length = some x := by simp [ofList]
  rw [isStructural, hslot, before?_ofList]

end Line

namespace Slots

/-- The first of a list stands before the rest of it. -/
theorem getLast?_cons_or {α : Type} (c : α) (rest : List α) (previous : Option α) :
    (c :: rest).getLast?.or previous = rest.getLast?.or (some c) := by
  cases rest <;> simp [List.getLast?_cons]

/-- The slots at the start that belong to the character before them. -/
def attached (previous : Option Char) : List Char → List Char
  | [] => []
  | c :: rest => if extendsPrevious previous c then c :: attached (some c) rest else []

/-- Behind them a new character begins, if there is anything more. -/
theorem exists_eq_attached_append (previous : Option Char) (slots : List Char) :
    ∃ rest, slots = attached previous slots ++ rest ∧
      ∀ c ∈ rest.head?,
        extendsPrevious ((attached previous slots).getLast?.or previous) c = false := by
  induction slots generalizing previous with
  | nil => exact ⟨[], rfl, by simp⟩
  | cons d slots ih =>
      rw [attached]
      split
      · obtain ⟨rest, hrest, hlead⟩ := ih (some d)
        refine ⟨rest, congrArg (d :: ·) hrest, ?_⟩
        rw [getLast?_cons_or]
        exact hlead
      · next hd => exact ⟨d :: slots, rfl, by simpa using hd⟩

/-- One scalar more is attached if those before it are and it extends the last of them. -/
theorem attached_append_singleton_iff {previous : Option Char} {marks : List Char} {c : Char} :
    attached previous (marks ++ [c]) = marks ++ [c] ↔
      attached previous marks = marks ∧ extendsPrevious (marks.getLast?.or previous) c = true := by
  induction marks generalizing previous with
  | nil =>
      cases h : extendsPrevious previous c <;> simp [attached, h]
  | cons d marks ih =>
      rw [getLast?_cons_or, List.cons_append, attached, attached]
      cases h : extendsPrevious previous d <;> simp [ih]

/-- Some character is the last one of a row; only if it fills the row may it belong to another. -/
theorem exists_last_character {slots : List Char} (h : slots ≠ []) :
    ∃ front lead marks, slots = front ++ lead :: marks ∧ attached (some lead) marks = marks ∧
      (front = [] ∨ extendsPrevious front.getLast? lead = false) := by
  induction slots using List.reverseRecOn with
  | nil => exact absurd rfl h
  | append_singleton slots c ih =>
      cases hc : extendsPrevious slots.getLast? c with
      | false => exact ⟨slots, c, [], rfl, rfl, .inr hc⟩
      | true =>
          by_cases hnil : slots = []
          · exact ⟨[], c, [], by rw [hnil], rfl, .inl rfl⟩
          · obtain ⟨front, lead, marks, rfl, hmarks, hlead⟩ := ih hnil
            refine ⟨front, lead, marks ++ [c], by simp, ?_, hlead⟩
            refine attached_append_singleton_iff.mpr ⟨hmarks, ?_⟩
            rw [List.getLast?_append, List.getLast?_cons, Option.some_or] at hc
            rw [Option.or_some]
            exact hc

/-- Whether the slots that belong to a character complete it: those of a wide one end with a wide
tail, and there is no other tail. -/
def Complete (c : Char) (marks : List Char) : Prop :=
  if Text.columns? c = some 2 then ∃ front, marks = front ++ [wideTail] ∧ wideTail ∉ front
  else wideTail ∉ marks

/-- Every character of the row has the tail that is due to it, and no slot has another. -/
structure Whole (slots : List Char) : Prop where
  /-- Slots at the start may belong to no character. -/
  start : wideTail ∉ attached none slots
  lead : ∀ before c after, slots = before ++ c :: after →
    extendsPrevious before.getLast? c = false → Complete c (attached (some c) after)

end Slots

/-- How far the character that was begun last has come. -/
inductive Glyph
  /-- No tail is due to it. -/
  | narrow
  /-- Its tail is still to come. -/
  | unfinished
  /-- It has its tail. -/
  | finished
  deriving DecidableEq, Repr

namespace Glyph

/-- What a character begins. -/
def begin (c : Char) : Glyph := if Text.columns? c = some 2 then .unfinished else .narrow

/-- Reads one slot; none if a tail is missing before it or is one too many. -/
def next (previous : Option Char) (g : Glyph) (c : Char) : Option Glyph :=
  if extendsPrevious previous c then
    match g with
    | .narrow => if c = wideTail then none else some .narrow
    | .unfinished => some (if c = wideTail then .finished else .unfinished)
    | .finished => none
  else if g = .unfinished then none
  else some (begin c)

/-- Reads slots from left to right. -/
def read (previous : Option Char) (g : Glyph) : List Char → Option Glyph
  | [] => some g
  | c :: rest => (g.next previous c).bind fun g => g.read (some c) rest

/-- Slots can be read to their end, and no tail is missing there. -/
def Accepts (previous : Option Char) (g : Glyph) (slots : List Char) : Prop :=
  ∃ g', g.read previous slots = some g' ∧ g' ≠ .unfinished

/-- Slots are read in one part and then in the other. -/
theorem read_append (previous : Option Char) (g : Glyph) (front back : List Char) :
    g.read previous (front ++ back) =
      (g.read previous front).bind fun g' => g'.read (front.getLast?.or previous) back := by
  induction front generalizing previous g with
  | nil => rfl
  | cons c front ih =>
      rw [List.cons_append, read, read, Slots.getLast?_cons_or]
      cases g.next previous c with
      | none => rfl
      | some g' => exact ih (some c) g'

/-- Behind these a new character may begin: no tail is missing. -/
structure Settled (previous : Option Char) (g : Glyph) : Prop where
  ne_unfinished : g ≠ .unfinished
  previous_eq : g = .finished → previous = some wideTail

/-- A narrow character has all it needs. -/
theorem settled_narrow (previous : Option Char) : Settled previous .narrow where
  ne_unfinished := by decide
  previous_eq := by simp

/-- A wide character has all it needs once its tail is there. -/
theorem settled_finished : Settled (some wideTail) .finished where
  ne_unfinished := by decide
  previous_eq := fun _ => rfl

/-- Only a tail finishes a wide character. -/
theorem next_eq_some_finished {previous : Option Char} {g : Glyph} {c : Char}
    (h : g.next previous c = some .finished) : c = wideTail := by
  unfold next at h
  split at h
  · cases g <;> simp_all
  · split at h
    · cases h
    · unfold begin at h
      split at h <;> cases h

/-- A character that has its tail ends with it. -/
theorem getLast?_of_read_finished {previous : Option Char} {g : Glyph} {slots : List Char}
    (h : g.read previous slots = some .finished) :
    slots = [] ∧ g = .finished ∨ slots.getLast? = some wideTail := by
  induction slots using List.reverseRecOn with
  | nil => exact .inl ⟨rfl, Option.some.inj h⟩
  | append_singleton front c =>
      rw [read_append] at h
      obtain ⟨g', -, hnext⟩ := Option.bind_eq_some_iff.mp h
      obtain ⟨g'', hc, hnil⟩ := Option.bind_eq_some_iff.mp hnext
      obtain rfl := Option.some.inj hnil
      rw [next_eq_some_finished hc, List.getLast?_concat]
      exact .inr rfl

/-- Where no tail is missing, what has been read is settled. -/
theorem settled_of_read {previous : Option Char} {g g' : Glyph} {slots : List Char}
    (h : g.Settled previous) (hread : g.read previous slots = some g') (hne : g' ≠ .unfinished) :
    g'.Settled (slots.getLast?.or previous) := by
  refine ⟨hne, ?_⟩
  rintro rfl
  rcases getLast?_of_read_finished hread with ⟨rfl, rfl⟩ | hlast
  · exact h.previous_eq rfl
  · rw [hlast, Option.some_or]

/-- Slots are accepted if the first is, and the rest behind it. -/
theorem accepts_cons {previous : Option Char} {g : Glyph} {c : Char} {rest : List Char} :
    g.Accepts previous (c :: rest) ↔
      ∃ g', g.next previous c = some g' ∧ g'.Accepts (some c) rest := by
  simp only [Accepts, read, Option.bind_eq_some_iff]
  constructor
  · rintro ⟨g', ⟨g'', hnext, hread⟩, hne⟩
    exact ⟨g'', hnext, g', hread, hne⟩
  · rintro ⟨g'', hnext, g', hread, hne⟩
    exact ⟨g', ⟨g'', hnext, hread⟩, hne⟩

/-- Slots are accepted if the first part is read, and the second accepted behind it. -/
theorem accepts_append {previous : Option Char} {g : Glyph} {front back : List Char} :
    g.Accepts previous (front ++ back) ↔
      ∃ g', g.read previous front = some g' ∧ g'.Accepts (front.getLast?.or previous) back := by
  simp only [Accepts, read_append, Option.bind_eq_some_iff]
  constructor
  · rintro ⟨g', ⟨g'', hfront, hread⟩, hne⟩
    exact ⟨g'', hfront, g', hread, hne⟩
  · rintro ⟨g'', hfront, g', hread, hne⟩
    exact ⟨g', ⟨g'', hfront, hread⟩, hne⟩

/-- The slots that complete a character that has come so far. -/
def Due : Glyph → List Char → Prop
  | .narrow, marks => wideTail ∉ marks
  | .unfinished, marks => ∃ front, marks = front ++ [wideTail] ∧ wideTail ∉ front
  | .finished, marks => marks = []

/-- What is due behind a first scalar is what completes its character. -/
theorem due_begin_iff {c : Char} {marks : List Char} :
    (begin c).Due marks ↔ Slots.Complete c marks := by
  unfold begin Slots.Complete
  split <;> rfl

/-- Nothing more is due, unless a wide character waits for its tail. -/
theorem due_nil_iff {g : Glyph} : g.Due [] ↔ g ≠ .unfinished := by
  cases g <;> simp [Due]

/-- A mark is due if it can be read and the rest is due behind it. -/
theorem due_cons_iff {previous : Option Char} {g : Glyph} {c : Char} {marks : List Char}
    (h : extendsPrevious previous c = true) :
    g.Due (c :: marks) ↔ ∃ g', g.next previous c = some g' ∧ g'.Due marks := by
  unfold next
  rw [if_pos h]
  cases g with
  | narrow =>
      by_cases hc : c = wideTail
      · simp [Due, hc]
      · simp [Due, hc, Ne.symm hc]
  | unfinished =>
      simp only [Option.some.injEq, exists_eq_left']
      constructor
      · rintro ⟨front, heq, hfree⟩
        cases front with
        | nil =>
            obtain ⟨rfl, rfl⟩ : c = wideTail ∧ marks = [] := by simpa using heq
            rfl
        | cons d front =>
            obtain ⟨rfl, rfl⟩ : c = d ∧ marks = front ++ [wideTail] := by simpa using heq
            rw [List.mem_cons, not_or] at hfree
            rw [if_neg (Ne.symm hfree.1)]
            exact ⟨front, rfl, hfree.2⟩
      · by_cases hc : c = wideTail
        · rw [if_pos hc]
          rintro rfl
          exact ⟨[], by rw [hc]; rfl, List.not_mem_nil⟩
        · rw [if_neg hc]
          rintro ⟨front, rfl, hfree⟩
          exact ⟨c :: front, rfl, by simp [hfree, Ne.symm hc]⟩
  | finished => simp [Due]

/-- Reading finds out whether all characters are complete. -/
theorem accepts_iff {previous : Option Char} {g : Glyph} {slots : List Char} :
    g.Accepts previous slots ↔
      g.Due (Slots.attached previous slots) ∧
        ∀ before c after, slots = before ++ c :: after →
          extendsPrevious (before.getLast?.or previous) c = false →
          Slots.Complete c (Slots.attached (some c) after) := by
  induction slots generalizing previous g with
  | nil => simp [Slots.attached, due_nil_iff, Accepts, read]
  | cons d slots ih =>
      -- The first slot, and the slots after it.
      have hsplit : (∀ before c after, d :: slots = before ++ c :: after →
            extendsPrevious (before.getLast?.or previous) c = false →
            Slots.Complete c (Slots.attached (some c) after)) ↔
          (extendsPrevious previous d = false →
            Slots.Complete d (Slots.attached (some d) slots)) ∧
          ∀ before c after, slots = before ++ c :: after →
            extendsPrevious (before.getLast?.or (some d)) c = false →
            Slots.Complete c (Slots.attached (some c) after) := by
        constructor
        · intro hall
          refine ⟨hall [] d slots rfl, fun before c after heq hlead => ?_⟩
          refine hall (d :: before) c after (by rw [heq]; rfl) ?_
          rw [Slots.getLast?_cons_or]
          exact hlead
        · rintro ⟨hfirst, hrest⟩ before c after heq hlead
          cases before with
          | nil =>
              obtain ⟨rfl, rfl⟩ := List.cons.inj heq
              exact hfirst hlead
          | cons e before =>
              obtain ⟨rfl, rfl⟩ := List.cons.inj heq
              rw [Slots.getLast?_cons_or] at hlead
              exact hrest before c after rfl hlead
      rw [hsplit, accepts_cons]
      by_cases hd : extendsPrevious previous d = true
      · rw [Slots.attached, if_pos hd, due_cons_iff hd]
        simp only [ih, hd, Bool.true_eq_false, false_implies, true_and, ← and_assoc,
          exists_and_right]
      · have hlead := Bool.eq_false_iff.mpr hd
        rw [Slots.attached, if_neg hd, due_nil_iff, ← due_begin_iff]
        simp only [next, hlead, Bool.false_eq_true, if_false, forall_const]
        by_cases hg : g = .unfinished
        · simp [hg]
        · simp [hg, ih]

/-- What is attached at the start of accepted slots is due there. -/
theorem Accepts.due {previous : Option Char} {g : Glyph} {slots : List Char}
    (h : g.Accepts previous slots) : g.Due (Slots.attached previous slots) :=
  (accepts_iff.mp h).1

/-- A wide character that is not finished is due a tail. -/
theorem due_unfinished {marks : List Char} (h : Due .unfinished marks) : wideTail ∈ marks := by
  obtain ⟨front, rfl, -⟩ := h
  exact List.mem_append_right front List.mem_cons_self

/-- Where no tail is missing a new character begins as anywhere else. -/
theorem next_of_settled {p previous : Option Char} {g : Glyph} {c : Char}
    (h : g.Settled previous) (hlead : extendsPrevious p c = false) :
    g.next previous c = some (begin c) := by
  cases hc : extendsPrevious previous c with
  | false => simp [next, hc, h.ne_unfinished]
  | true =>
      -- One of the two signs comes to stand behind a joiner, where no character has its tail.
      obtain ⟨rfl, hwidth⟩ := eq_joiner_of_extendsPrevious hc hlead
      have hne : c ≠ wideTail := by
        rintro rfl
        cases hlead
      have hg : g = .narrow := by
        cases g with
        | narrow => rfl
        | unfinished => exact absurd rfl h.ne_unfinished
        | finished => exact absurd (h.previous_eq rfl) (by decide)
      simp [next, hc, hg, hne, begin, hwidth]

/-- A mark may come as long as the tail has not. -/
theorem next_mark {previous : Option Char} {g : Glyph} {c : Char} (hg : g ≠ .finished)
    (hc : c ≠ wideTail) (hext : extendsPrevious previous c = true) :
    g.next previous c = some g := by
  cases g <;> simp_all [next]

/-- Marks other than a tail leave a character as it is. -/
theorem accepts_marks_append {previous : Option Char} {g : Glyph} {marks rest : List Char}
    (hg : g ≠ .finished) (hmarks : Slots.attached previous marks = marks)
    (hfree : wideTail ∉ marks) :
    g.Accepts previous (marks ++ rest) ↔ g.Accepts (marks.getLast?.or previous) rest := by
  induction marks generalizing previous with
  | nil => rfl
  | cons c marks ih =>
      rw [List.mem_cons, not_or] at hfree
      rw [Slots.attached] at hmarks
      split at hmarks
      · next hext =>
          rw [List.cons_append, accepts_cons, Slots.getLast?_cons_or]
          simp only [next_mark hg (Ne.symm hfree.1) hext, Option.some.injEq, exists_eq_left']
          exact ih (List.cons.inj hmarks).2 hfree.2
      · cases hmarks

/-- Where no tail is due, it does not matter which narrow character goes before. -/
theorem Accepts.narrow_congr {p q : Option Char} {slots : List Char}
    (h : Glyph.narrow.Accepts p slots) : Glyph.narrow.Accepts q slots := by
  cases slots with
  | nil => exact h
  | cons d slots =>
      obtain ⟨g, hnext, hrest⟩ := accepts_cons.mp h
      refine accepts_cons.mpr ⟨g, ?_, hrest⟩
      rw [← hnext]
      cases hp : extendsPrevious p d with
      | false => rw [next_of_settled (settled_narrow q) hp, next_of_settled (settled_narrow p) hp]
      | true =>
          cases hq : extendsPrevious q d with
          | false =>
              rw [next_of_settled (settled_narrow q) hq, next_of_settled (settled_narrow p) hq]
          | true => simp [next, hp, hq]

/-- A tail is either due or not. -/
theorem Accepts.not_unfinished {p q : Option Char} {slots : List Char}
    (h : Glyph.narrow.Accepts p slots) : ¬ Glyph.unfinished.Accepts q slots := fun hunfinished =>
  (h.narrow_congr (q := q)).due (due_unfinished hunfinished.due)

/-- A tail that is due comes as long as it belongs to the same character. -/
theorem Accepts.unfinished_iff {p q : Option Char} {slots : List Char}
    (h : Glyph.unfinished.Accepts p slots) :
    Glyph.unfinished.Accepts q slots ↔ wideTail ∈ Slots.attached q slots := by
  constructor
  · exact fun hq => due_unfinished hq.due
  · intro hmem
    have hp := due_unfinished h.due
    cases slots with
    | nil => simp [Slots.attached] at hmem
    | cons d slots =>
        have hpd : extendsPrevious p d = true := by
          by_contra hlead
          simp [Slots.attached, hlead] at hp
        have hqd : extendsPrevious q d = true := by
          by_contra hlead
          simp [Slots.attached, hlead] at hmem
        obtain ⟨g, hnext, hrest⟩ := accepts_cons.mp h
        refine accepts_cons.mpr ⟨g, ?_, hrest⟩
        simpa [next, hpd, hqd] using hnext

/-- A new character begins only where no tail is missing. -/
theorem Accepts.of_lead {previous : Option Char} {g : Glyph} {c : Char} {rest : List Char}
    (h : g.Accepts previous (c :: rest)) (hlead : extendsPrevious previous c = false) :
    g ≠ .unfinished ∧ (begin c).Accepts (some c) rest := by
  obtain ⟨g', hnext, hrest⟩ := accepts_cons.mp h
  unfold next at hnext
  rw [hlead, if_neg Bool.false_ne_true] at hnext
  split at hnext
  · cases hnext
  · next hne =>
      obtain rfl := Option.some.inj hnext
      exact ⟨hne, hrest⟩

/-- Behind a tail a new character begins. -/
theorem Accepts.lead_of_finished {p : Option Char} {c : Char} {rest : List Char}
    (h : Glyph.finished.Accepts p (c :: rest)) : extendsPrevious p c = false := by
  by_contra hext
  obtain ⟨g, hnone, -⟩ := accepts_cons.mp h
  simp [next, hext] at hnone

/-- There, no tail is due. -/
theorem Accepts.not_unfinished_of_finished {p q : Option Char} {slots : List Char}
    (h : Glyph.finished.Accepts p slots) : ¬ Glyph.unfinished.Accepts q slots := by
  intro hlost
  cases slots with
  | nil => exact due_nil_iff.mp hlost.due rfl
  | cons d slots =>
      have hlead := h.lead_of_finished
      have hext : extendsPrevious q d = true := by
        by_contra hnot
        exact (hlost.of_lead (Bool.eq_false_iff.mpr hnot)).1 rfl
      -- One of the two signs would have to go on with the character, and it has no tail.
      have hnarrow := (h.of_lead hlead).2
      rw [begin, (eq_joiner_of_extendsPrevious hext hlead).2, if_neg (by decide)] at hnarrow
      have hd : d ≠ wideTail := by
        rintro rfl
        cases hlead
      obtain ⟨g, hnext, hrest⟩ := accepts_cons.mp hlost
      rw [next_mark (by decide) hd hext] at hnext
      obtain rfl := Option.some.inj hnext
      exact hnarrow.not_unfinished hrest

end Glyph

namespace Slots

/-- Slots are whole exactly if they can be read from the start. -/
theorem whole_iff_accepts {slots : List Char} : Whole slots ↔ Glyph.narrow.Accepts none slots := by
  rw [Glyph.accepts_iff]
  simp only [Option.or_none]
  exact ⟨fun h => ⟨h.start, h.lead⟩, fun h => ⟨h.1, h.2⟩⟩

/-- Slots that may stand behind any complete character. -/
def Follows (slots : List Char) : Prop :=
  ∀ previous (g : Glyph), g.Settled previous → g.Accepts previous slots

theorem follows_nil : Follows [] := fun _ g h => ⟨g, rfl, h.ne_unfinished⟩

/-- The slots of a character and what belongs to it: a wide one is closed by its tail. -/
def closed : List Char → List Char
  | [] => []
  | c :: marks => if Text.columns? c = some 2 then c :: (marks ++ [wideTail]) else c :: marks

/-- Another character, with its marks and the tail that is due to it. -/
theorem Follows.closed_append {slots : List Char} (h : Follows slots) {p : Option Char} {c : Char}
    {marks : List Char} (hlead : extendsPrevious p c = false)
    (hmarks : attached (some c) marks = marks) (hfree : wideTail ∉ marks) :
    Follows (closed (c :: marks) ++ slots) := by
  intro previous g hg
  have hc := Glyph.next_of_settled hg hlead
  unfold Glyph.begin at hc
  rw [closed]
  split
  · next hwide =>
      rw [if_pos hwide] at hc
      rw [List.cons_append, List.append_assoc]
      refine Glyph.accepts_cons.mpr ⟨_, hc, ?_⟩
      rw [Glyph.accepts_marks_append (by decide) hmarks hfree]
      exact Glyph.accepts_cons.mpr ⟨.finished, rfl, h _ _ Glyph.settled_finished⟩
  · next hnarrow =>
      rw [if_neg hnarrow] at hc
      rw [List.cons_append]
      refine Glyph.accepts_cons.mpr ⟨_, hc, ?_⟩
      rw [Glyph.accepts_marks_append (by decide) hmarks hfree]
      exact h _ _ (Glyph.settled_narrow _)

/-- Blanks may follow, and what stands behind them as before. -/
theorem Follows.replicate_append {slots : List Char} (h : Follows slots) (k : Nat) :
    Follows (List.replicate k ' ' ++ slots) := by
  induction k with
  | zero => exact h
  | succ k ih => exact ih.closed_append (extendsPrevious_space none) rfl List.not_mem_nil

/-- Blanks may follow anything. -/
theorem follows_replicate (k : Nat) : Follows (List.replicate k ' ') := by
  have h := follows_nil.replicate_append k
  rw [List.append_nil] at h
  exact h

/-- Whole rows are those that may stand at the start of one. -/
theorem Follows.whole {slots : List Char} (h : Follows slots) : Whole slots :=
  whole_iff_accepts.mpr (h none .narrow (Glyph.settled_narrow none))

/-- Whole slots stay whole in front of what may follow them. -/
theorem Whole.append {front back : List Char} (h : Whole front) (hback : Follows back) :
    Whole (front ++ back) := by
  obtain ⟨g, hread, hne⟩ := whole_iff_accepts.mp h
  exact whole_iff_accepts.mpr (Glyph.accepts_append.mpr
    ⟨g, hread, hback _ g (Glyph.settled_of_read (Glyph.settled_narrow none) hread hne)⟩)

/-- A row may be cut before any character. -/
theorem Whole.of_append {front back : List Char} {c : Char} (h : Whole (front ++ c :: back))
    (hlead : extendsPrevious front.getLast? c = false) : Whole front ∧ Follows (c :: back) := by
  obtain ⟨g, hread, haccepts⟩ := Glyph.accepts_append.mp (whole_iff_accepts.mp h)
  rw [Option.or_none] at haccepts
  obtain ⟨hne, hback⟩ := haccepts.of_lead hlead
  refine ⟨whole_iff_accepts.mpr ⟨g, hread, hne⟩, fun previous g' hg' => ?_⟩
  exact Glyph.accepts_cons.mpr ⟨_, Glyph.next_of_settled hg' hlead, hback⟩

/-- What stands before a slot is whole unless the slot is inside of a wide character whose tail comes
later. -/
theorem Whole.whole_front_iff {front back : List Char} {x : Char} (h : Whole (front ++ x :: back))
    (hx : x ≠ wideTail) :
    Whole front ↔
      ¬ (extendsPrevious front.getLast? x = true ∧ wideTail ∈ attached (some x) back) := by
  cases hext : extendsPrevious front.getLast? x with
  | false => simp [(h.of_append hext).1]
  | true =>
      obtain ⟨g, hread, haccepts⟩ := Glyph.accepts_append.mp (whole_iff_accepts.mp h)
      rw [Option.or_none] at haccepts
      obtain ⟨g', hnext, hback⟩ := Glyph.accepts_cons.mp haccepts
      have hdue := hback.due
      unfold Glyph.next at hnext
      rw [if_pos hext] at hnext
      have hwhole : Whole front ↔ g ≠ .unfinished := by
        rw [whole_iff_accepts, Glyph.Accepts, hread]
        simp
      cases g with
      | narrow =>
          obtain rfl : Glyph.narrow = g' := by simpa [hx] using hnext
          exact iff_of_true (hwhole.mpr (by decide)) (fun hin => hdue hin.2)
      | unfinished =>
          obtain rfl : Glyph.unfinished = g' := by simpa [hx] using hnext
          exact iff_of_false (fun hfront => hwhole.mp hfront rfl)
            (fun hout => hout ⟨rfl, Glyph.due_unfinished hdue⟩)
      | finished => cases hnext

/-! ## Attaching a character -/

/-- The character that a slot behind these would belong to: a wide tail is looked through. -/
def scalarBefore (front : List Char) : Option Char :=
  if front.getLast? = some wideTail then front.dropLast.getLast? else front.getLast?

/-- What the next scalar is attached to is found without looking before the last lead. -/
theorem scalarBefore_append_cons (front marks : List Char) {lead : Char} (h : lead ≠ wideTail) :
    scalarBefore (front ++ lead :: marks) = scalarBefore (lead :: marks) := by
  have hlast : (front ++ lead :: marks).getLast? = (lead :: marks).getLast? := by
    simp [List.getLast?_append, List.getLast?_cons]
  unfold scalarBefore
  rw [hlast]
  split
  · next htail =>
      cases marks using List.reverseRecOn with
      | nil => exact absurd (Option.some.inj htail) h
      | append_singleton marks m =>
          rw [← List.cons_append, ← List.append_assoc, List.dropLast_concat, List.dropLast_concat]
          simp [List.getLast?_append, List.getLast?_cons]
  · rfl

/-- What begins a new character behind some slots also does so where a tail is not looked
through. -/
theorem extendsPrevious_getLast?_eq_false {front : List Char} {c : Char}
    (h : extendsPrevious (scalarBefore front) c = false) :
    extendsPrevious front.getLast? c = false := by
  unfold scalarBefore at h
  split at h
  · next htail =>
      rw [htail]
      exact extendsPrevious_eq_false_of_ne h (by decide)
  · exact h

/-- The row after a character has been attached between these slots: it goes in front of a wide
tail. -/
def attach (front : List Char) (c : Char) (back : List Char) : List Char :=
  if front.getLast? = some wideTail then front.dropLast ++ c :: wideTail :: back
  else front ++ c :: back

/-- Attaching a character over slot `x` breaks a wide character.  Behind a wide tail this is so if
`x` has slots that belong to it, which come to stand behind that tail.  Elsewhere it is so if `x` is
a wide tail; and if a wide tail comes later in the same character, it is so if `x` is where that
character begins or the tail no longer belongs to it. -/
def AttachBreaks (front : List Char) (x : Char) (back : List Char) (c : Char) : Prop :=
  if front.getLast? = some wideTail then attached (some x) back ≠ []
  else x = wideTail ∨ (wideTail ∈ attached (some x) back ∧
    (extendsPrevious front.getLast? x = false ∨ wideTail ∉ attached (some c) back))

/-- Writing a character over slot `x` breaks a wide character if `x` is inside of it and its tail
comes later. -/
def WriteBreaks (front : List Char) (x : Char) (back : List Char) : Prop :=
  x ≠ wideTail ∧ extendsPrevious front.getLast? x = true ∧ wideTail ∈ attached (some x) back

/-- Behind a wide tail. -/
theorem whole_attach_wideTail_iff {front back : List Char} {x c : Char}
    (h : Whole (front ++ wideTail :: x :: back)) (hc : c ≠ wideTail)
    (hext : extendsPrevious front.getLast? c = true) :
    Whole (front ++ c :: wideTail :: back) ↔ attached (some x) back = [] := by
  obtain ⟨g, hread, haccepts⟩ := Glyph.accepts_append.mp (whole_iff_accepts.mp h)
  rw [Option.or_none] at haccepts
  obtain ⟨g', hnext, hx⟩ := Glyph.accepts_cons.mp haccepts
  obtain ⟨rfl, rfl⟩ : g = .unfinished ∧ g' = .finished := by
    cases g <;> simp_all [Glyph.next, extendsPrevious_wideTail]
  have hlead := hx.lead_of_finished
  have hback := (hx.of_lead hlead).2
  have hnew : Whole (front ++ c :: wideTail :: back) ↔
      Glyph.finished.Accepts (some wideTail) back := by
    rw [whole_iff_accepts, Glyph.accepts_append]
    simp only [hread, Option.some.injEq, exists_eq_left', Option.or_none]
    rw [Glyph.accepts_cons]
    simp only [Glyph.next_mark (g := .unfinished) (by decide) hc hext, Option.some.injEq,
      exists_eq_left']
    rw [Glyph.accepts_cons]
    simp [Glyph.next, extendsPrevious_wideTail]
  rw [hnew]
  cases back with
  | nil => exact iff_of_true (follows_nil _ _ Glyph.settled_finished) rfl
  | cons d back =>
      cases hd : extendsPrevious (some x) d with
      | false =>
          have hfollows := Glyph.accepts_cons.mpr ⟨_, Glyph.next_of_settled Glyph.settled_finished hd,
            (hback.of_lead hd).2⟩
          exact iff_of_true hfollows (by simp [attached, hd])
      | true =>
          -- `d` stays attached: `x` is no joiner, since it begins a character.
          have hne : some x ≠ some zeroWidthJoiner := by
            intro hjoiner
            rw [Option.some.inj hjoiner] at hlead
            cases hlead
          have htail := extendsPrevious_eq_true_of_ne hd hne (some wideTail)
          refine iff_of_false (fun hfollows => ?_) (by simp [attached, hd])
          exact absurd htail (Bool.eq_false_iff.mp hfollows.lead_of_finished)

/-- Behind any other slot, or at the start. -/
theorem whole_attach_iff_of_ne {front back : List Char} {x c : Char}
    (h : Whole (front ++ x :: back)) (hc : c ≠ wideTail) (htail : front.getLast? ≠ some wideTail)
    (hext : extendsPrevious front.getLast? c = true) :
    Whole (front ++ c :: back) ↔
      ¬ (x = wideTail ∨ (wideTail ∈ attached (some x) back ∧
        (extendsPrevious front.getLast? x = false ∨ wideTail ∉ attached (some c) back))) := by
  obtain ⟨g, hread, haccepts⟩ := Glyph.accepts_append.mp (whole_iff_accepts.mp h)
  rw [Option.or_none] at haccepts
  have hg : g ≠ .finished := by
    rintro rfl
    rcases Glyph.getLast?_of_read_finished hread with ⟨-, h⟩ | h
    · cases h
    · exact htail h
  have hnew : Whole (front ++ c :: back) ↔ g.Accepts (some c) back := by
    rw [whole_iff_accepts, Glyph.accepts_append]
    simp only [hread, Option.some.injEq, exists_eq_left', Option.or_none]
    rw [Glyph.accepts_cons]
    simp only [Glyph.next_mark hg hc hext, Option.some.injEq, exists_eq_left']
  obtain ⟨g', hnext, hback⟩ := Glyph.accepts_cons.mp haccepts
  rw [hnew]
  by_cases hx : x = wideTail
  · -- The tail of a wide character is lost.
    subst hx
    obtain ⟨rfl, rfl⟩ : g = .unfinished ∧ g' = .finished := by
      cases g <;> simp_all [Glyph.next, extendsPrevious_wideTail]
    exact iff_of_false hback.not_unfinished_of_finished fun hout => hout (.inl rfl)
  · cases hlead : extendsPrevious front.getLast? x with
    | true =>
        rw [Glyph.next_mark hg hx hlead] at hnext
        obtain rfl := Option.some.inj hnext
        cases g with
        | narrow =>
            have hnone : wideTail ∉ attached (some x) back := hback.due
            exact iff_of_true hback.narrow_congr (by simp [hx, hnone])
        | unfinished =>
            have hmem := Glyph.due_unfinished hback.due
            simp [hback.unfinished_iff, hx, hmem]
        | finished => exact absurd rfl hg
    | false =>
        obtain ⟨hne, hbegin⟩ := haccepts.of_lead hlead
        obtain rfl : g = .narrow := by
          cases g <;> simp_all
        unfold Glyph.begin at hbegin
        split at hbegin
        · have hmem := Glyph.due_unfinished hbegin.due
          exact iff_of_false (fun hnarrow => hnarrow.not_unfinished hbegin) (by simp [hmem])
        · have hnone : wideTail ∉ attached (some x) back := hbegin.due
          exact iff_of_true hbegin.narrow_congr (by simp [hx, hnone])

/-- **Attaching a character** keeps a row whole unless it breaks a wide character. -/
theorem Whole.whole_attach_iff {front back : List Char} {x c : Char}
    (h : Whole (front ++ x :: back)) (hc : c ≠ wideTail)
    (hext : extendsPrevious (scalarBefore front) c = true) :
    Whole (attach front c back) ↔ ¬ AttachBreaks front x back c := by
  unfold attach AttachBreaks
  unfold scalarBefore at hext
  split
  · next htail =>
      rw [if_pos htail] at hext
      obtain ⟨front, rfl⟩ := List.getLast?_eq_some_iff.mp htail
      rw [List.dropLast_concat] at hext ⊢
      rw [List.append_assoc, List.singleton_append] at h
      rw [whole_attach_wideTail_iff h hc hext, not_not]
  · next htail =>
      rw [if_neg htail] at hext
      exact whole_attach_iff_of_ne h hc htail hext

end Slots

end VideoTerminal
