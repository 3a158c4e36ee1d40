import Mathlib.Data.List.Basic
import VideoTerminal.Proofs.Line.Whole

/-!
# Cutting a row of whole characters

A row is cut between two slots.  The cut splits a wide character if this begins before it and has
its tail behind it (`Slots.Splits`); of a whole row, then, neither side is whole, and else both are
(`Whole.whole_left_iff`, `Whole.whole_right_iff`).

From this follows when the edits of a row keep it whole: blanking some slots
(`Whole.whole_erase_iff`), moving some to the right (`Whole.whole_insert_iff`) or taking some out
(`Whole.whole_delete_iff`), and cutting the row off (`Whole.whole_truncate_iff`).  Only where slots
are taken out do two sides meet that were apart, and a wide character that has lost its tail may
find another one there.
-/

namespace VideoTerminal

namespace Glyph

/-- Where a row goes on, a tail is to come if a wide character has been left without one. -/
theorem Accepts.wideTail_mem_attached_iff {p : Option Char} {g : Glyph} {slots : List Char}
    (h : g.Accepts p slots) : wideTail ∈ Slots.attached p slots ↔ g = .unfinished := by
  have hdue := h.due
  cases g with
  | narrow => exact iff_of_false hdue (by decide)
  | unfinished => exact iff_of_true (due_unfinished hdue) rfl
  | finished =>
      refine iff_of_false ?_ (by decide)
      rw [show Slots.attached p slots = [] from hdue]
      exact List.not_mem_nil

/-- What may stand behind a complete character may stand behind a narrow one. -/
theorem Accepts.narrow_of_ne_unfinished {p : Option Char} {g : Glyph} {slots : List Char}
    (h : g.Accepts p slots) (hg : g ≠ .unfinished) (q : Option Char) :
    Glyph.narrow.Accepts q slots := by
  cases g with
  | narrow => exact h.narrow_congr
  | unfinished => exact absurd rfl hg
  | finished =>
      cases slots with
      | nil => exact ⟨.narrow, rfl, by decide⟩
      | cons d slots =>
          have hlead := h.lead_of_finished
          exact accepts_cons.mpr
            ⟨_, next_of_settled (settled_narrow q) hlead, (h.of_lead hlead).2⟩

/-- What may stand behind some character may stand behind a finished one if it begins with a new
character there and no tail is to come. -/
theorem Accepts.finished_iff {p q : Option Char} {g : Glyph} {slots : List Char}
    (h : g.Accepts p slots) :
    Glyph.finished.Accepts q slots ↔ g ≠ .unfinished ∧ Slots.attached q slots = [] := by
  constructor
  · intro hfinished
    refine ⟨?_, hfinished.due⟩
    rintro rfl
    exact hfinished.not_unfinished_of_finished h
  · rintro ⟨hg, hnone⟩
    have hnarrow := h.narrow_of_ne_unfinished hg q
    cases slots with
    | nil => exact ⟨.finished, rfl, by decide⟩
    | cons d slots =>
        have hlead : extendsPrevious q d = false := by
          by_contra hext
          simp [Slots.attached, hext] at hnone
        obtain ⟨-, hrest⟩ := hnarrow.of_lead hlead
        refine accepts_cons.mpr ⟨begin d, ?_, hrest⟩
        simp [next, hlead]

/-- What may stand behind some character may stand where a tail is missing if it brings one. -/
theorem Accepts.unfinished_iff_mem {p q : Option Char} {g : Glyph} {slots : List Char}
    (h : g.Accepts p slots) :
    Glyph.unfinished.Accepts q slots ↔ wideTail ∈ Slots.attached q slots := by
  by_cases hg : g = .unfinished
  · subst hg
    exact h.unfinished_iff
  · have hnarrow := h.narrow_of_ne_unfinished hg q
    exact iff_of_false hnarrow.not_unfinished hnarrow.due

/-- A tail finishes a character. -/
theorem eq_finished_of_read_wideTail {p : Option Char} {g g' : Glyph} {slots : List Char}
    (h : g.read p slots = some g') (hlast : slots.getLast? = some wideTail) : g' = .finished := by
  obtain ⟨front, rfl⟩ := List.getLast?_eq_some_iff.mp hlast
  rw [read_append] at h
  obtain ⟨before, -, hrest⟩ := Option.bind_eq_some_iff.mp h
  obtain ⟨after, hnext, hnil⟩ := Option.bind_eq_some_iff.mp hrest
  obtain rfl := Option.some.inj hnil
  cases before <;> simp_all [next, extendsPrevious_wideTail]

end Glyph

namespace Slots

/-- A wide character begins before the cut, and its tail stands behind it. -/
def Splits (front back : List Char) : Prop := wideTail ∈ attached front.getLast? back

instance (front back : List Char) : Decidable (Splits front back) :=
  inferInstanceAs (Decidable (_ ∈ _))

/-- Behind the end there is nothing to be split off. -/
theorem not_splits_nil (front : List Char) : ¬ Splits front [] := List.not_mem_nil

/-- What stands before the last slot in front of a cut does not matter. -/
theorem splits_append_iff {middle : List Char} (h : middle ≠ []) (front back : List Char) :
    Splits (front ++ middle) back ↔ Splits middle back := by
  rw [Splits, Splits, List.getLast?_append_of_ne_nil _ h]

variable {front middle back : List Char}

/-- How far the last character has come at a cut. -/
theorem Whole.exists_glyph (h : Whole (front ++ back)) :
    ∃ g, Glyph.narrow.read none front = some g ∧ g.Accepts front.getLast? back := by
  obtain ⟨g, hread, haccepts⟩ := Glyph.accepts_append.mp (whole_iff_accepts.mp h)
  rw [Option.or_none] at haccepts
  exact ⟨g, hread, haccepts⟩

/-- Slots are whole if the last character that is read in them is not left unfinished. -/
theorem whole_iff_of_read {g : Glyph} (h : Glyph.narrow.read none front = some g) :
    Whole front ↔ g ≠ .unfinished := by
  rw [whole_iff_accepts, Glyph.Accepts, h]
  simp

/-- Slots are whole in front of others if these finish the last character. -/
theorem whole_append_iff_of_read {g : Glyph} (h : Glyph.narrow.read none front = some g) :
    Whole (front ++ back) ↔ g.Accepts front.getLast? back := by
  rw [whole_iff_accepts, Glyph.accepts_append, h, Option.or_none]
  simp

/-- **Before a cut** a whole row is whole unless a wide character is split. -/
theorem Whole.whole_left_iff (h : Whole (front ++ back)) : Whole front ↔ ¬ Splits front back := by
  obtain ⟨g, hread, haccepts⟩ := h.exists_glyph
  rw [whole_iff_of_read hread, Splits, haccepts.wideTail_mem_attached_iff]

/-- **Behind a cut** a whole row is whole unless a wide character is split. -/
theorem Whole.whole_right_iff (h : Whole (front ++ back)) : Whole back ↔ ¬ Splits front back := by
  obtain ⟨g, -, haccepts⟩ := h.exists_glyph
  rw [Splits, haccepts.wideTail_mem_attached_iff, whole_iff_accepts]
  constructor
  · rintro hnarrow rfl
    exact hnarrow.not_unfinished haccepts
  · exact fun hg => haccepts.narrow_of_ne_unfinished hg none

/-- A cut before slot `i` splits a wide character. -/
def SplitAt (slots : List Char) (i : Nat) : Prop := Splits (slots.take i) (slots.drop i)

instance (slots : List Char) (i : Nat) : Decidable (SplitAt slots i) :=
  inferInstanceAs (Decidable (Splits _ _))

/-- Between two parts a character is split if the second one goes on with it. -/
theorem splitAt_append_iff (front back : List Char) :
    SplitAt (front ++ back) front.length ↔ Splits front back := by
  rw [SplitAt, List.take_left, List.drop_left]

/-- Behind the end of a row nothing is split. -/
theorem not_splitAt_of_length_le {slots : List Char} {i : Nat} (h : slots.length ≤ i) :
    ¬ SplitAt slots i := by
  rw [SplitAt, List.drop_eq_nil_of_le h]
  exact not_splits_nil _

/-- Nothing is split behind the end. -/
theorem SplitAt.lt_length {slots : List Char} {i : Nat} (h : SplitAt slots i) :
    i < slots.length := by
  by_contra hle
  exact not_splitAt_of_length_le (Nat.not_lt.mp hle) h

/-- A place behind the end is as good as the end. -/
theorem splitAt_min_length {slots : List Char} {i : Nat} :
    SplitAt slots (min i slots.length) ↔ SplitAt slots i := by
  rcases Nat.le_total i slots.length with hle | hle
  · rw [Nat.min_eq_left hle]
  · rw [Nat.min_eq_right hle]
    exact iff_of_false (not_splitAt_of_length_le (Nat.le_refl _)) (not_splitAt_of_length_le hle)

/-- Nothing is split in front of the first slot. -/
theorem Whole.not_splitAt_zero {slots : List Char} (h : Whole slots) : ¬ SplitAt slots 0 := h.start

/-! ## Blanks between two parts -/

/-- Behind a blank may stand whatever is whole. -/
theorem Whole.follows_space (h : Whole back) : Follows (' ' :: back) := by
  intro previous g hg
  refine Glyph.accepts_cons.mpr ⟨_, Glyph.next_of_settled hg (extendsPrevious_space none), ?_⟩
  have hnarrow : Glyph.begin ' ' = .narrow := by decide
  rw [hnarrow]
  exact (whole_iff_accepts.mp h).narrow_congr

/-- Blanks keep apart what stands before them and what stands behind them. -/
theorem whole_blanks_iff {k : Nat} (hk : 0 < k) :
    Whole (front ++ List.replicate k ' ' ++ back) ↔ Whole front ∧ Whole back := by
  obtain ⟨k, rfl⟩ : ∃ n, k = n + 1 := ⟨k - 1, by omega⟩
  have hfirst : front ++ List.replicate (k + 1) ' ' ++ back =
      front ++ ' ' :: (List.replicate k ' ' ++ back) := by
    simp [List.replicate_succ]
  have hlast : front ++ List.replicate (k + 1) ' ' ++ back =
      (front ++ List.replicate k ' ') ++ ' ' :: back := by
    simp [List.replicate_succ']
  constructor
  · intro h
    have hleft := (hfirst ▸ h).of_append (extendsPrevious_space _)
    refine ⟨hleft.1, h.whole_right_iff.mpr ?_⟩
    -- The last blank is a narrow character, to which no tail belongs.
    have hcomplete := h.lead _ ' ' back hlast (extendsPrevious_space _)
    rw [Complete, if_neg (by decide)] at hcomplete
    rw [List.replicate_succ', ← List.append_assoc, Splits, List.getLast?_concat]
    exact hcomplete
  · rintro ⟨hfront, hback⟩
    rw [hlast, List.append_assoc]
    exact hfront.append (hback.follows_space.replicate_append k)

/-- Blanks behind them do not make slots whole. -/
theorem whole_append_replicate_iff (k : Nat) :
    Whole (front ++ List.replicate k ' ') ↔ Whole front := by
  cases k with
  | zero => rw [List.replicate_zero, List.append_nil]
  | succ k =>
      rw [← List.append_nil (front ++ _), whole_blanks_iff (Nat.succ_pos k)]
      exact and_iff_left follows_nil.whole

/-! ## Edits of a row -/

/-- **Blanking slots** keeps a row whole if a wide character is split at neither end of them. -/
theorem Whole.whole_erase_iff (h : Whole (front ++ middle ++ back)) :
    Whole (front ++ List.replicate middle.length ' ' ++ back) ↔
      ¬ (middle ≠ [] ∧ (Splits front (middle ++ back) ∨ Splits (front ++ middle) back)) := by
  by_cases hnil : middle = []
  · subst hnil
    exact iff_of_true h fun hbreaks => hbreaks.1 rfl
  · have hleft : Whole front ↔ ¬ Splits front (middle ++ back) :=
      (List.append_assoc .. ▸ h).whole_left_iff
    rw [whole_blanks_iff (List.length_pos_iff.mpr hnil), hleft, h.whole_right_iff]
    tauto

/-- **Moving slots to the right** keeps a row whole if no wide character is split where they were,
nor by the end of the row. -/
theorem Whole.whole_insert_iff (h : Whole (front ++ middle ++ back)) {k : Nat} (hk : 0 < k) :
    Whole (front ++ List.replicate k ' ' ++ middle) ↔
      ¬ (Splits front (middle ++ back) ∨ Splits (front ++ middle) back) := by
  rw [List.append_assoc] at h
  rw [whole_blanks_iff hk, h.whole_left_iff, not_or]
  refine and_congr_right fun hsplit => ?_
  by_cases hnil : middle = []
  · subst hnil
    rw [List.append_nil]
    exact iff_of_true follows_nil.whole hsplit
  · rw [splits_append_iff hnil]
    exact (h.whole_right_iff.mpr hsplit).whole_left_iff

/-- Taking out slots breaks a wide character: one that is split where they begin and finds no tail
behind them; or else, one that is split where they end, or whose tail gets marks behind it. -/
def DeleteBreaks (front middle back : List Char) : Prop :=
  if Splits front (middle ++ back) then ¬ Splits front back
  else Splits (front ++ middle) back ∨
    (front.getLast? = some wideTail ∧ attached (some wideTail) back ≠ [])

instance (front middle back : List Char) : Decidable (DeleteBreaks front middle back) :=
  inferInstanceAs (Decidable (if Splits front (middle ++ back) then ¬ Splits front back
    else Splits (front ++ middle) back ∨
      (front.getLast? = some wideTail ∧ attached (some wideTail) back ≠ [])))

/-- **Taking out slots** keeps a row whole unless it breaks a wide character. -/
theorem Whole.whole_delete_iff (h : Whole (front ++ middle ++ back)) (k : Nat) :
    Whole (front ++ back ++ List.replicate k ' ') ↔ ¬ DeleteBreaks front middle back := by
  obtain ⟨g', -, hback⟩ := h.exists_glyph
  have hend : Splits (front ++ middle) back ↔ g' = .unfinished := hback.wideTail_mem_attached_iff
  rw [List.append_assoc] at h
  obtain ⟨g, hread, haccepts⟩ := h.exists_glyph
  have hstart : Splits front (middle ++ back) ↔ g = .unfinished :=
    haccepts.wideTail_mem_attached_iff
  rw [whole_append_replicate_iff, whole_append_iff_of_read hread, DeleteBreaks]
  cases g with
  | unfinished =>
      rw [if_pos (hstart.mpr rfl), not_not]
      exact hback.unfinished_iff_mem
  | narrow =>
      have hlast : front.getLast? ≠ some wideTail := by
        intro hlast
        cases Glyph.eq_finished_of_read_wideTail hread hlast
      rw [if_neg (mt hstart.mp (by decide)), hend]
      simp only [hlast, false_and, or_false]
      constructor
      · rintro hnarrow rfl
        exact hnarrow.not_unfinished hback
      · exact fun hg => hback.narrow_of_ne_unfinished hg _
  | finished =>
      have hlast : front.getLast? = some wideTail := by
        rcases Glyph.getLast?_of_read_finished hread with ⟨-, hne⟩ | hlast
        · cases hne
        · exact hlast
      rw [if_neg (mt hstart.mp (by decide)), hend, hlast, hback.finished_iff]
      tauto

/-- Moving slots to the right breaks a wide character: one that is split where the blanks come in,
or by the end of the row. -/
def InsertBreaks (slots : List Char) (col n : Nat) : Prop :=
  0 < n ∧ (SplitAt slots col ∨ SplitAt slots (max col (slots.length - n)))

instance (slots : List Char) (col n : Nat) : Decidable (InsertBreaks slots col n) :=
  inferInstanceAs (Decidable (_ ∧ _))

/-- Inserting behind the end breaks nothing. -/
theorem not_insertBreaks_of_length_le {slots : List Char} {col n : Nat} (h : slots.length ≤ col) :
    ¬ InsertBreaks slots col n := by
  rintro ⟨-, hstart | hend⟩
  · exact not_splitAt_of_length_le h hstart
  · exact not_splitAt_of_length_le (by omega) hend

/-- Blanking `n` slots from `col` on breaks a wide character: one that is split at either end. -/
def EraseBreaks (slots : List Char) (col n : Nat) : Prop :=
  0 < n ∧ (SplitAt slots col ∨ SplitAt slots (col + n))

instance (slots : List Char) (col n : Nat) : Decidable (EraseBreaks slots col n) :=
  inferInstanceAs (Decidable (_ ∧ _))

/-- Erasing behind the end breaks nothing. -/
theorem not_eraseBreaks_of_length_le {slots : List Char} {col n : Nat} (h : slots.length ≤ col) :
    ¬ EraseBreaks slots col n := by
  rintro ⟨-, hstart | hend⟩
  · exact not_splitAt_of_length_le h hstart
  · exact not_splitAt_of_length_le (by omega) hend

/-- Taking out `n` slots from `col` on breaks a wide character. -/
def DeleteBreaksAt (slots : List Char) (col n : Nat) : Prop :=
  DeleteBreaks (slots.take col) ((slots.drop col).take n) (slots.drop (col + n))

instance (slots : List Char) (col n : Nat) : Decidable (DeleteBreaksAt slots col n) :=
  inferInstanceAs (Decidable (DeleteBreaks _ _ _))

theorem not_deleteBreaksAt_of_length_le {slots : List Char} {col n : Nat} (h : slots.length ≤ col) :
    ¬ DeleteBreaksAt slots col n := by
  rw [DeleteBreaksAt, List.drop_eq_nil_of_le h, List.take_nil,
    List.drop_eq_nil_of_le (Nat.le_trans h (Nat.le_add_right col n)), DeleteBreaks]
  simp [Splits, attached]

/-- **Cutting a row off** keeps it whole unless a wide character is split. -/
theorem Whole.whole_truncate_iff (h : Whole (front ++ back)) (k : Nat) :
    Whole (front ++ List.replicate k ' ') ↔ ¬ Splits front back := by
  rw [whole_append_replicate_iff, h.whole_left_iff]

end Slots

end VideoTerminal
