import Mathlib.Data.List.DropRight
import VideoTerminal.Proofs.Screen.Lines

/-!
# The history of a page

A page keeps the last rows that left it at the top, as many as its limit allows.  Of what it keeps
and what leaves, it keeps the last rows (`List.rtake`), so how they come does not matter: one at a
time, many at once, or across many scrolls (`rtake_append`).
-/

namespace VideoTerminal

/-- The last of the last. -/
theorem rtake_append {α : Type} (front back : List α) (n : Nat) :
    (front.rtake n ++ back).rtake n = (front ++ back).rtake n := by
  simp only [List.rtake_eq_reverse_take_reverse, List.reverse_append, List.reverse_reverse]
  rw [List.take_append, List.take_append, List.take_take, Nat.min_eq_left (Nat.sub_le _ _)]

/-- All is kept if there is room. -/
theorem rtake_of_length_le {α : Type} {l : List α} {n : Nat} (h : l.length ≤ n) :
    l.rtake n = l := by
  rw [List.rtake, Nat.sub_eq_zero_of_le h, List.drop_zero]

namespace Page

variable {p : Page}

/-- A row that goes to the history leaves its limit. -/
@[simp] theorem scrollbackLimit_pushScrollback (p : Page) (r : Row) :
    (p.pushScrollback r).scrollbackLimit = p.scrollbackLimit := by
  unfold pushScrollback
  split <;> rfl

/-- A row is kept, and the oldest goes if there is no room. -/
theorem toList_scrollback_pushScrollback (h : p.scrollback.size ≤ p.scrollbackLimit) (r : Row) :
    (p.pushScrollback r).scrollback.toList =
      (p.scrollback.toList ++ [r]).rtake p.scrollbackLimit := by
  have hlength : p.scrollback.toList.length = p.scrollback.size := Array.length_toList
  unfold pushScrollback
  split
  · next hzero =>
    rw [hzero, List.rtake_zero]
    exact List.eq_nil_of_length_eq_zero (by omega)
  · next hpos =>
    dsimp only
    rw [Array.toList_push]
    split
    · next hfull =>
      rw [List.rtake, List.length_append, List.length_singleton, hlength, hfull,
        Nat.add_sub_cancel_left, List.drop_append_of_le_length (by omega), Array.toList_extract,
        List.extract_eq_take_drop, List.take_of_length_le]
      rw [List.length_drop]
      omega
    · next hroom =>
      refine (rtake_of_length_le ?_).symm
      rw [List.length_append, List.length_singleton]
      omega

/-- Rows that go up leave the limit of the history. -/
@[simp] theorem scrollbackLimit_scrollUp (p : Page) (top bottom cols : Nat) (keep : Bool) (n : Nat) :
    (p.scrollUp top bottom cols keep n).scrollbackLimit = p.scrollbackLimit := by
  induction n generalizing p with
  | zero => rfl
  | succ n ih =>
      rw [scrollUp, ih, scrollUpOnce]
      split
      · cases keep <;> simp
      · rfl

@[simp] theorem scrollbackLimit_scrollDown (p : Page) (top bottom cols n : Nat) :
    (p.scrollDown top bottom cols n).scrollbackLimit = p.scrollbackLimit := by
  induction n generalizing p with
  | zero => rfl
  | succ n ih => rw [scrollDown, ih, scrollDownOnce]

/-- **Rows that leave at the top** are kept in order, as many of the last as there is room for. -/
theorem toList_scrollback_scrollUp {lines below : List Row} {bottom n : Nat} (cols : Nat)
    (h : p.rows = lines ++ below) (hbottom : lines.length = bottom + 1) (hn : n ≤ lines.length)
    (hsize : p.scrollback.size ≤ p.scrollbackLimit) :
    (p.scrollUp 0 bottom cols true n).scrollback.toList =
      (p.scrollback.toList ++ lines.take n).rtake p.scrollbackLimit := by
  induction n generalizing p lines with
  | zero =>
      rw [List.take_zero, List.append_nil]
      exact (rtake_of_length_le hsize).symm
  | succ n ih =>
      obtain ⟨r, rest, rfl⟩ := List.exists_cons_of_length_pos (Nat.zero_lt_of_lt hn)
      rw [List.length_cons] at hbottom hn
      obtain rfl : bottom = rest.length := by omega
      have hrows : p.rows = [] ++ (r :: rest) ++ below := h
      have honce : (p.scrollUpOnce 0 (0 + rest.length) cols true).rows =
          rest ++ [Row.new cols] ++ below := rows_scrollUpOnce hrows true
      rw [Nat.zero_add] at honce
      have hpushed : (p.scrollUpOnce 0 rest.length cols true).scrollback =
          (p.pushScrollback r).scrollback := by
        unfold scrollUpOnce
        rw [h]
        rfl
      have hlimit : (p.scrollUpOnce 0 rest.length cols true).scrollbackLimit = p.scrollbackLimit :=
        p.scrollbackLimit_scrollUp 0 rest.length cols true 1
      have hkept := toList_scrollback_pushScrollback hsize r
      rw [scrollUp, ih honce ?_ ?_ ?_]
      · rw [hpushed, hkept, hlimit, rtake_append, List.append_assoc,
          List.take_append_of_le_length (Nat.le_of_succ_le_succ hn), List.singleton_append,
          List.take_succ_cons]
      · rw [List.length_append, List.length_singleton]
      · rw [List.length_append, List.length_singleton]
        omega
      · rw [hpushed, hlimit, ← Array.length_toList, hkept, List.rtake, List.length_drop]
        omega

/-- **History and screen** together lose nothing when the whole screen scrolls, but for the oldest
rows for which there is no room; untouched ones follow. -/
theorem history_scrollUp_full {bottom n : Nat} (cols : Nat) (hbottom : p.rows.length = bottom + 1)
    (hn : n ≤ p.rows.length) (hsize : p.scrollback.size ≤ p.scrollbackLimit) :
    (p.scrollUp 0 bottom cols true n).scrollback.toList ++ (p.scrollUp 0 bottom cols true n).rows =
      (p.scrollback.toList ++ p.rows ++ List.replicate n (Row.new cols)).drop
        (p.scrollback.size + n - p.scrollbackLimit) := by
  have hrows : p.rows = [] ++ p.rows ++ [] := (List.append_nil _).symm
  have hrest : p.rows = p.rows ++ [] := hrows
  have hraised : (p.scrollUp 0 bottom cols true n).rows = [] ++ Lines.raised cols n p.rows ++ [] :=
    rows_scrollUp hrows (by rw [List.length_nil, Nat.zero_add, hbottom]) hn true
  rw [List.nil_append, List.append_nil] at hraised
  have hlength : (p.scrollback.toList ++ p.rows.take n).length = p.scrollback.size + n := by
    rw [List.length_append, List.length_take, Array.length_toList, Nat.min_eq_left hn]
  have hdrop : p.scrollback.size + n - p.scrollbackLimit ≤
      (p.scrollback.toList ++ p.rows.take n).length := by
    rw [hlength]
    exact Nat.sub_le _ _
  have hparts : p.scrollback.toList ++ p.rows ++ List.replicate n (Row.new cols) =
      p.scrollback.toList ++ p.rows.take n ++ (p.rows.drop n ++ List.replicate n (Row.new cols)) := by
    rw [List.append_assoc, List.append_assoc, ← List.append_assoc (p.rows.take n),
      List.take_append_drop]
  rw [toList_scrollback_scrollUp cols hrest hbottom hn hsize, hraised, hparts,
    List.drop_append_of_le_length hdrop, List.rtake, hlength, Lines.raised]

end Page

end VideoTerminal
