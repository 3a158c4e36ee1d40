import VideoTerminal.Screen.Page

/-!
# Lines that move

Scrolling takes a row out at one end of a range and puts an untouched one in at the other, one at a
time.  Done `n` times this is one splice, whatever stands above and below the range: its lines are
raised or lowered by `n` (`Page.rows_scrollUp`, `Page.rows_scrollDown`).
-/

namespace VideoTerminal

namespace Lines

/-- Lines moved up by `n`: the first ones are gone and untouched ones follow the rest. -/
def raised (cols n : Nat) (lines : List Row) : List Row :=
  lines.drop n ++ List.replicate n (Row.new cols)

/-- Lines moved down by `n`: untouched ones come first and the last ones are gone. -/
def lowered (cols n : Nat) (lines : List Row) : List Row :=
  List.replicate n (Row.new cols) ++ lines.take (lines.length - n)

variable {cols n : Nat} {lines : List Row}

/-- Lowered lines are as many as before. -/
theorem length_lowered (h : n ≤ lines.length) : (lowered cols n lines).length = lines.length := by
  simp [lowered]
  omega

/-- One line at a time. -/
theorem raised_succ (r : Row) (h : n ≤ lines.length) :
    raised cols n (lines ++ [Row.new cols]) = raised cols (n + 1) (r :: lines) := by
  rw [raised, raised, List.drop_append_of_le_length h, List.drop_succ_cons, List.append_assoc,
    List.replicate_succ, List.singleton_append]

/-- One line lower, the last one is gone and a new one is on top. -/
theorem lowered_succ (r : Row) (h : n ≤ lines.length) :
    lowered cols n (Row.new cols :: lines) = lowered cols (n + 1) (lines ++ [r]) := by
  have hcount : (Row.new cols :: lines).length - n = lines.length - n + 1 := by
    rw [List.length_cons]
    omega
  have hcount' : (lines ++ [r]).length - (n + 1) = lines.length - n := by
    rw [List.length_append, List.length_singleton]
    omega
  rw [lowered, lowered, hcount, hcount', List.take_succ_cons,
    List.take_append_of_le_length (Nat.sub_le _ _), List.replicate_succ', List.append_assoc,
    List.singleton_append]

/-- What was moved down comes back up, except for the lines that were pushed over the end. -/
theorem raised_lowered (cols n : Nat) (lines : List Row) :
    raised cols n (lowered cols n lines) =
      lines.take (lines.length - n) ++ List.replicate n (Row.new cols) := by
  have hfront : (List.replicate n (Row.new cols)).length = n := List.length_replicate
  rw [raised, lowered, List.drop_append_of_le_length (Nat.le_of_eq hfront.symm),
    List.drop_of_length_le (Nat.le_of_eq hfront), List.nil_append]

end Lines

namespace Page

variable {p : Page} {above lines below : List Row} {cols n : Nat}

/-- Inserting behind the first part puts it between the two. -/
theorem insertIdx_append_length {α : Type} (front back : List α) (x : α) :
    (front ++ back).insertIdx front.length x = front ++ x :: back := by
  induction front with
  | nil => rfl
  | cons y front ih => simp [ih]

/-- One row of a range is taken out and another one put in. -/
theorem insertIdx_eraseIdx_append {α : Type} (above front front' below : List α) (r x : α)
    (back back' : List α) (h : front ++ back = front' ++ back') :
    ((above ++ (front ++ r :: back) ++ below).eraseIdx (above.length + front.length)).insertIdx
      (above.length + front'.length) x = above ++ (front' ++ x :: back') ++ below := by
  have hout : above ++ (front ++ r :: back) ++ below = (above ++ front) ++ (r :: (back ++ below)) := by
    simp
  have hinto : (above ++ front) ++ (back ++ below) = (above ++ front') ++ (back' ++ below) := by
    rw [List.append_assoc, ← List.append_assoc front, h]
    simp
  rw [hout, ← List.length_append, List.eraseIdx_append_of_length_le (Nat.le_refl _), Nat.sub_self,
    List.eraseIdx_cons_zero, hinto, ← List.length_append, insertIdx_append_length]
  simp

/-- The top row of the region goes, and a new one comes in at its bottom. -/
theorem rows_scrollUpOnce {r : Row} (h : p.rows = above ++ (r :: lines) ++ below) (keep : Bool) :
    (p.scrollUpOnce above.length (above.length + lines.length) cols keep).rows =
      above ++ (lines ++ [Row.new cols]) ++ below := by
  have hrow : p.rows[above.length]? = some r := by
    rw [h, List.append_assoc, List.getElem?_append_right (Nat.le_refl _), Nat.sub_self]
    rfl
  have hkept : (if keep = true then p.pushScrollback r else p).rows = p.rows := by
    split
    · exact rows_pushScrollback p r
    · rfl
  unfold scrollUpOnce
  rw [hrow]
  dsimp only
  rw [hkept, h]
  exact insertIdx_eraseIdx_append above [] lines below r (Row.new cols) lines [] (by simp)

/-- **A range moved up** by `n` lines. -/
theorem rows_scrollUp {bottom : Nat} (h : p.rows = above ++ lines ++ below)
    (hbottom : above.length + lines.length = bottom + 1) (hn : n ≤ lines.length) (keep : Bool) :
    (p.scrollUp above.length bottom cols keep n).rows =
      above ++ Lines.raised cols n lines ++ below := by
  induction n generalizing p lines with
  | zero => simp [scrollUp, Lines.raised, h]
  | succ n ih =>
      obtain ⟨r, rest, rfl⟩ := List.exists_cons_of_length_pos (Nat.zero_lt_of_lt hn)
      rw [List.length_cons] at hbottom hn
      obtain rfl : bottom = above.length + rest.length := by omega
      have honce : (p.scrollUpOnce above.length (above.length + rest.length) cols keep).rows =
          above ++ (rest ++ [Row.new cols]) ++ below := rows_scrollUpOnce h keep
      rw [scrollUp, ih honce (by simp; omega) (by simp; omega),
        Lines.raised_succ r (Nat.le_of_succ_le_succ hn)]

/-- The bottom row of the region goes, and a new one comes in at its top. -/
theorem rows_scrollDownOnce {r : Row} (h : p.rows = above ++ (lines ++ [r]) ++ below) :
    (p.scrollDownOnce above.length (above.length + lines.length) cols).rows =
      above ++ (Row.new cols :: lines) ++ below := by
  unfold scrollDownOnce
  dsimp only
  rw [h]
  exact insertIdx_eraseIdx_append above lines [] below r (Row.new cols) [] lines (by simp)

/-- **A range moved down** by `n` lines. -/
theorem rows_scrollDown {bottom : Nat} (h : p.rows = above ++ lines ++ below)
    (hbottom : above.length + lines.length = bottom + 1) (hn : n ≤ lines.length) :
    (p.scrollDown above.length bottom cols n).rows =
      above ++ Lines.lowered cols n lines ++ below := by
  induction n generalizing p lines with
  | zero => simp [scrollDown, Lines.lowered, h]
  | succ n ih =>
      have hne : lines ≠ [] := List.ne_nil_of_length_pos (Nat.zero_lt_of_lt hn)
      obtain ⟨rest, r, rfl⟩ : ∃ rest r, lines = rest ++ [r] :=
        ⟨lines.dropLast, lines.getLast hne, (List.dropLast_concat_getLast hne).symm⟩
      rw [List.length_append, List.length_singleton] at hbottom hn
      obtain rfl : bottom = above.length + rest.length := by omega
      have honce : (p.scrollDownOnce above.length (above.length + rest.length) cols).rows =
          above ++ (Row.new cols :: rest) ++ below := rows_scrollDownOnce h
      rw [scrollDown, ih honce (by simp; omega) (by simp; omega),
        Lines.lowered_succ r (Nat.le_of_succ_le_succ hn)]

end Page

end VideoTerminal
