import VideoTerminal.Proofs.Line.Characters
import VideoTerminal.Proofs.Terminal.Coordinates

/-!
# The layout of a printed text

A text printed on a fresh terminal is laid out in rows, and each of its characters stands in one of
them with all that belongs to it (`Terminal.putText_new_laysOut`).  Nothing is lost on the way, also
where a mark comes so late that its character has to leave the row it filled.  A character that is
counted beyond the greatest coordinate ends the printing, though, and on the widest screen a row of
blanks brings one there (`Terminal.not_laysOut`).

`Terminal.Shows` says which lines history and screen show and where the cursor stands.  Each way to
print a character takes it to the lines with one character more (`Shows.exists_overwrite`) or with
one mark more (`Shows.exists_attachHere`); going to the next row begins another line (`Shows.index`).
For one character of a text these steps are put together in `Prints.exists_putChar`, and the text is
followed by induction on its end.
-/

namespace VideoTerminal

/-- Scrolling the whole screen moves its top row into the history. -/
theorem Page.scrollUpOnce_full {p : Page} {r : Row} {rest : List Row} (cols : Nat)
    (hrows : p.rows = r :: rest) :
    p.scrollUpOnce 0 rest.length cols true =
      { p.pushScrollback r with rows := rest ++ [Row.new cols] } := by
  unfold scrollUpOnce
  rw [hrows, List.getElem?_cons_zero]
  dsimp only
  rw [if_pos rfl, rows_pushScrollback, hrows]
  simp only [List.eraseIdx_cons_zero, List.insertIdx_length_self]

/-- There it is kept, if there is room. -/
theorem Page.pushScrollback_of_lt {p : Page} (r : Row)
    (hlimit : p.scrollback.size < p.scrollbackLimit) :
    p.pushScrollback r = { p with scrollback := p.scrollback.push r } := by
  unfold pushScrollback
  rw [if_neg (by omega), if_neg (by omega)]

namespace Terminal

open Slots (characters ofLine padded closed columns IsLine)

/-- The slots of all rows, those of the history first. -/
def shown (t : Terminal) : List (List Char) :=
  (t.active.scrollback.toList ++ t.active.rows).map fun r => r.cells.slots

/-- What is shown is the history, and then the screen. -/
theorem shown_eq (t : Terminal) :
    t.shown = (t.active.scrollback.toList.map fun r => r.cells.slots) ++ t.grid := List.map_append

theorem slots_new (cols : Nat) : Cells.slots (Row.new cols).cells = padded cols [] := by
  rw [Row.new, Cells.slots, List.map_replicate]
  rfl

/-- Text wraps and is not inserted, and the whole screen scrolls into the history. -/
structure Plain (t : Terminal) (cols limit : Nat) : Prop where
  autoWrap : t.has .autoWrap = true
  insertMode : t.has .insertMode = false
  usingAlternate : t.usingAlternate = false
  region : t.region = fullRegion t.rows
  length_rows : t.active.rows.length = t.rows
  cols_eq : t.cols = cols
  limit_eq : t.active.scrollbackLimit = limit

namespace Plain

variable {t t' : Terminal} {cols limit : Nat}

/-- Repainting a row leaves the modes and the size. -/
theorem repainted {row col : Nat} {slots : List Char} (h : t.Plain cols limit)
    (hpainted : t.Repainted t' row slots col) : t'.Plain cols limit where
  autoWrap := by rw [hpainted.has_eq, h.autoWrap]
  insertMode := by rw [hpainted.has_eq, h.insertMode]
  usingAlternate := by rw [hpainted.usingAlternate_eq, h.usingAlternate]
  region := by rw [hpainted.region_eq, hpainted.rows_eq, h.region]
  length_rows := by rw [hpainted.length_rows, hpainted.rows_eq, h.length_rows]
  cols_eq := by rw [hpainted.cols_eq, h.cols_eq]
  limit_eq := by rw [hpainted.limit_eq, h.limit_eq]

/-- A change of the page that keeps its height and its limit. -/
theorem modifyActive (h : t.Plain cols limit) {f : Page → Page}
    (hrows : (f t.active).rows.length = t.active.rows.length)
    (hlimit : (f t.active).scrollbackLimit = t.active.scrollbackLimit) :
    (t.modifyActive f).Plain cols limit where
  autoWrap := by rw [has_modifyActive, h.autoWrap]
  insertMode := by rw [has_modifyActive, h.insertMode]
  usingAlternate := by rw [usingAlternate_modifyActive, h.usingAlternate]
  region := by rw [region_modifyActive, rows_modifyActive, h.region]
  length_rows := by rw [active_modifyActive, hrows, rows_modifyActive, h.length_rows]
  cols_eq := by rw [cols_modifyActive, h.cols_eq]
  limit_eq := by rw [active_modifyActive, hlimit, h.limit_eq]

/-- Above the last row the cursor goes down. -/
theorem index_of_lt (h : t.Plain cols limit) (hrow : t.cursor.row + 1 < t.rows) :
    t.index = t.modifyActive fun p => p.moveToRow (t.cursor.row + 1) := by
  unfold Terminal.index
  rw [h.region, fullRegion]
  dsimp only
  rw [if_neg (by omega), if_pos (by omega)]

/-- On the last row the screen scrolls. -/
theorem exists_index_eq (h : t.Plain cols limit) (hrow : t.cursor.row + 1 = t.rows) :
    ∃ r rest, t.active.rows = r :: rest ∧ t.index = t.modifyActive fun p =>
      { p.pushScrollback r with rows := rest ++ [Row.new cols] }.markAllDirty := by
  have hlen := h.length_rows
  have hne : t.active.rows ≠ [] := by
    intro hnil
    rw [hnil, List.length_nil] at hlen
    omega
  obtain ⟨r, rest, hrows⟩ := List.exists_cons_of_ne_nil hne
  refine ⟨r, rest, hrows, ?_⟩
  have hrest : t.rows - 1 = rest.length := by
    rw [← hlen, hrows, List.length_cons, Nat.add_sub_cancel]
  have hfits : Region.fits ⟨0, rest.length⟩ t.active.rows.length = true := by
    simp [Region.fits, hrows]
  have hheight : min 1 (Region.height ⟨0, rest.length⟩) = 1 := by
    simp [Region.height]
  unfold Terminal.index scrollUp
  rw [h.region, fullRegion, hrest]
  dsimp only
  rw [if_pos (by omega), if_pos hfits, hheight, h.cols_eq]
  refine modifyActive_congr ?_
  simp only [h.usingAlternate, Page.scrollUp, Bool.not_false, Bool.true_and, beq_self_eq_true]
  rw [Page.scrollUpOnce_full cols hrows]

/-- Going to the next row, the cursor goes one row further down in all that is shown, and where the
screen ends an empty row is added. -/
theorem index (h : t.Plain cols limit) (hrow : t.cursor.row < t.rows)
    (hlimit : t.active.scrollback.size < limit) :
    t.index.Plain cols limit ∧
      t.index.shown =
        t.shown ++ (if t.cursor.row + 1 = t.rows then [padded cols []] else []) ∧
      t.index.active.scrollback.size + t.index.cursor.row =
        t.active.scrollback.size + t.cursor.row + 1 := by
  by_cases hbottom : t.cursor.row + 1 = t.rows
  · obtain ⟨r, rest, hrows, hindex⟩ := h.exists_index_eq hbottom
    have hpush := Page.pushScrollback_of_lt r (h.limit_eq ▸ hlimit)
    have hpushed : t.index = t.modifyActive fun p =>
        { p with scrollback := p.scrollback.push r, rows := rest ++ [Row.new cols] }.markAllDirty := by
      rw [hindex]
      refine modifyActive_congr ?_
      rw [hpush]
    rw [hpushed, if_pos hbottom]
    refine ⟨h.modifyActive ?_ rfl, ?_, ?_⟩
    · simp [Page.markAllDirty, hrows]
    · simp [shown, Page.markAllDirty, slots_new, hrows]
    · rw [cursor_modifyActive, active_modifyActive]
      simp only [Page.markAllDirty, Array.size_push, cursor]
      omega
  · rw [h.index_of_lt (by omega), if_neg hbottom, List.append_nil]
    refine ⟨h.modifyActive rfl rfl, ?_, ?_⟩
    · rw [shown, active_modifyActive]
      rfl
    · rw [cursor_modifyActive, active_modifyActive]
      exact (Nat.add_assoc _ _ _).symm

end Plain

/-- History and screen show some lines, complete ones and then the one behind which the cursor
stands; the rows below are empty. -/
structure Shows (t : Terminal) (cols limit : Nat) (past : List (List (List Char)))
    (line : List (List Char)) : Prop where
  plain : t.Plain cols limit
  fits : (ofLine line).length ≤ cols
  shown_eq : ∃ k, t.shown = (past ++ line :: List.replicate k []).map (padded cols)
  row_eq : t.active.scrollback.size + t.cursor.row = past.length
  col_eq : t.cursor.col = (ofLine line).length

namespace Shows

variable {t t' : Terminal} {cols limit : Nat} {past : List (List (List Char))}
  {line : List (List Char)}

/-- A fresh terminal shows an empty line. -/
theorem new {rows : Nat} (h : 1 ≤ rows) : (Terminal.new cols rows limit).Shows cols limit [] [] where
  plain :=
    { autoWrap := by simp [Terminal.new, has, ModeSet.contains_set]
      insertMode := by simp [Terminal.new, has, ModeSet.contains_set]
      usingAlternate := rfl
      region := rfl
      length_rows := List.length_replicate
      cols_eq := rfl
      limit_eq := rfl }
  fits := Nat.zero_le cols
  shown_eq := by
    refine ⟨rows - 1, ?_⟩
    have hrows : List.replicate rows ([] : List (List Char)) =
        [] ++ [] :: List.replicate (rows - 1) [] := by
      rw [List.nil_append, ← List.replicate_succ, Nat.sub_add_cancel h]
    rw [← hrows, List.map_replicate]
    change (List.replicate rows (Row.new cols)).map _ = _
    rw [List.map_replicate, slots_new]
  row_eq := rfl
  col_eq := rfl

/-- The row of the cursor shows the last line. -/
theorem getElem?_grid (h : t.Shows cols limit past line) :
    t.grid[t.cursor.row]? = some (padded cols line) := by
  obtain ⟨k, hshown⟩ := h.shown_eq
  have hat : t.shown[past.length]? = some (padded cols line) := by
    rw [hshown, List.getElem?_map, List.getElem?_append_right (Nat.le_refl _), Nat.sub_self]
    rfl
  rw [Terminal.shown_eq, ← h.row_eq, List.getElem?_append_right (by simp)] at hat
  simpa using hat

/-- Another line in the place of the last one. -/
theorem shown_repainted {col : Nat} {line' : List (List Char)} (h : t.Shows cols limit past line)
    (hpainted : t.Repainted t' t.cursor.row (padded cols line') col) :
    ∃ k, t'.shown = (past ++ line' :: List.replicate k []).map (padded cols) := by
  obtain ⟨k, hshown⟩ := h.shown_eq
  refine ⟨k, ?_⟩
  have hset : t'.shown = t.shown.set past.length (padded cols line') := by
    rw [Terminal.shown_eq, Terminal.shown_eq, hpainted.scrollback_eq, hpainted.grid_eq, ← h.row_eq,
      List.set_append_right _ _ (by simp)]
    simp
  rw [hset, hshown, List.map_append, List.map_append, List.map_cons, List.map_cons,
    List.set_append_right _ _ (by simp)]
  simp

theorem repainted {line' : List (List Char)} (h : t.Shows cols limit past line)
    (hpainted : t.Repainted t' t.cursor.row (padded cols line') (ofLine line').length)
    (hfits : (ofLine line').length ≤ cols) : t'.Shows cols limit past line' where
  plain := h.plain.repainted hpainted
  fits := hfits
  shown_eq := h.shown_repainted hpainted
  row_eq := by rw [hpainted.scrollback_eq, hpainted.row_eq, h.row_eq]
  col_eq := hpainted.col_eq

/-- Going on in the next row, while there is room in the history for one more. -/
theorem index {line' : List (List Char)} (h : t.Shows cols limit past line)
    (hpainted : t.Repainted t' t.cursor.row (padded cols line') 0) (hlimit : past.length < limit) :
    t'.index.Shows cols limit (past ++ [line']) [] := by
  obtain ⟨k, hshown⟩ := h.shown_repainted hpainted
  have hplain := h.plain.repainted hpainted
  have hrow : t'.active.scrollback.size + t'.cursor.row = past.length := by
    rw [hpainted.scrollback_eq, hpainted.row_eq, h.row_eq]
  -- The size of what is shown tells how many rows are left below the cursor.
  have hcount : t'.cursor.row + 1 + k = t'.rows := by
    have hlen := congrArg List.length hshown
    have hrows := hplain.length_rows
    rw [Terminal.shown_eq] at hlen
    simp only [List.length_append, List.length_map, List.length_cons, List.length_replicate,
      Array.length_toList, grid] at hlen
    omega
  obtain ⟨hplain', hshown', hrow'⟩ := hplain.index (by omega) (by omega)
  refine ⟨hplain', Nat.zero_le cols, ?_, ?_, ?_⟩
  · rw [hshown', hshown]
    cases k with
    | zero => exact ⟨0, by simp [hcount]⟩
    | succ k => exact ⟨k, by rw [if_neg (by omega)]; simp [List.replicate_succ]⟩
  · rw [hrow', hrow, List.length_append, List.length_singleton]
  · rw [col_index, hpainted.col_eq]
    rfl

/-- Where the cursor stands there is room for as many slots as the row has left. -/
theorem getElem?_grid_replicate (h : t.Shows cols limit past line) {n : Nat}
    (hn : (ofLine line).length + n = cols) :
    t.grid[t.cursor.row]? = some (ofLine line ++ List.replicate n ' ') := by
  rw [h.getElem?_grid, Slots.padded_eq hn]

/-- Where the cursor stands there is room for what a character covers. -/
theorem getElem?_grid_covered (h : t.Shows cols limit past line) {k n : Nat}
    (hn : (ofLine line).length + (k + 1) + n = cols) :
    t.grid[t.cursor.row]? =
      some (ofLine line ++ ' ' :: (List.replicate k ' ' ++ List.replicate n ' ')) := by
  rw [h.getElem?_grid_replicate (n := k + 1 + n) (by omega), Nat.add_right_comm,
    List.replicate_succ, List.replicate_append_replicate]

/-- Writing a character behind the last line. -/
theorem exists_overwrite (h : t.Shows cols limit past line) {c : Char} {k : Nat}
    (hwidth : Text.columns? c = some (k + 1)) (hfit : (ofLine line).length + (k + 1) ≤ cols) :
    ∃ t', (t.releaseCovered t.cursor.row t.cursor.col (k + 1) >>= fun released =>
        released.writeHere c (k + 1)) = .ok t' ∧ t'.Shows cols limit past (line ++ [[c]]) := by
  obtain ⟨n, hn⟩ := Nat.exists_eq_add_of_le hfit
  have hrow := h.getElem?_grid_covered hn.symm
  have hlen : (List.replicate k ' ').length = k := List.length_replicate
  obtain ⟨front', back', t', hreleased, hok, hpainted⟩ :=
    exists_overwrite_slots hrow h.col_eq (by rw [hlen]; exact hwidth)
  have hline : (ofLine (line ++ [[c]])).length = (ofLine line).length + (k + 1) := by
    rw [Slots.ofLine_append, Slots.ofLine_singleton, List.length_append,
      Slots.length_closed_singleton hwidth (Nat.succ_pos k)]
  have hslots : front' ++ closed [c] ++ back' = padded cols (line ++ [[c]]) := by
    rw [hreleased.front_eq (by decide), hreleased.back_eq_replicate,
      Slots.padded_eq (by omega : (ofLine (line ++ [[c]])).length + n = cols), Slots.ofLine_append,
      Slots.ofLine_singleton]
  rw [hlen] at hok hpainted
  rw [hslots, ← hline] at hpainted
  exact ⟨t', hok, h.repainted hpainted (by omega)⟩

/-- Attaching a character to the end of the last line. -/
theorem exists_attachHere {g : List Char} (h : t.Shows cols limit past (line ++ [g]))
    (hline : IsLine (line ++ [g])) (hfit : (ofLine (line ++ [g])).length < cols) (c : Char) :
    ∃ t', t.attachHere c = .ok t' ∧ t'.Shows cols limit past (line ++ [g ++ [c]]) := by
  obtain ⟨n, hn⟩ := Nat.exists_eq_add_of_lt hfit
  have hrow := h.getElem?_grid_replicate (n := n + 1) (by omega)
  obtain ⟨t', hok, hpainted⟩ := exists_attachHere_slots c hrow h.col_eq
  have hg := hline.isCharacter g (by simp)
  have hlength : (ofLine (line ++ [g ++ [c]])).length = (ofLine (line ++ [g])).length + 1 := by
    simp only [Slots.ofLine_append, Slots.ofLine_singleton, List.length_append,
      Slots.length_closed_concat hg.ne_nil, Nat.add_assoc]
  have hslots : Slots.attach (ofLine (line ++ [g])) c (List.replicate n ' ') =
      padded cols (line ++ [g ++ [c]]) := by
    rw [hline.attach_eq,
      Slots.padded_eq (by omega : (ofLine (line ++ [g ++ [c]])).length + n = cols)]
  rw [hslots, ← hlength] at hpainted
  exact ⟨t', hok, h.repainted hpainted (by omega)⟩

/-- The cursor is seen behind the columns of the last line. -/
theorem visualCursorCol_eq (h : t.Shows cols limit past line) (hline : IsLine line)
    (hwidth : ∀ g ∈ line, ∀ c ∈ g, (Text.columns? c).isSome) :
    t.visualCursorCol = (line.map columns).sum := by
  obtain ⟨r, hr, hslots⟩ := getElem?_grid_eq_some_iff.mp h.getElem?_grid
  have hchars : Line.ofArray (r.cells.map Cell.char).toArray = Line.ofList (padded cols line) := by
    rw [← Cells.line_eq_ofArray, Cells.line_eq_ofList, hslots]
  have hcolumns : (Line.ofList (padded cols line)).columnsBefore (padded cols line).length
      (ofLine line).length = Slots.leadColumns none (ofLine line) :=
    (hline.whole_padded cols).columnsBefore_eq
  rw [Slots.length_padded h.fits, hline.leadColumns_eq hwidth] at hcolumns
  simp only [visualCursorCol, hr]
  rw [hchars, h.plain.cols_eq, h.col_eq, Line.visualColumn, Nat.min_eq_left h.fits]
  exact hcolumns

/-- What is printed next is attached to the end of the last line, if to anything. -/
theorem previousScalar?_eq (h : t.Shows cols limit past line) :
    t.previousScalar? = Slots.scalarBefore (ofLine line) :=
  Terminal.previousScalar?_eq h.getElem?_grid h.col_eq

/-- Wrapping completes the line and begins another. -/
theorem exists_wrapRow (h : t.Shows cols limit past line) (hlimit : past.length < limit) :
    ∃ t', t.wrapRow = .ok t' ∧ t'.Shows cols limit (past ++ [line]) [] := by
  obtain ⟨t₁, hpainted, hok⟩ := exists_wrapRow_slots h.getElem?_grid
  exact ⟨t₁.index, hok, h.index hpainted hlimit⟩

/-- Moving the last character of a full line to the next row. -/
theorem exists_wrapLastCluster {g : List Char} (h : t.Shows cols limit past (line ++ [g]))
    (hline : IsLine (line ++ [g])) (hne : line ≠ []) (hfull : (ofLine (line ++ [g])).length = cols)
    (hlimit : past.length < limit) :
    ∃ t', t.wrapLastCluster = .ok (some t') ∧ t'.Shows cols limit (past ++ [line]) [g] := by
  obtain ⟨lead, rest, hclosed, hhead, hrest⟩ :=
    (hline.isCharacter g (by simp)).exists_closed_eq_cons
  have hrow := h.getElem?_grid_replicate (n := 0) hfull
  rw [Slots.ofLine_append, Slots.ofLine_singleton, hclosed] at hrow hfull
  have hsum : (ofLine line).length + (rest.length + 1) = cols := by
    rw [← hfull, List.length_append, List.length_cons]
  obtain ⟨t₁, hpainted, hmove⟩ := exists_wrapLastCluster_slots (by simpa using hrow)
    (by rw [hfull, h.plain.cols_eq]) hrest (hline.extendsPrevious_eq_false hhead)
    (hline.of_append.1.ofLine_ne_nil hne)
  rw [← Slots.padded_eq hsum] at hpainted
  have hbelow := h.index hpainted hlimit
  obtain ⟨m, hm⟩ := Nat.exists_eq_add_of_le (by omega : rest.length + 1 ≤ cols)
  have hblank := hbelow.getElem?_grid_covered
    (by rw [Slots.ofLine_nil, List.length_nil, Nat.zero_add, hm] :
      (ofLine []).length + (rest.length + 1) + m = cols)
  obtain ⟨back', t', hreleased, hok, hpainted'⟩ := hmove _ _ _ hblank List.length_replicate
  have hlength : (ofLine [g]).length = rest.length + 1 := by
    rw [Slots.ofLine_singleton, hclosed, List.length_cons]
  have hslots : lead :: rest ++ back' = padded cols [g] := by
    rw [hreleased.back_eq_replicate, Slots.padded_eq (by omega : (ofLine [g]).length + m = cols),
      Slots.ofLine_singleton, hclosed]
  rw [hslots, ← hlength] at hpainted'
  exact ⟨t', hok, hbelow.repainted hpainted' (by omega)⟩

end Shows

/-- History and screen show a text: its characters in lines of which none is empty. -/
def Prints (t : Terminal) (cols limit : Nat) (text : List Char) : Prop :=
  ∃ past line, t.Shows cols limit past line ∧ past.flatten ++ line = characters text ∧
    (∀ l ∈ past, l ≠ []) ∧ (text ≠ [] → line ≠ [])

/-- Lists of which none is empty have at least one element each. -/
theorem length_le_length_flatten {α : Type} {lists : List (List α)} (h : ∀ l ∈ lists, l ≠ []) :
    lists.length ≤ lists.flatten.length := by
  induction lists with
  | nil => exact Nat.le_refl 0
  | cons l lists ih =>
      have hpos := List.length_pos_of_ne_nil (h l List.mem_cons_self)
      have hrest := ih fun m hm => h m (List.mem_cons_of_mem l hm)
      rw [List.length_cons, List.flatten_cons, List.length_append]
      omega

/-- Each line but the last holds some of the text. -/
theorem length_past_le {past : List (List (List Char))} {line : List (List Char)}
    {text : List Char} (htext : past.flatten ++ line = characters text)
    (hpast : ∀ l ∈ past, l ≠ []) : past.length ≤ text.length := by
  have hlines := length_le_length_flatten hpast
  have hcharacters := length_le_length_flatten fun g hg =>
    List.ne_nil_of_mem_splitBy (hg : g ∈ characters text)
  rw [Slots.flatten_characters, ← htext, List.length_append] at hcharacters
  omega

namespace Prints

variable {t : Terminal} {cols limit : Nat} {text : List Char}

/-- Printing what begins a new character. -/
theorem exists_putChar_of_lead (h : t.Prints cols limit text) (hcols : 2 ≤ cols)
    (hlimit : text.length < limit) {c : Char} {k : Nat}
    (hwidth : Text.columns? c = some (k + 1))
    (hlead : text = [] ∨ extendsPrevious text.getLast? c = false)
    (hprevious : extendsPrevious t.previousScalar? c = false) :
    (∃ t', t.putChar c = .ok t' ∧ t'.Prints cols limit (text ++ [c])) ∨
      (maxCoordinate < cols + 2 ∧ ∃ n, t.putChar c = .error (.tooFar n)) := by
  obtain ⟨past, line, hshows, htext, hpast, hne⟩ := h
  have htwo := Text.columns?_le_two hwidth
  have hcol := hshows.col_eq
  have hfits := hshows.fits
  have hfit : k + 1 ≤ t.cols := by
    rw [hshows.plain.cols_eq]
    omega
  have hshort : past.length < limit := Nat.lt_of_le_of_lt (length_past_le htext hpast) hlimit
  have hcharacters := Slots.characters_concat_of_lead hlead
  by_cases hmax : t.cursor.col + (k + 1) ≤ maxCoordinate
  · refine .inl ?_
    have hroom := makeRoom_of_le hmax
    by_cases hover : t.cols < t.cursor.col + (k + 1)
    · -- On the next row; this one has shown something, since two columns fit.
      rw [if_pos hover, if_pos hshows.plain.autoWrap] at hroom
      obtain ⟨roomy, hwrap, hroomy⟩ := hshows.exists_wrapRow hshort
      rw [hwrap] at hroom
      obtain ⟨t', hok, ht'⟩ := hroomy.exists_overwrite hwidth (by simp; omega)
      have hlineNe : line ≠ [] := by
        rintro rfl
        rw [hshows.plain.cols_eq, hcol, Slots.ofLine_nil, List.length_nil] at hover
        omega
      refine ⟨t', ?_, past ++ [line], [[c]], ht', ?_, ?_, fun _ => List.cons_ne_nil _ _⟩
      · rw [putChar_of_makeRoom_ok hwidth hprevious hfit hroom hroomy.plain.insertMode, hok]
      · rw [hcharacters, ← htext]
        simp
      · exact List.forall_mem_append.mpr ⟨hpast, List.forall_mem_singleton.mpr hlineNe⟩
    · rw [if_neg hover] at hroom
      rw [hshows.plain.cols_eq, hcol] at hover
      obtain ⟨t', hok, ht'⟩ := hshows.exists_overwrite hwidth (by omega)
      refine ⟨t', ?_, past, line ++ [[c]], ht', ?_, hpast, fun _ => by simp⟩
      · rw [putChar_of_makeRoom_ok hwidth hprevious hfit hroom hshows.plain.insertMode, hok]
      · rw [hcharacters, ← htext, List.append_assoc]
  · refine .inr ⟨by omega, _, putChar_of_makeRoom_error hwidth hprevious hfit
      (makeRoom_of_lt (Nat.not_le.mp hmax))⟩

/-- Printing what belongs to the last character. -/
theorem exists_putChar_of_attached (h : t.Prints cols limit text) (hline : IsLine (characters text))
    (hlimit : text.length < limit) (hne : text ≠ []) {c : Char} {w : Nat}
    (hwidth : Text.columns? c = some w) (hext : extendsPrevious text.getLast? c = true)
    (hprevious : extendsPrevious t.previousScalar? c = true)
    (hfit : ∀ g ∈ characters (text ++ [c]), (closed g).length ≤ cols) :
    ∃ t', t.putChar c = .ok t' ∧ t'.Prints cols limit (text ++ [c]) := by
  obtain ⟨past, line, hshows, htext, hpast, hlineNe⟩ := h
  obtain ⟨line, g, rfl⟩ : ∃ front g, line = front ++ [g] :=
    ⟨_, _, (List.dropLast_append_getLast (hlineNe hne)).symm⟩
  rw [← List.append_assoc] at htext
  have hcharacters := Slots.characters_concat_of_mark htext.symm hext
  rw [← htext, List.append_assoc] at hline
  have hlast := hline.of_append.2
  have hg := hlast.isCharacter g (by simp)
  have hshort : past.length < limit :=
    Nat.lt_of_le_of_lt (length_past_le (by rw [← htext, List.append_assoc]) hpast) hlimit
  have hrow : ¬ t.active.rows.length ≤ t.cursor.row := by
    have hat := (List.getElem?_eq_some_iff.mp hshows.getElem?_grid).1
    rw [grid, List.length_map] at hat
    omega
  rw [putChar_of_attached hwidth hprevious]
  unfold attach
  rw [if_neg hrow, hshows.plain.cols_eq, hshows.col_eq]
  by_cases hfull : cols ≤ (ofLine (line ++ [g])).length
  · have hfull : (ofLine (line ++ [g])).length = cols := Nat.le_antisymm hshows.fits hfull
    rw [if_pos (Nat.le_of_eq hfull.symm), if_pos hshows.plain.autoWrap]
    have hgrown := hfit (g ++ [c]) (by rw [hcharacters]; simp)
    rw [Slots.length_closed_concat hg.ne_nil] at hgrown
    have hfront : line ≠ [] := by
      rintro rfl
      rw [List.nil_append, Slots.ofLine_singleton] at hfull
      omega
    obtain ⟨moved, hwrap, hmoved⟩ := hshows.exists_wrapLastCluster hlast hfront hfull hshort
    have hmoved : moved.Shows cols limit (past ++ [line]) ([] ++ [g]) := hmoved
    obtain ⟨t', hok, ht'⟩ := hmoved.exists_attachHere hlast.of_append.2
      (by rw [List.nil_append, Slots.ofLine_singleton]; omega) c
    refine ⟨t', by rw [hwrap]; exact hok, past ++ [line], [g ++ [c]], ht', ?_, ?_, by simp⟩
    · rw [hcharacters]
      simp
    · exact List.forall_mem_append.mpr ⟨hpast, List.forall_mem_singleton.mpr hfront⟩
  · rw [if_neg hfull]
    obtain ⟨t', hok, ht'⟩ := hshows.exists_attachHere hlast (Nat.not_le.mp hfull) c
    refine ⟨t', hok, past, line ++ [g ++ [c]], ht', ?_, hpast, fun _ => by simp⟩
    rw [hcharacters, List.append_assoc]

/-- What is printed next is attached to the end of the text, if to anything. -/
theorem previousScalar?_eq (h : t.Prints cols limit text) (hline : IsLine (characters text)) :
    t.previousScalar? = text.getLast? := by
  obtain ⟨past, line, hshows, htext, -, hlineNe⟩ := h
  rw [hshows.previousScalar?_eq]
  by_cases hnil : text = []
  · subst hnil
    obtain rfl : line = [] := (List.append_eq_nil_iff.mp htext).2
    rfl
  · obtain ⟨front, g, rfl⟩ : ∃ front g, line = front ++ [g] :=
      ⟨_, _, (List.dropLast_append_getLast (hlineNe hnil)).symm⟩
    rw [← htext] at hline
    have hlast := hline.of_append.2
    have hg := hlast.isCharacter g (by simp)
    rw [hlast.scalarBefore_eq, ← Slots.flatten_characters text, ← htext, ← List.append_assoc,
      List.flatten_append, List.flatten_singleton, List.getLast?_append_of_ne_nil _ hg.ne_nil]

/-- Printing one character more.  The only thing that can go wrong is that columns are counted
beyond the greatest coordinate. -/
theorem exists_putChar (h : t.Prints cols limit text) (hline : IsLine (characters text))
    (hcols : 2 ≤ cols) (hlimit : text.length < limit) {c : Char} (hwidth : (Text.columns? c).isSome)
    (hfirst : text = [] → extendsPrevious none c = false)
    (hfit : ∀ g ∈ characters (text ++ [c]), (closed g).length ≤ cols) :
    (∃ t', t.putChar c = .ok t' ∧ t'.Prints cols limit (text ++ [c])) ∨
      (maxCoordinate < cols + 2 ∧ ∃ n, t.putChar c = .error (.tooFar n)) := by
  obtain ⟨w, hw⟩ := Option.isSome_iff_exists.mp hwidth
  have hprevious := h.previousScalar?_eq hline
  cases hext : extendsPrevious text.getLast? c with
  | true =>
      have hne : text ≠ [] := by
        rintro rfl
        rw [List.getLast?_nil, hfirst rfl] at hext
        cases hext
      exact .inl (h.exists_putChar_of_attached hline hlimit hne hw hext (hprevious ▸ hext) hfit)
  | false =>
      have hpos : w ≠ 0 := by
        rintro rfl
        rw [extendsPrevious_of_columns?_eq_zero hw] at hext
        cases hext
      obtain ⟨k, rfl⟩ := Nat.exists_eq_succ_of_ne_zero hpos
      exact h.exists_putChar_of_lead hcols hlimit hw (.inr hext) (hprevious ▸ hext)

end Prints

/-- A text is laid out in rows that show some lines, and the cursor stands behind what was printed
last. -/
structure LaysOut (t : Terminal) (text : List Char) (lines : List (List (List Char))) : Prop where
  /-- Each character stands in one of the lines with all that belongs to it. -/
  flatten_eq : lines.flatten = characters text
  shown_eq : t.shown = lines.map (padded t.cols)
  /-- Tails and spaces aside, nothing is lost and nothing else is shown. -/
  filter_eq : (t.shown.flatten.filter fun c => c != wideTail && c != ' ') = text.filter (· != ' ')
  /-- Wide characters have their tails, and there are no others. -/
  whole : ∀ slots ∈ t.shown, Slots.Whole slots
  /-- The cursor is seen behind the columns of its line. -/
  cursor : ∃ line, lines[t.active.scrollback.size + t.cursor.row]? = some line ∧
    t.visualCursorCol = (line.map columns).sum

/-- What history and screen show is the layout of the text. -/
theorem Prints.exists_laysOut {t : Terminal} {cols limit : Nat} {text : List Char}
    (h : t.Prints cols limit text) (hwidth : ∀ c ∈ text, (Text.columns? c).isSome)
    (hfirst : ∀ c ∈ text.head?, extendsPrevious none c = false) (hfree : wideTail ∉ text) :
    ∃ lines, t.LaysOut text lines := by
  obtain ⟨past, line, hshows, htext, -⟩ := h
  obtain ⟨k, hshown⟩ := hshows.shown_eq
  have hflatten : (past ++ line :: List.replicate k []).flatten = characters text := by
    simp [← htext]
  have hall : IsLine (past ++ line :: List.replicate k []).flatten :=
    hflatten ▸ Slots.isLine_characters hfirst hfree
  refine ⟨past ++ line :: List.replicate k [], hflatten, ?_, ?_, ?_, line, ?_, ?_⟩
  · rw [hshown, hshows.plain.cols_eq]
  · rw [hshown, Slots.filter_flatten_padded (by decide) (by decide), hflatten,
      Slots.flatten_characters]
    refine List.filter_congr fun c hc => ?_
    have hne : c ≠ wideTail := fun heq => hfree (heq ▸ hc)
    simp [hne]
  · intro slots hslots
    rw [hshown] at hslots
    obtain ⟨l, hl, rfl⟩ := List.mem_map.mp hslots
    exact (hall.of_flatten hl).whole_padded cols
  · rw [hshows.row_eq, List.getElem?_append_right (Nat.le_refl _), Nat.sub_self]
    rfl
  · refine hshows.visualCursorCol_eq (hall.of_flatten (by simp)) fun g hg c hc => hwidth c ?_
    rw [← Slots.flatten_characters text, ← htext]
    exact List.mem_flatten.mpr ⟨g, List.mem_append_right _ hg, hc⟩

/-- Less of a text takes no more slots. -/
theorem fits_of_concat {cols : Nat} {text : List Char} {c : Char}
    (h : ∀ g ∈ characters (text ++ [c]), (closed g).length ≤ cols) :
    ∀ g ∈ characters text, (closed g).length ≤ cols := by
  intro g hg
  by_cases hlead : text = [] ∨ extendsPrevious text.getLast? c = false
  · refine h g ?_
    rw [Slots.characters_concat_of_lead hlead]
    exact List.mem_append_left _ hg
  · rw [not_or, Bool.not_eq_false] at hlead
    obtain ⟨front, last, hsplit, hlast, -⟩ := Slots.exists_characters_eq_concat hlead.1
    rw [Slots.characters_concat_of_mark hsplit hlead.2] at h
    rw [hsplit] at hg
    rcases List.mem_append.mp hg with hg | hg
    · exact h g (List.mem_append_left _ hg)
    · rw [List.mem_singleton.mp hg]
      have hgrown := h (last ++ [c]) (by simp)
      rw [Slots.length_closed_concat hlast] at hgrown
      omega

section PutText

variable {cols rows limit : Nat} {text : List Char}

/-- The last character of a text is printed last. -/
theorem putText_concat (t : Terminal) (text : List Char) (c : Char) :
    t.putText (text ++ [c]) = t.putText text >>= fun t' => t'.putChar c := by
  rw [putText_eq, putText_eq, List.foldlM_append]
  simp

/-- **A text is printed**, or one of its characters is counted too far. -/
theorem prints_putText (hcols : 2 ≤ cols) (hrows : 1 ≤ rows) (hlimit : text.length ≤ limit)
    (hwidth : ∀ c ∈ text, (Text.columns? c).isSome)
    (hfirst : ∀ c ∈ text.head?, extendsPrevious none c = false) (hfree : wideTail ∉ text)
    (hfit : ∀ g ∈ characters text, (closed g).length ≤ cols) :
    (∃ t', (Terminal.new cols rows limit).putText text = .ok t' ∧ t'.Prints cols limit text) ∨
      (maxCoordinate < cols + 2 ∧
        ∃ n, (Terminal.new cols rows limit).putText text = .error (.tooFar n)) := by
  induction text using List.reverseRecOn with
  | nil => exact .inl ⟨_, putText_nil _, [], [], Shows.new hrows, rfl, by simp, by simp⟩
  | append_singleton text c ih =>
      rw [List.length_append, List.length_singleton] at hlimit
      rw [List.mem_append, List.mem_singleton, not_or] at hfree
      have hfirst' : ∀ d ∈ text.head?, extendsPrevious none d = false := by
        intro d hd
        refine hfirst d ?_
        rw [Option.mem_def] at hd
        rw [List.head?_append, hd]
        rfl
      rw [putText_concat]
      rcases ih (by omega) (fun d hd => hwidth d (List.mem_append_left _ hd)) hfirst' hfree.1
        (fits_of_concat hfit) with ⟨t, hok, ht⟩ | ⟨hmax, n, herror⟩
      · rw [hok]
        refine ht.exists_putChar (Slots.isLine_characters hfirst' hfree.1) hcols (by omega)
          (hwidth c (by simp)) ?_ hfit
        rintro rfl
        exact hfirst c rfl
      · rw [herror]
        exact .inr ⟨hmax, n, rfl⟩

end PutText

/-! ## Letters that fill a row -/

section Letters

variable {cols rows limit : Nat} {text : List Char}

/-- Each letter is a character of its own. -/
theorem characters_of_letters (h : ∀ c ∈ text, Text.isPrintable7 c = true) :
    characters text = text.map fun c => [c] := by
  induction text using List.reverseRecOn with
  | nil => rfl
  | append_singleton text d ih =>
      have hd : Text.isPrintable7 d = true := h d (by simp)
      rw [Slots.characters_concat_of_lead (.inr (extendsPrevious_of_isPrintable7 hd _)),
        ih fun c hc => h c (List.mem_append_left _ hc), List.map_append, List.map_singleton]

/-- A letter takes one slot. -/
theorem length_closed_of_isPrintable7 {c : Char} (hc : Text.isPrintable7 c = true) :
    (closed [c]).length = 1 :=
  Slots.length_closed_singleton (Text.columns?_of_isPrintable7 hc) Nat.one_pos

/-- Letters take as many slots as there are. -/
theorem length_ofLine_of_letters (h : ∀ c ∈ text, Text.isPrintable7 c = true) :
    (ofLine (text.map fun c => [c])).length = text.length := by
  induction text with
  | nil => rfl
  | cons c text ih =>
      obtain ⟨hc, htext⟩ := List.forall_mem_cons.mp h
      rw [List.map_cons, ← List.singleton_append, Slots.ofLine_append, Slots.ofLine_singleton,
        List.length_append, length_closed_of_isPrintable7 hc, ih htext, List.length_cons,
        Nat.add_comm]

/-- Letters that fit stand in the first row. -/
theorem exists_putText_of_letters (hrows : 1 ≤ rows) (hcols : cols ≤ maxCoordinate)
    (h : ∀ c ∈ text, Text.isPrintable7 c = true) (hfit : text.length ≤ cols) :
    ∃ t', (Terminal.new cols rows limit).putText text = .ok t' ∧
      t'.Shows cols limit [] (text.map fun c => [c]) := by
  induction text using List.reverseRecOn with
  | nil => exact ⟨_, putText_nil _, Shows.new hrows⟩
  | append_singleton text d ih =>
      rw [List.length_append, List.length_singleton] at hfit
      have hd : Text.isPrintable7 d = true := h d (by simp)
      have htext : ∀ c ∈ text, Text.isPrintable7 c = true :=
        fun c hc => h c (List.mem_append_left _ hc)
      obtain ⟨t, hok, hshows⟩ := ih htext (Nat.le_of_succ_le hfit)
      have hlen := length_ofLine_of_letters htext
      have hwidth := Text.columns?_of_isPrintable7 hd
      have hcol := hshows.col_eq
      have hone : 1 ≤ t.cols := by
        rw [hshows.plain.cols_eq]
        omega
      have hroom : t.makeRoom 1 = .ok t := by
        rw [makeRoom_of_le (by omega), if_neg (by rw [hshows.plain.cols_eq]; omega)]
      obtain ⟨t', hput, ht'⟩ := hshows.exists_overwrite hwidth (by omega)
      refine ⟨t', ?_, ?_⟩
      · rw [putText_concat, hok]
        exact (putChar_of_makeRoom_ok hwidth (extendsPrevious_of_isPrintable7 hd _) hone hroom
          hshows.plain.insertMode).trans hput
      · rwa [List.map_append, List.map_singleton]

/-- Behind the widest row no letter can be printed, though there may be a row below. -/
theorem overflows_putText_of_letters (hrows : 1 ≤ rows) (hcols : cols = maxCoordinate)
    (h : ∀ c ∈ text, Text.isPrintable7 c = true) (hlen : text.length = cols + 1) :
    Overflows ((Terminal.new cols rows limit).putText text) := by
  rcases List.eq_nil_or_concat' text with rfl | ⟨front, d, rfl⟩
  · cases hlen
  · rw [List.length_append, List.length_singleton, Nat.add_right_cancel_iff] at hlen
    have hd : Text.isPrintable7 d = true := h d (by simp)
    have hfront : ∀ c ∈ front, Text.isPrintable7 c = true :=
      fun c hc => h c (List.mem_append_left _ hc)
    obtain ⟨t', hok, hshows⟩ := @exists_putText_of_letters cols rows limit front hrows
      (Nat.le_of_eq hcols) hfront (Nat.le_of_eq hlen)
    rw [overflows_putText_iff]
    refine ⟨front, d, [], t', rfl, hok, 1, Text.columns?_of_isPrintable7 hd,
      extendsPrevious_of_isPrintable7 hd _, ?_, ?_⟩
    · rw [hshows.plain.cols_eq, hcols]
      decide
    · rw [hshows.col_eq, length_ofLine_of_letters hfront, hlen, hcols]
      exact Nat.lt_succ_self _

/-- Blanks that fill a row, and a letter that has no room there any more. -/
def overfull (cols : Nat) : List Char := List.replicate cols ' ' ++ ['a']

theorem length_overfull (cols : Nat) : (overfull cols).length = cols + 1 := by
  rw [overfull, List.length_append, List.length_replicate, List.length_singleton]

theorem isPrintable7_of_mem_overfull {c : Char} (h : c ∈ overfull cols) :
    Text.isPrintable7 c = true := by
  rcases List.mem_append.mp h with hblank | hletter
  · rw [List.eq_of_mem_replicate hblank]
    decide
  · rw [List.mem_singleton.mp hletter]
    decide

end Letters

/-! ## The layout -/

section Layout

variable {cols rows limit : Nat} {text : List Char}

/-- **The layout of a printed text.**  A text is laid out, and that with all its characters, unless
one of them is counted beyond the greatest coordinate.  That takes one of the two greatest
widths. -/
theorem putText_new_laysOut (hcols : 2 ≤ cols) (hrows : 1 ≤ rows) (hlimit : text.length ≤ limit)
    (hwidth : ∀ c ∈ text, (Text.columns? c).isSome)
    (hfirst : ∀ c ∈ text.head?, extendsPrevious none c = false) (hfree : wideTail ∉ text)
    (hfit : ∀ g ∈ characters text, (closed g).length ≤ cols) :
    ((∃ t' lines, (Terminal.new cols rows limit).putText text = .ok t' ∧ t'.LaysOut text lines) ↔
        ¬ (Terminal.new cols rows limit).OvershootsIn text) ∧
      ((Terminal.new cols rows limit).OvershootsIn text → maxCoordinate < cols + 2 ∧
        ∃ n, (Terminal.new cols rows limit).putText text = .error (.tooFar n)) := by
  rw [← overflows_putText_iff]
  rcases prints_putText hcols hrows hlimit hwidth hfirst hfree hfit with
    ⟨t', hok, hprints⟩ | ⟨hmax, hover⟩
  · have hcounted : ¬ Overflows ((Terminal.new cols rows limit).putText text) := by
      rw [hok]
      exact not_overflows_ok t'
    obtain ⟨lines, hlays⟩ := hprints.exists_laysOut hwidth hfirst hfree
    exact ⟨iff_of_true ⟨t', lines, hok, hlays⟩ hcounted, fun h => absurd h hcounted⟩
  · refine ⟨iff_of_false ?_ (not_not_intro hover), fun _ => ⟨hmax, hover⟩⟩
    rintro ⟨t', lines, hok, -⟩
    rw [hok] at hover
    exact not_overflows_ok t' hover

/-- A wide character that fills its row is moved to the next one when a mark is attached to it. -/
theorem putText_new_laysOut_mark :
    3 + 2 ≤ maxCoordinate ∧ ∃ t' lines,
      (Terminal.new 3 1 3).putText ['a', '\u4E2D', '\u0301'] = .ok t' ∧
        t'.LaysOut ['a', '\u4E2D', '\u0301'] lines := by
  obtain ⟨hlays, hover⟩ := @putText_new_laysOut 3 1 3 ['a', '\u4E2D', '\u0301'] (by decide)
    (by decide) (by decide) (List.all_eq_true.mp (by decide +kernel))
    (fun _ hc => Option.some.inj hc ▸ by decide +kernel) (by decide) (by decide +kernel)
  exact ⟨by decide, hlays.mpr fun h => absurd (hover h).1 (by decide)⟩

/-- Not every text is laid out: behind blanks that fill the widest row, a letter is counted too
far. -/
theorem not_laysOut :
    ¬ ∀ (cols rows limit : Nat) (text : List Char), 2 ≤ cols → cols ≤ maxCoordinate → 1 ≤ rows →
      text.length ≤ limit → (∀ c ∈ text, (Text.columns? c).isSome) →
      (∀ c ∈ text.head?, extendsPrevious none c = false) → wideTail ∉ text →
      (∀ g ∈ characters text, (closed g).length ≤ cols) →
      ∃ t' lines, (Terminal.new cols rows limit).putText text = .ok t' ∧ t'.LaysOut text lines := by
  intro hall
  obtain ⟨cols, hcols⟩ : ∃ cols, cols = maxCoordinate := ⟨_, rfl⟩
  have htwo : 2 ≤ cols := hcols ▸ by decide
  have hletters : ∀ c ∈ overfull cols, Text.isPrintable7 c = true :=
    fun _ => isPrintable7_of_mem_overfull
  have hshort : ∀ g ∈ characters (overfull cols), (closed g).length ≤ cols := by
    intro g hg
    rw [characters_of_letters hletters] at hg
    obtain ⟨c, hc, rfl⟩ := List.mem_map.mp hg
    rw [length_closed_of_isPrintable7 (hletters c hc)]
    omega
  obtain ⟨t', lines, hok, -⟩ := hall cols 2 (cols + 1) (overfull cols) htwo (Nat.le_of_eq hcols)
    (by decide) (Nat.le_of_eq (length_overfull cols))
    (fun c hc => by rw [Text.columns?_of_isPrintable7 (hletters c hc)]; rfl)
    (fun c hc => extendsPrevious_of_isPrintable7 (hletters c (List.mem_of_mem_head? hc)) none)
    (fun htail => absurd (hletters _ htail) (by decide)) hshort
  have hover : Overflows ((Terminal.new cols 2 (cols + 1)).putText (overfull cols)) :=
    overflows_putText_of_letters (by decide) hcols hletters (length_overfull cols)
  rw [hok] at hover
  exact not_overflows_ok t' hover

end Layout

end Terminal

end VideoTerminal
