import VideoTerminal.Proofs.Rendering.Legible
import VideoTerminal.Proofs.Rendering.Written

/-!
# A rendered screen replays to itself

A text that only prints, ends lines and chooses styles leaves rows that are composed, and what is
rendered of such a row composes it again: of a wide character only the character is written, which
brings its tail along, and a mark is put where it was (`Renderer.readsBack_of_composed`).  A row
that is full does not wrap, for a line break follows and no character.

So the rendered screen, written on a fresh terminal of the same size, shows the same characters, and
up to the last cell of a row that is written the same attributes (`Renderer.replay_render`).  There
is no such screen if a character of the text is counted too far (`Renderer.not_replays`).
-/

namespace VideoTerminal

/-! ## Cells as letters -/

namespace Cells

/-- The letters of the cells.  A wide tail is none. -/
def letters (cells : Cells) : List (Style × Char) :=
  (cells.filter fun cell => !cell.isWideTail).map fun cell => (cell.style, cell.char)

/-- The same characters in other styles. -/
def restyle (f : Style → Style) (cells : Cells) : Cells :=
  cells.map fun cell => ⟨cell.char, f cell.style⟩

variable {front back : Cells} {c : Char} {style : Style}

/-- Cells one after the other have the letters of each of them. -/
theorem letters_append (front back : Cells) :
    letters (front ++ back) = front.letters ++ back.letters := by
  rw [letters, List.filter_append, List.map_append]
  rfl

/-- A cell but a tail is a letter. -/
theorem letters_singleton_of_ne {cell : Cell} (h : cell.char ≠ wideTail) :
    letters [cell] = [(cell.style, cell.char)] := by
  simp [letters, Cell.isWideTail, h]

theorem letters_singleton_of_eq {cell : Cell} (h : cell.char = wideTail) : letters [cell] = [] := by
  simp [letters, Cell.isWideTail, h]

/-- The letters of cells are those of each cell. -/
theorem letters_eq_flatMap (cells : Cells) :
    cells.letters = cells.flatMap fun cell => letters [cell] := by
  induction cells with
  | nil => rfl
  | cons cell cells ih =>
      rw [List.flatMap_cons, ← ih]
      exact letters_append [cell] cells

/-- A character is one letter, wide or not. -/
theorem letters_glyph (hc : c ≠ wideTail) (style : Style) :
    (glyph c style).letters = [(style, c)] := by
  unfold glyph
  split
  · exact (letters_append [⟨c, style⟩] _).trans (by
      rw [letters_singleton_of_ne hc, letters_singleton_of_eq rfl, List.append_nil])
  · exact letters_singleton_of_ne hc

section Restyle

variable (f : Style → Style)

/-- Other styles leave the characters. -/
theorem slots_restyle (cells : Cells) : (restyle f cells).slots = cells.slots := by
  simp [restyle, slots]

theorem length_restyle (cells : Cells) : (restyle f cells).length = cells.length :=
  List.length_map _

theorem restyle_append (front back : Cells) :
    restyle f (front ++ back) = restyle f front ++ restyle f back := List.map_append

/-- A character in another style is that character, restyled. -/
theorem restyle_glyph (c : Char) (style : Style) :
    restyle f (glyph c style) = glyph c (f style) := by
  unfold glyph
  split <;> rfl

end Restyle

/-- A mark is the last letter of its cells, in some style. -/
theorem exists_style_mark (front : Cells) (hc : c ≠ wideTail) (style : Style) :
    ∃ own, (mark front c style).letters = front.letters ++ [(own, c)] ∧
      ∀ f, restyle f (mark front c style) = mark (restyle f front) c (f own) := by
  rcases mark_cases front c style with ⟨rfl, h⟩ | ⟨before, last, rfl, hlast, h⟩ |
    ⟨before, last, rfl, hlast, h⟩
  · refine ⟨style, ?_, fun f => ?_⟩
    · rw [h, letters_singleton_of_ne hc]
      rfl
    · rw [h]
      rfl
  · have hsplit : [⟨c, last.style⟩, last] = ([⟨c, last.style⟩] : Cells) ++ [last] := rfl
    refine ⟨last.style, ?_, fun f => ?_⟩
    · rw [h, hsplit, letters_append, letters_append, letters_append,
        letters_singleton_of_ne hc, letters_singleton_of_eq hlast, List.append_nil, List.append_nil]
    · rw [h, restyle_append, restyle_append]
      exact (@mark_concat_wideTail (restyle f before) c (f last.style)
        ⟨last.char, f last.style⟩ hlast).symm
  · refine ⟨last.style, ?_, fun f => ?_⟩
    · rw [h, letters_append, letters_singleton_of_ne hc]
    · rw [h, restyle_append, restyle_append]
      exact (@mark_concat_of_ne (restyle f before) c (f last.style)
        ⟨last.char, f last.style⟩ hlast).symm

/-- Controls have no width, and are never printed. -/
theorem Composed.not_isControl7_of_mem_letters {front : Cells} (h : front.Composed)
    {letter : Style × Char} (hletter : letter ∈ front.letters) :
    Text.isControl7 letter.2 = false := by
  obtain ⟨cell, hcell, rfl⟩ := List.mem_map.mp hletter
  have hwidth := h.isSome_columns? cell (List.mem_of_mem_filter hcell)
  refine Bool.eq_false_iff.mpr fun hcontrol => ?_
  rw [(Text.columns?_eq_none_iff _).mpr (Text.isControl_of_isControl7 hcontrol)] at hwidth
  cases hwidth

end Cells

namespace Sheet

variable {cols : Nat} {s : Sheet} {c : Char} {w : Nat}

/-- A character that begins a new one and has room on its row. -/
theorem put_of_lead (hwidth : Text.columns? c = some w)
    (hlead : extendsPrevious (Slots.scalarBefore s.front.slots) c = false)
    (hfit : s.front.length + w ≤ cols) :
    s.put cols c = { s with front := s.front ++ Cells.glyph c s.style } := by
  unfold put
  rw [hwidth]
  dsimp only
  rw [hlead, if_neg Bool.false_ne_true, if_neg (by omega), if_neg (by omega)]

/-- A mark that has room. -/
theorem put_of_extendsPrevious (hwidth : (Text.columns? c).isSome)
    (hext : extendsPrevious (Slots.scalarBefore s.front.slots) c = true)
    (hroom : s.front.length < cols) :
    s.put cols c = { s with front := s.front.mark c s.style } := by
  obtain ⟨w, hw⟩ := Option.isSome_iff_exists.mp hwidth
  unfold put
  rw [hw]
  dsimp only
  rw [if_pos hext, attach, if_pos hroom]

end Sheet

namespace Renderer

variable {r : Renderer} {cols : Nat} {s : Sheet}

/-- The letters of the cells are read as the cells themselves, in the styles that are read back. -/
def ReadsBack (r : Renderer) (cols : Nat) (s : Sheet) (cells : Cells) : Prop :=
  ∃ style, s.typeset? cols (cells.letters.flatMap r.letterPieces) =
    some { s with front := cells.restyle r.reread, style := style }

/-- One letter more. -/
theorem ReadsBack.concat {before after : Cells} (h : r.ReadsBack cols s before)
    (hplain : r.plain = true → s.style = .empty) {own : Style} {c : Char}
    (hletters : after.letters = before.letters ++ [(own, c)])
    (hput : ∀ t : Sheet, t.front = before.restyle r.reread → t.style = r.reread own →
      t.countable cols c = true ∧ t.put cols c = { t with front := after.restyle r.reread }) :
    r.ReadsBack cols s after := by
  obtain ⟨style, hread⟩ := h
  obtain ⟨hcount, hput⟩ := hput { s with
    front := before.restyle r.reread, style := r.reread own } rfl rfl
  refine ⟨r.reread own, ?_⟩
  rw [hletters, List.flatMap_append, Sheet.typeset?_append, hread, Option.bind_some,
    List.flatMap_singleton, typeset?_letterPieces fun hplain' =>
      style_of_typeset?_letters hplain' (hplain hplain') hread]
  exact (Sheet.step?_print_of_countable _ _ hcount).trans (congrArg some hput)

/-- **Composed cells are read back.** -/
theorem readsBack_of_composed (hcols : cols ≤ maxCoordinate) {front : Cells} (h : front.Composed)
    (hfits : front.length ≤ cols) (hfront : s.front = [])
    (hplain : r.plain = true → s.style = .empty) : r.ReadsBack cols s front := by
  -- Each way to compose is printing one letter behind cells that have been read back.
  induction h with
  | nil =>
      obtain ⟨past, before, style⟩ := s
      obtain rfl : before = [] := hfront
      exact ⟨style, rfl⟩
  | @glyph front c style hfront' hwidth hlead ih =>
      obtain ⟨w, hw⟩ := Option.isSome_iff_exists.mp hwidth
      have hlen := Cells.length_glyph hw (pos_of_extendsPrevious_eq_false hw hlead) style
      rw [List.length_append, hlen] at hfits
      have hc : c ≠ wideTail := by
        rintro rfl
        rw [extendsPrevious_wideTail] at hlead
        cases hlead
      refine (ih (by omega)).concat hplain
        ((Cells.letters_append _ _).trans (congrArg _ (Cells.letters_glyph hc style))) ?_
      intro t ht hstyle
      have hfit : t.front.length + w ≤ cols := by rwa [ht, Cells.length_restyle]
      refine ⟨Sheet.countable_of_le hcols hw hfit, ?_⟩
      rw [Sheet.put_of_lead hw (by rwa [ht, Cells.slots_restyle]) hfit, ht, hstyle,
        Cells.restyle_append, Cells.restyle_glyph]
  | @mark front c style hfront' hwidth hc hext ih =>
      rw [Cells.length_mark] at hfits
      obtain ⟨own, hletters, hrestyle⟩ := front.exists_style_mark hc style
      refine (ih (by omega)).concat hplain hletters fun t ht hstyle => ?_
      have hext' : extendsPrevious (Slots.scalarBefore t.front.slots) c = true := by
        rwa [ht, Cells.slots_restyle]
      have hroom : t.front.length < cols := by
        rw [ht, Cells.length_restyle]
        omega
      refine ⟨Sheet.countable_of_extendsPrevious hext', ?_⟩
      rw [Sheet.put_of_extendsPrevious hwidth hext' hroom, ht, hstyle, hrestyle]

end Renderer

/-! ## Rows -/

namespace Row

variable {row : Row} {cols : Nat}

/-- The attributes of a slot. -/
def attributes? (row : Row) (col : Nat) : Option Attributes :=
  row.cells[col]?.map fun cell => cell.style.attributes

namespace Legible

variable (h : row.Legible cols)

include h

/-- What is written of a legible row is composed. -/
theorem composed_used : Cells.Composed row.used := by
  obtain ⟨blanks, hsplit, -, hblanks⟩ := row.exists_blanks
  cases blanks with
  | nil =>
      rw [List.append_nil] at hsplit
      rw [← hsplit]
      exact h.composed
  | cons cell blanks =>
      have hcomposed := h.composed
      rw [hsplit] at hcomposed
      refine (hcomposed.of_append ?_).1
      rw [(hblanks cell List.mem_cons_self).1]
      exact extendsPrevious_space _

/-- No more is written than the row has. -/
theorem length_used_le : row.used.length ≤ cols := by
  rw [← h.length_eq, used, List.length_take]
  exact Nat.min_le_right _ _

/-- Filled up with blanks, what is written shows the row again. -/
theorem slots_pad_restyle (f : Style → Style) :
    (Cells.pad cols (row.used.restyle f)).slots = row.cells.slots := by
  obtain ⟨blanks, hsplit, -, hblanks⟩ := row.exists_blanks
  have hlen := h.length_eq
  rw [hsplit, List.length_append] at hlen
  have hspaces : Cells.slots blanks = List.replicate blanks.length ' ' :=
    List.eq_replicate_iff.mpr ⟨Cells.length_slots blanks, fun c hc => by
      obtain ⟨cell, hcell, rfl⟩ := List.mem_map.mp hc
      exact (hblanks cell hcell).1⟩
  rw [Cells.slots_pad, Cells.slots_restyle, Cells.length_restyle, hsplit, Cells.slots_append,
    hspaces]
  congr 2
  omega

/-- Nothing is hidden, so that each slot shows its own character. -/
theorem letters_eq : row.letters = row.used.letters := by
  have hslot : ∀ p ∈ row.used.zipIdx,
      ((row.signsAt p.2 p.1).map fun sign => (p.1.style, sign)).map
          (fun sign => (sign.1, sign.2.char)) = Cells.letters [p.1] := by
    rintro ⟨cell, i⟩ hp
    have hmem : cell ∈ row.cells := List.mem_of_mem_take (List.fst_mem_of_mem_zipIdx hp)
    have hshown : ¬ cell.style.has .hidden = true :=
      Bool.eq_false_iff.mp (h.writable cell hmem).hidden
    dsimp only
    rw [signsAt, if_neg hshown]
    cases htail : cell.isWideTail with
    | true => simp [Cells.letters, htail]
    | false => cases row.cells.line.isStructural i <;> simp [Cells.letters, htail, Sign.char]
  rw [letters, signs, List.map_flatMap]
  refine (List.flatMap_congr hslot).trans ?_
  rw [row.used.letters_eq_flatMap, ← List.zipIdx_map_fst 0 row.used, List.flatMap_map,
    List.zipIdx_map_fst]

/-- The runs of the row spell its letters. -/
theorem spelled_runs : spelled row.runs = row.used.letters := by
  rw [runs, spelled_joinRuns, row.spelled_glyphs, h.letters_eq]

end Legible

end Row

/-! ## Pages -/

namespace Renderer

variable {r : Renderer} {cols : Nat} {s : Sheet}

/-- The cells of a row that are read back. -/
def rereadRow (r : Renderer) (row : Row) : Cells := row.used.restyle r.reread

/-- Behind a row the empty style is chosen. -/
theorem typeset?_resetPieces (h : r.plain = true → s.style = .empty) :
    s.typeset? cols r.resetPieces = some { s with style := .empty } := by
  unfold resetPieces
  split
  · next hplain =>
    rw [← h hplain]
    rfl
  · have hsmall : ∀ ns ∈ [[0], [0]], Small ns := by simp [Small]
    refine (s.typeset?_codes cols hsmall).trans ?_
    rw [List.foldl_cons, List.foldl_cons, List.foldl_nil, Style.select_zero]

/-- **A row is read back**, and no style is left. -/
theorem typeset?_linePieces (hcols : cols ≤ maxCoordinate) {row : Row} (hrow : row.Legible cols)
    (hfront : s.front = []) (hstyle : s.style = .empty) :
    s.typeset? cols (r.linePieces row) = some { s with front := r.rereadRow row } := by
  obtain ⟨style, hread⟩ := readsBack_of_composed (r := r) hcols hrow.composed_used
    hrow.length_used_le hfront fun _ => hstyle
  have hruns : ∀ run ∈ row.runs, run.2 ≠ [] := fun run hrun => Row.ne_nil_of_mem_joinRuns hrun
  rw [linePieces, Sheet.typeset?_append, typeset?_runs (fun _ => hstyle) hruns, hrow.spelled_runs,
    hread, Option.bind_some,
    typeset?_resetPieces fun hplain => style_of_typeset?_letters hplain hstyle hread, ← hstyle]
  rfl

/-- **A page is read back** row by row. -/
theorem typeset?_page (hcols : cols ≤ maxCoordinate) {rows : List Row} {last : Row}
    (hrows : ∀ row ∈ rows, row.Legible cols) (hlast : last.Legible cols) (hfront : s.front = [])
    (hstyle : s.style = .empty) :
    s.typeset? cols (List.intercalate [.newLine] ((rows ++ [last]).map r.linePieces)) =
      some { s with
        past := s.past ++ rows.map fun row => (r.rereadRow row).pad cols
        front := r.rereadRow last } := by
  induction rows generalizing s with
  | nil =>
      rw [List.nil_append, List.map_singleton, List.intercalate_singleton,
        typeset?_linePieces hcols hlast hfront hstyle, List.map_nil, List.append_nil]
  | cons row rows ih =>
      obtain ⟨hrow, hrest⟩ := List.forall_mem_cons.mp hrows
      have hne : (rows ++ [last]).map r.linePieces ≠ [] := by simp
      have hnext := ih (s := ({ s with front := r.rereadRow row } : Sheet).newLine cols) hrest rfl
        hstyle
      rw [List.cons_append, List.map_cons, List.intercalate_cons_of_ne_nil hne, List.append_assoc,
        Sheet.typeset?_append, typeset?_linePieces hcols hrow hfront hstyle, Option.bind_some]
      refine hnext.trans ?_
      rw [List.map_cons, Sheet.newLine, List.append_assoc]
      rfl

end Renderer

/-! ## Replaying -/

namespace Renderer

variable {r : Renderer} {cols rows : Nat}

/-- A row is written in plain pieces. -/
theorem plain_of_mem_linePieces {row : Row} (h : row.Legible cols) {piece : Piece}
    (hpiece : piece ∈ r.linePieces row) : piece.Plain := by
  rcases mem_linePieces hpiece with ⟨ns, rfl⟩ | ⟨letter, hletter, rfl⟩
  · exact Piece.plain_rendition _
  · rw [h.spelled_runs] at hletter
    intro c hc
    cases hc
    exact h.composed_used.not_isControl7_of_mem_letters hletter

/-- And so are rows with line breaks between them. -/
theorem plain_of_mem_page {page : List Row} (h : ∀ row ∈ page, row.Legible cols) {piece : Piece}
    (hpiece : piece ∈ List.intercalate [.newLine] (page.map r.linePieces)) : piece.Plain := by
  induction page with
  | nil => cases hpiece
  | cons row page ih =>
      obtain ⟨hrow, hpage⟩ := List.forall_mem_cons.mp h
      by_cases hempty : page = []
      · subst hempty
        rw [List.map_singleton, List.intercalate_singleton] at hpiece
        exact plain_of_mem_linePieces hrow hpiece
      · rw [List.map_cons, List.intercalate_cons_of_ne_nil (by simpa using hempty)] at hpiece
        rcases List.mem_append.mp hpiece with hfirst | hrest
        · rcases List.mem_append.mp hfirst with hline | hbreak
          · exact plain_of_mem_linePieces hrow hline
          · rw [List.mem_singleton.mp hbreak]
            exact Piece.plain_newLine
        · exact ih hpage hrest

/-- **Legible rows are replayed**: what is rendered of them is fed to a fresh terminal of their
size, and shows them again. -/
theorem exists_feedText_replayed (hrows : 1 ≤ rows) (hcols : cols ≤ maxCoordinate) (limit : Nat)
    {t : Terminal} (hlen : t.active.rows.length = rows)
    (hlegible : ∀ row ∈ t.active.rows, row.Legible cols) :
    ∃ j, (⟨{}, Terminal.new cols rows limit⟩ : Interpreter).feedText (replayed (r.render t)) =
        .ok (j, []) ∧
      j.terminal.active.rows.map Row.cells =
        t.active.rows.map fun row => (r.rereadRow row).pad cols := by
  -- All rows but the last one become past; the cursor stays in the last one.
  obtain ⟨front, last, hsplit⟩ : ∃ front last, t.active.rows = front ++ [last] :=
    ⟨_, _, (List.dropLast_concat_getLast (List.ne_nil_of_length_pos (by omega))).symm⟩
  have hbreaks : ∀ row ∈ t.active.rows, ∀ letter ∈ spelled row.runs, letter.2 ≠ '\n' := by
    rintro row hrow ⟨style, c⟩ hletter rfl
    rw [(hlegible row hrow).spelled_runs] at hletter
    cases (hlegible row hrow).composed_used.not_isControl7_of_mem_letters hletter
  rw [hsplit] at hlegible hlen
  have hpage := typeset?_page (r := r) (s := {}) hcols (List.forall_mem_append.mp hlegible).1
    (hlegible last (List.mem_append_right front List.mem_cons_self)) rfl rfl
  rw [replayed_render hbreaks, hsplit]
  have hnew : (Terminal.new cols rows limit).Displays cols limit {} := .new hrows
  rcases hnew.exists_feedText (i := ⟨{}, Terminal.new cols rows limit⟩) rfl
    (fun piece => plain_of_mem_page hlegible) with
    ⟨s, j, htypeset, hok, hheight, hj⟩ | ⟨hnone, -⟩
  · obtain rfl := Option.some.inj (hpage.symm.trans htypeset)
    refine ⟨j, hok, ?_⟩
    have hheight : j.terminal.rows = rows := hheight
    rw [List.length_append, List.length_singleton] at hlen
    rw [hj.cells_eq, hheight, Sheet.screen, List.nil_append, rtake_of_length_le (by simp; omega),
      List.length_map, Nat.sub_eq_zero_of_le (by omega), List.replicate_zero, List.map_append]
    rfl
  · rw [hpage] at hnone
    cases hnone

/-- The attributes of the cells that are written are read back. -/
theorem attributes?_pad_rereadRow (hplain : r.plain = false) {row : Row} (h : row.Legible cols)
    {col : Nat} (hcol : col < row.usedLength) :
    (((r.rereadRow row).pad cols)[col]?.map fun cell => cell.style.attributes) =
      row.attributes? col := by
  obtain ⟨blanks, -, hlen, -⟩ := row.exists_blanks
  have hlt : col < (r.rereadRow row).length := by
    rw [rereadRow, Cells.length_restyle, hlen]
    exact hcol
  have hcell : row.used[col]? = row.cells[col]? := List.getElem?_take_of_lt hcol
  rw [Cells.pad, List.getElem?_append_left hlt, rereadRow, Cells.restyle, List.getElem?_map, hcell,
    Option.map_map, Row.attributes?]
  cases hget : row.cells[col]? with
  | none => rfl
  | some cell =>
      exact congrArg some (attributes_reread hplain (h.writable cell (List.mem_of_getElem? hget)))

/-- **A rendered screen replays to itself.**  A text that only prints, ends lines and chooses styles
that do not hide is fed to a fresh terminal; what is rendered of it then, whatever the palette and
the depth, is fed to another one of the same size.  Both show the same slots.  Unless the rendering
was plain, they have the same attributes in each row up to the last cell that was written.

So it is unless a character of the text is counted beyond the greatest coordinate, which takes one
of the two greatest widths; then there is no screen to render. -/
theorem replay_render (hrows : 1 ≤ rows) (hcols : cols ≤ maxCoordinate) (limit limit' : Nat)
    (r : Renderer) {pieces : List Piece} (hpieces : ∀ piece ∈ pieces, piece.Visible) :
    ((∃ i j : Interpreter, (⟨{}, Terminal.new cols rows limit⟩ : Interpreter).feedText
            (pieces.flatMap Piece.text) = .ok (i, []) ∧
          (⟨{}, Terminal.new cols rows limit'⟩ : Interpreter).feedText
            (replayed (r.render i.terminal)) = .ok (j, []) ∧
          j.terminal.grid = i.terminal.grid ∧
          (r.plain = false → ∀ (n : Nat) (row row' : Row), i.terminal.active.rows[n]? = some row →
            j.terminal.active.rows[n]? = some row' →
            ∀ col < row.usedLength, row'.attributes? col = row.attributes? col)) ↔
        ¬ (⟨{}, Terminal.new cols rows limit⟩ : Interpreter).OvershootsIn pieces) ∧
      ((⟨{}, Terminal.new cols rows limit⟩ : Interpreter).OvershootsIn pieces →
        maxCoordinate < cols + 2 ∧
          ∃ n, (⟨{}, Terminal.new cols rows limit⟩ : Interpreter).feedText
            (pieces.flatMap Piece.text) = .error (.tooFar n)) := by
  have hnew : (Terminal.new cols rows limit).Displays cols limit {} := .new hrows
  have hplain : ∀ piece ∈ pieces, piece.Plain := fun piece hpiece => (hpieces piece hpiece).plain
  rw [Interpreter.overshootsIn_iff (i := ⟨{}, Terminal.new cols rows limit⟩) rfl hnew hplain]
  rcases hnew.exists_feedText (i := ⟨{}, Terminal.new cols rows limit⟩) rfl hplain with
    ⟨s, i, htypeset, hok, hheight, hi⟩ | ⟨hnone, hmax, n, herror⟩
  · have hcounted : ({} : Sheet).typeset? cols pieces ≠ none := by
      rw [htypeset]
      exact Option.some_ne_none s
    refine ⟨iff_of_true ?_ hcounted, fun hover => absurd hover hcounted⟩
    have hs : s.Legible cols := Sheet.typeset?_induction (P := Sheet.Legible cols) cols
      (fun piece hpiece _ _ hs hstep => hs.step? (hpieces piece hpiece) hstep)
      (Sheet.legible_empty cols) htypeset
    have hlegible : ∀ row ∈ i.terminal.active.rows, row.Legible cols := by
      intro row hrow
      have hmem : row.cells ∈ s.screen cols i.terminal.rows := by
        rw [← hi.cells_eq]
        exact List.mem_map_of_mem hrow
      exact hs.of_mem_screen hmem
    obtain ⟨j, hreplay, hcells⟩ := exists_feedText_replayed (r := r) hrows hcols limit'
      (hi.plain.length_rows.trans hheight) hlegible
    refine ⟨i, j, hok, hreplay, ?_, fun hplain n row row' hrow hrow' col hcol => ?_⟩
    · have hslots := congrArg (List.map Cells.slots) hcells
      rw [List.map_map, List.map_map] at hslots
      exact hslots.trans (List.map_congr_left fun row hrow =>
        (hlegible row hrow).slots_pad_restyle r.reread)
    · have hsame := congrArg (fun rows => rows[n]?) hcells
      simp only [List.getElem?_map, hrow, hrow', Option.map_some, Option.some.injEq] at hsame
      rw [Row.attributes?, hsame]
      exact attributes?_pad_rereadRow hplain (hlegible row (List.mem_of_getElem? hrow)) hcol
  · refine ⟨iff_of_false ?_ (not_not_intro hnone), fun _ => ⟨hmax, n, herror⟩⟩
    rintro ⟨i, j, hok, -⟩
    rw [herror] at hok
    cases hok

/-- A wide character with a mark fills a row, and a blank shows its background. -/
theorem replay_render_marked :
    ∃ i j : Interpreter,
      (⟨{}, Terminal.new 3 3 0⟩ : Interpreter).feedText
        "\x1b[1;31m\u4E2D\u0301a\r\n\x1b[0;48;5;4;7mb ".toList = .ok (i, []) ∧
      (⟨{}, Terminal.new 3 3 0⟩ : Interpreter).feedText
        (replayed (render ⟨.trueColor, .standard, false⟩ i.terminal)) = .ok (j, []) ∧
      i.terminal.grid = [['\u4E2D', '\u0301', wideTail], ['a', ' ', ' '], ['b', ' ', ' ']] ∧
      j.terminal.grid = i.terminal.grid ∧
      ∀ row row', i.terminal.active.rows[2]? = some row → j.terminal.active.rows[2]? = some row' →
        row.usedLength = 2 ∧ row'.attributes? 1 = row.attributes? 1 := by
  obtain ⟨pieces, htext, hvisible⟩ : ∃ pieces : List Piece,
      pieces.flatMap Piece.text = "\x1b[1;31m\u4E2D\u0301a\r\n\x1b[0;48;5;4;7mb ".toList ∧
      ∀ piece ∈ pieces, piece.Visible :=
    ⟨[.codes [1, 31], .print '\u4E2D', .print '\u0301', .print 'a', .newLine,
      .codes [0, 48, 5, 4, 7], .print 'b', .print ' '], by decide, by decide⟩
  obtain ⟨hreplays, hover⟩ := replay_render (by decide : 1 ≤ 3) (by decide : 3 ≤ maxCoordinate) 0 0
    ⟨.trueColor, .standard, false⟩ hvisible
  obtain ⟨i, j, hok, hreplay, hgrid, hattributes⟩ :=
    hreplays.mpr fun h => absurd (hover h).1 (by decide)
  have hrows : ((⟨{}, Terminal.new 3 3 0⟩ : Interpreter).feedText
      "\x1b[1;31m\u4E2D\u0301a\r\n\x1b[0;48;5;4;7mb ".toList).toOption.map (fun out =>
        (out.1.terminal.grid, out.1.terminal.active.rows[2]?.map Row.usedLength)) =
      some ([['\u4E2D', '\u0301', wideTail], ['a', ' ', ' '], ['b', ' ', ' ']], some 2) := by
    decide +kernel
  rw [htext] at hok
  rw [hok] at hrows
  obtain ⟨hslots, hused⟩ := Prod.mk.inj (Option.some.inj hrows)
  refine ⟨i, j, hok, hreplay, hslots, hgrid, fun row row' hrow hrow' => ?_⟩
  rw [hrow] at hused
  have hlen : row.usedLength = 2 := Option.some.inj hused
  exact ⟨hlen, hattributes rfl 2 row row' hrow hrow' 1 (by omega)⟩

/-- Not every screen is replayed: behind blanks that fill the widest row, a letter is counted too
far, and there is none. -/
theorem not_replays :
    ¬ ∀ (cols rows limit limit' : Nat) (r : Renderer) (pieces : List Piece), 1 ≤ cols →
      cols ≤ maxCoordinate → 1 ≤ rows → (∀ piece ∈ pieces, piece.Visible) →
      ∃ i j : Interpreter,
        (⟨{}, Terminal.new cols rows limit⟩ : Interpreter).feedText
          (pieces.flatMap Piece.text) = .ok (i, []) ∧
        (⟨{}, Terminal.new cols rows limit'⟩ : Interpreter).feedText
          (replayed (r.render i.terminal)) = .ok (j, []) ∧
        j.terminal.grid = i.terminal.grid := by
  intro hall
  obtain ⟨cols, hcols⟩ : ∃ cols, cols = maxCoordinate := ⟨_, rfl⟩
  have hletters : ∀ c ∈ Terminal.overfull cols, Text.isPrintable7 c = true :=
    fun _ => Terminal.isPrintable7_of_mem_overfull
  have hplain : ∀ c ∈ Terminal.overfull cols, Text.isControl7 c = false :=
    fun c hc => Text.isControl7_of_isPrintable7 (hletters c hc)
  have hvisible : ∀ piece ∈ (Terminal.overfull cols).map Piece.print, piece.Visible := by
    intro piece hpiece
    obtain ⟨c, hc, rfl⟩ := List.mem_map.mp hpiece
    refine ⟨hplain c hc, ?_⟩
    rintro rfl
    exact absurd (hletters _ hc) (by decide)
  have hwritten : ((Terminal.overfull cols).map Piece.print).flatMap Piece.text =
      Terminal.overfull cols := by
    rw [List.flatMap_map]
    exact List.flatMap_singleton' _
  obtain ⟨i, j, hok, -⟩ := hall cols 2 0 0 ⟨.trueColor, .standard, false⟩
    ((Terminal.overfull cols).map Piece.print) (hcols ▸ by decide) (Nat.le_of_eq hcols) (by decide)
    hvisible
  obtain ⟨n, herror⟩ : Terminal.Overflows
      ((Terminal.new cols 2 0).putText (Terminal.overfull cols)) :=
    Terminal.overflows_putText_of_letters (by decide) hcols hletters
      (Terminal.length_overfull cols)
  rw [hwritten, Interpreter.feedText_eq_foldlM, Interpreter.foldlM_feedNext_plain rfl hplain,
    herror] at hok
  cases hok

end Renderer

end VideoTerminal
