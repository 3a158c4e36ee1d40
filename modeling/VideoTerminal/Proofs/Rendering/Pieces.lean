import Mathlib.Data.List.SplitBy
import VideoTerminal.Proofs.Rendering.Styles

/-!
# What a renderer writes, piece by piece

What is rendered is a text of pieces again: requests for renditions, characters and ends of lines
(`Renderer.replayed_render`).

A run of cells asks for its style once.  It comes to the same as if each cell asked for its own, and
so the runs of a row are read as its cells, one letter after the other (`Renderer.typeset?_runs`).
-/

namespace VideoTerminal

/-! ## Runs -/

/-- Texts with their styles, letter by letter. -/
def spelled (texts : List (Style × List Char)) : List (Style × Char) :=
  texts.flatMap fun text => text.2.map fun c => (text.1, c)

/-- Runs one after the other spell what each of them spells. -/
theorem spelled_append (front back : List (Style × List Char)) :
    spelled (front ++ back) = spelled front ++ spelled back := List.flatMap_append

namespace Row

variable {texts : List (Style × List Char)}

/-- Texts of one style make one text. -/
theorem spelled_of_isChain {first : Style × List Char}
    (h : (first :: texts).IsChain fun a b => (a.1 == b.1) = true) :
    spelled (first :: texts) =
      ((first :: texts).flatMap Prod.snd).map fun c => (first.1, c) := by
  induction texts generalizing first with
  | nil => simp [spelled]
  | cons next texts ih =>
      obtain ⟨hsame, hrest⟩ := List.isChain_cons_cons.mp h
      have hstyle : first.1 = next.1 := by simpa using hsame
      rw [List.flatMap_cons, List.map_append, hstyle, ← ih hrest, ← hstyle]
      rfl

/-- Empty runs spell nothing. -/
theorem spelled_filter_not_isEmpty (texts : List (Style × List Char)) :
    spelled (texts.filter fun text => !text.2.isEmpty) = spelled texts := by
  induction texts with
  | nil => rfl
  | cons text texts ih =>
      obtain ⟨style, cs⟩ := text
      cases cs with
      | nil =>
          rw [List.filter_cons_of_neg (by simp), ih]
          rfl
      | cons c cs =>
          rw [List.filter_cons_of_pos (by simp)]
          exact congrArg (_ ++ ·) ih

/-- **Nothing is lost or added where texts are joined.** -/
theorem spelled_joinRuns (texts : List (Style × List Char)) :
    spelled (joinRuns texts) = spelled texts := by
  have hgroups : ∀ groups : List (List (Style × List Char)),
      (∀ group ∈ groups, group.IsChain fun a b => (a.1 == b.1) = true) →
      spelled (groups.filterMap fun group => group.head?.map fun first =>
        (first.1, group.flatMap Prod.snd)) = spelled groups.flatten := by
    intro groups hchains
    induction groups with
    | nil => rfl
    | cons group groups ih =>
        have hrest := ih fun other hother => hchains other (List.mem_cons_of_mem _ hother)
        cases group with
        | nil => exact hrest
        | cons first group =>
            have hfirst := spelled_of_isChain (hchains _ List.mem_cons_self)
            rw [List.flatten_cons, spelled_append, hfirst, ← hrest]
            rfl
  rw [joinRuns, spelled_filter_not_isEmpty,
    hgroups _ fun group hgroup => List.isChain_of_mem_splitBy hgroup, List.flatten_splitBy]

/-- No run that is written is empty. -/
theorem ne_nil_of_mem_joinRuns {text : Style × List Char} (h : text ∈ joinRuns texts) :
    text.2 ≠ [] := by
  have hne := (List.mem_filter.mp h).2
  simpa using hne

end Row

/-! ## Pieces -/

namespace Renderer

variable (r : Renderer)

/-- The pieces that ask for a style. -/
def stylePieces (s : Style) : List Piece := (r.styleCodes s).map Piece.codes

/-- The pieces that are written behind a row. -/
def resetPieces : List Piece := if r.plain then [] else [.codes [0], .codes [0]]

/-- The pieces of a run. -/
def runPieces (run : Style × List Char) : List Piece :=
  r.stylePieces run.1 ++ run.2.map Piece.print

/-- The pieces of a row. -/
def linePieces (row : Row) : List Piece := row.runs.flatMap r.runPieces ++ r.resetPieces

/-- The pieces of a letter that asks for its style by itself. -/
def letterPieces (letter : Style × Char) : List Piece :=
  r.stylePieces letter.1 ++ [.print letter.2]

/-! ### As they are written -/

/-- The attributes are written as one piece each. -/
theorem toList_attributeText (s : Style) :
    (attributeText s).toList = ((attributeCodes s).map Piece.codes).flatMap Piece.text := by
  unfold attributeText attributeCodes
  rw [String.toList_join]
  generalize attributeParameters = params
  induction params with
  | nil => rfl
  | cons p params ih =>
      obtain ⟨a, n⟩ := p
      rw [List.map_cons, List.flatMap_cons, ih]
      dsimp only
      by_cases hp : s.has a = true
      · rw [List.filter_cons_of_pos (by exact hp), if_pos hp, List.map_cons, List.map_cons,
          List.flatMap_cons, Piece.text_codes]
        simp [String.toList_append, Sequence.numbers]
      · rw [List.filter_cons_of_neg (by exact hp), if_neg hp]
        rfl

/-- An ink is written as a rendition. -/
theorem text_codes_ink {kind : String} {n : Nat}
    (hkind : (kind, n) = ("3", 38) ∨ (kind, n) = ("4", 48)) (ink : Ink) :
    ("\x1b[" ++ kind ++ ink.parameters ++ "m").toList = (Piece.codes (ink.codes n)).text := by
  rw [Piece.text_codes]
  rcases hkind with h | h <;> obtain ⟨rfl, rfl⟩ := Prod.mk.inj h <;> cases ink <;>
    simp [Ink.parameters, Ink.codes, Sequence.numbers, String.toList_append] <;> rfl

/-- A color is written as a rendition, if there is one. -/
theorem toList_colorText {kind : String} {n : Nat}
    (hkind : (kind, n) = ("3", 38) ∨ (kind, n) = ("4", 48)) (c : Option Color) :
    (r.colorText kind c).toList = ((r.colorCodes n c).map Piece.codes).flatMap Piece.text := by
  cases c with
  | none => rfl
  | some c =>
      refine (text_codes_ink hkind _).trans ?_
      exact (List.append_nil _).symm

variable {r}

/-- A style is written as renditions, unless rendering is plain. -/
theorem toList_styleText (hplain : r.plain = false) (s : Style) :
    (r.styleText s).toList = (r.stylePieces s).flatMap Piece.text := by
  have hreset : resetText.toList = ([[0], [0]].map Piece.codes).flatMap Piece.text := rfl
  rw [stylePieces, styleCodes, if_neg (by simp [hplain]), List.map_append, List.map_append,
    List.map_append, List.flatMap_append, List.flatMap_append, List.flatMap_append, ← hreset,
    ← toList_attributeText, ← r.toList_colorText (.inl rfl), ← r.toList_colorText (.inr rfl)]
  simp [styleText, String.toList_append]

/-- A run is written in pieces. -/
theorem toList_runText (run : Style × List Char) :
    (r.runText run).toList = (r.runPieces run).flatMap Piece.text := by
  have hletters : (run.2.map Piece.print).flatMap Piece.text = run.2 := by
    rw [List.flatMap_map]
    exact List.flatMap_singleton' _
  rw [runText, runPieces, List.flatMap_append, hletters, String.toList_append, String.toList_ofList]
  cases hplain : r.plain with
  | true => simp [stylePieces, styleCodes, hplain]
  | false => simp [toList_styleText hplain]

theorem toList_rowText (row : Row) :
    (r.rowText row).toList = (r.linePieces row).flatMap Piece.text ++ ['\n'] := by
  have hruns : (String.join (row.runs.map r.runText)).toList =
      (row.runs.flatMap r.runPieces).flatMap Piece.text := by
    rw [String.toList_join, List.flatMap_map, List.flatMap_assoc]
    exact List.flatMap_congr fun run _ => toList_runText run
  have hreset : (if r.plain then "" else resetText).toList = r.resetPieces.flatMap Piece.text := by
    unfold resetPieces
    split <;> rfl
  rw [rowText, String.toList_append, String.toList_append, hruns, hreset, linePieces,
    List.flatMap_append]
  rfl

/-! ### As they are written again

A text that is rendered ends each line with a line feed alone. -/

/-- What a program writes that writes a rendered text: each line break but the last one takes the
cursor to the start of the next row. -/
def replayed (text : String) : List Char :=
  text.toList.dropLast.flatMap fun c => if c = '\n' then ['\r', '\n'] else [c]

/-- A rendition has no line break in it. -/
theorem not_mem_text_codes (ns : List Nat) : '\n' ∉ (Piece.codes ns).text := by
  have hnumbers : ∀ c ∈ Sequence.numbers ns, c.isDigit = true ∨ c = ';' := by
    have hdigits : ∀ (n : Nat), ∀ c ∈ (toString n).toList, c.isDigit = true := fun n c hc =>
      Nat.isDigit_of_mem_toDigits (by decide) (by decide) (Nat.toList_repr ▸ hc)
    fun_induction Sequence.numbers ns with
    | case1 => simp
    | case2 n => exact fun c hc => .inl (hdigits n c hc)
    | case3 n m rest ih =>
        intro c hc
        rcases List.mem_append.mp hc with hc | hc
        · exact .inl (hdigits n c hc)
        · rcases List.mem_cons.mp hc with rfl | hc
          · exact .inr rfl
          · exact ih c hc
  rw [Piece.text_codes]
  intro hmem
  have hnumber : '\n' ∈ Sequence.numbers ns := by simpa using hmem
  rcases hnumbers _ hnumber with h | h <;> exact absurd h (by decide)

/-- A row is written as requests for renditions and as its letters. -/
theorem mem_linePieces {row : Row} {piece : Piece} (h : piece ∈ r.linePieces row) :
    (∃ ns, piece = .codes ns) ∨ ∃ letter ∈ spelled row.runs, piece = .print letter.2 := by
  rcases List.mem_append.mp h with hruns | hreset
  · obtain ⟨run, hrun, hpiece⟩ := List.mem_flatMap.mp hruns
    rcases List.mem_append.mp hpiece with hstyle | hletter
    · obtain ⟨ns, -, rfl⟩ := List.mem_map.mp hstyle
      exact .inl ⟨ns, rfl⟩
    · obtain ⟨c, hc, rfl⟩ := List.mem_map.mp hletter
      exact .inr ⟨(run.1, c), List.mem_flatMap.mpr ⟨run, hrun, List.mem_map_of_mem hc⟩, rfl⟩
  · unfold resetPieces at hreset
    split at hreset
    · cases hreset
    · exact .inl ⟨[0], by simpa using hreset⟩

/-- Where no letter is a line feed, there is none in the row. -/
theorem not_mem_linePieces {row : Row} (h : ∀ letter ∈ spelled row.runs, letter.2 ≠ '\n') :
    '\n' ∉ (r.linePieces row).flatMap Piece.text := by
  intro hmem
  obtain ⟨piece, hpiece, hc⟩ := List.mem_flatMap.mp hmem
  rcases mem_linePieces hpiece with ⟨ns, rfl⟩ | ⟨letter, hletter, rfl⟩
  · exact not_mem_text_codes ns hc
  · exact h letter hletter (List.mem_singleton.mp hc).symm

/-- Lines that end with a line feed each, written again. -/
theorem flatMap_dropLast_lines {lines : List (List Piece)}
    (h : ∀ line ∈ lines, '\n' ∉ line.flatMap Piece.text) :
    ((lines.flatMap fun line => line.flatMap Piece.text ++ ['\n']).dropLast.flatMap fun c =>
        if c = '\n' then ['\r', '\n'] else [c]) =
      (List.intercalate [.newLine] lines).flatMap Piece.text := by
  have hkeep : ∀ {text : List Char}, '\n' ∉ text →
      (text.flatMap fun c => if c = '\n' then ['\r', '\n'] else [c]) = text := by
    intro text htext
    refine Eq.trans (List.flatMap_congr fun c hc => if_neg ?_) (List.flatMap_singleton' text)
    rintro rfl
    exact htext hc
  induction lines with
  | nil => rfl
  | cons line lines ih =>
      obtain ⟨hline, hlines⟩ := List.forall_mem_cons.mp h
      cases lines with
      | nil =>
          -- The last line loses its line feed.
          rw [List.flatMap_singleton, List.dropLast_concat, hkeep hline]
          simp [List.intercalate]
      | cons next lines =>
          rw [List.intercalate_cons_cons, List.flatMap_append, List.flatMap_append, ← ih hlines,
            List.flatMap_cons, List.append_assoc, List.dropLast_append_of_ne_nil (by simp),
            List.flatMap_append, hkeep hline, List.append_assoc]
          congr 1
          rw [List.dropLast_append_of_ne_nil (by simp), List.flatMap_append]
          rfl

/-- **A rendered text is replayed line by line.** -/
theorem replayed_render {t : Terminal}
    (h : ∀ row ∈ t.active.rows, ∀ letter ∈ spelled row.runs, letter.2 ≠ '\n') :
    replayed (r.render t) =
      (List.intercalate [.newLine] (t.active.rows.map r.linePieces)).flatMap Piece.text := by
  have hlines : (r.render t).toList = (t.active.rows.map r.linePieces).flatMap fun line =>
      line.flatMap Piece.text ++ ['\n'] := by
    rw [render, String.toList_join, List.flatMap_map, List.flatMap_map]
    exact List.flatMap_congr fun row _ => toList_rowText row
  rw [replayed, hlines]
  refine flatMap_dropLast_lines fun line hline => ?_
  obtain ⟨row, hrow, rfl⟩ := List.mem_map.mp hline
  exact not_mem_linePieces (h row hrow)

/-! ### As they are read -/

section Typeset

variable {cols : Nat} {s : Sheet}

/-- Where a style is written, text goes on in the style that is read back. -/
theorem typeset?_stylePieces (h : r.plain = true → s.style = .empty) (style : Style) :
    s.typeset? cols (r.stylePieces style) = some { s with style := r.reread style } := by
  rw [stylePieces, Sheet.typeset?_codes _ _ (small_styleCodes style), foldl_styleCodes style h]

/-- A letter in its style. -/
theorem typeset?_letterPieces (h : r.plain = true → s.style = .empty) (letter : Style × Char) :
    s.typeset? cols (r.letterPieces letter) =
      ({ s with style := r.reread letter.1 } : Sheet).step? cols (.print letter.2) := by
  rw [letterPieces, Sheet.typeset?_append, typeset?_stylePieces h, Option.bind_some,
    Sheet.typeset?_cons]
  simp [Sheet.typeset?_nil]

/-- Characters keep the style, so that they may as well ask for it again. -/
theorem typeset?_print_eq {style : Style} (hstyle : s.style = r.reread style) (text : List Char) :
    s.typeset? cols (text.map Piece.print) =
      s.typeset? cols ((text.map fun c => (style, c)).flatMap r.letterPieces) := by
  induction text generalizing s with
  | nil => rfl
  | cons c text ih =>
      have hplain : r.plain = true → s.style = .empty :=
        fun hplain => hstyle.trans (reread_of_plain hplain style)
      have hsame : ({ s with style := r.reread style } : Sheet) = s := by rw [← hstyle]
      rw [List.map_cons, List.map_cons, List.flatMap_cons, Sheet.typeset?_cons,
        Sheet.typeset?_append, typeset?_letterPieces hplain, hsame]
      refine Option.bind_congr fun s' hs' => ih ?_
      rw [← hstyle]
      exact Sheet.style_of_step?_print hs'

/-- **A run is read as its letters**, each in the style of the run. -/
theorem typeset?_runPieces (h : r.plain = true → s.style = .empty) {run : Style × List Char}
    (hne : run.2 ≠ []) :
    s.typeset? cols (r.runPieces run) =
      s.typeset? cols ((spelled [run]).flatMap r.letterPieces) := by
  obtain ⟨style, text⟩ := run
  obtain ⟨c, text, rfl⟩ := List.exists_cons_of_ne_nil hne
  have hspelled : spelled [(style, c :: text)] =
      (style, c) :: text.map fun d => (style, d) := by simp [spelled]
  rw [hspelled, List.flatMap_cons, Sheet.typeset?_append, typeset?_letterPieces h, runPieces,
    Sheet.typeset?_append, typeset?_stylePieces h, Option.bind_some, List.map_cons,
    Sheet.typeset?_cons]
  exact Option.bind_congr fun s' hs' =>
    typeset?_print_eq (Sheet.style_of_step?_print hs') text

/-- Where no style is asked for, there is none. -/
theorem style_of_typeset?_letters (hplain : r.plain = true) {letters : List (Style × Char)}
    {s' : Sheet} (hs : s.style = .empty)
    (h : s.typeset? cols (letters.flatMap r.letterPieces) = some s') : s'.style = .empty := by
  refine Sheet.typeset?_induction (P := fun s => s.style = .empty) cols ?_ hs h
  intro piece hpiece s₁ s₂ hs₁ happly
  obtain ⟨letter, -, hmem⟩ := List.mem_flatMap.mp hpiece
  have hnone : r.stylePieces letter.1 = [] := by rw [stylePieces, styleCodes, if_pos hplain]; rfl
  rw [letterPieces, hnone, List.nil_append, List.mem_singleton] at hmem
  subst hmem
  rw [Sheet.style_of_step?_print happly, hs₁]

/-- **Runs are read as their letters.** -/
theorem typeset?_runs (h : r.plain = true → s.style = .empty) {runs : List (Style × List Char)}
    (hne : ∀ run ∈ runs, run.2 ≠ []) :
    s.typeset? cols (runs.flatMap r.runPieces) =
      s.typeset? cols ((spelled runs).flatMap r.letterPieces) := by
  induction runs generalizing s with
  | nil => rfl
  | cons run runs ih =>
      obtain ⟨hrun, hruns⟩ := List.forall_mem_cons.mp hne
      have hspelled : spelled (run :: runs) = spelled [run] ++ spelled runs :=
        spelled_append [run] runs
      rw [List.flatMap_cons, Sheet.typeset?_append, hspelled, List.flatMap_append,
        Sheet.typeset?_append, typeset?_runPieces h hrun]
      exact Option.bind_congr fun s' hs' => ih
        (fun hplain => style_of_typeset?_letters hplain (h hplain) hs') hruns

end Typeset

end Renderer

end VideoTerminal
