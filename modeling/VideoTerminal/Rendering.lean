import VideoTerminal.Rendering.Ink
import VideoTerminal.Terminal

/-!
# Rendering

The screen as text, one line a row.  Cells of one style are written together behind the sequences
that ask for it; blanks at the end of a row that show no background are left out.
-/

namespace VideoTerminal

namespace Row

/-- Whether a cell at the end of a row has to be written. -/
def isVisibleAtEnd (c : Cell) : Bool := c.char != ' ' || c.style.background.isSome

/-- How many cells of a row have to be written. -/
def usedLength (row : Row) : Nat :=
  (row.cells.reverse.dropWhile fun c => !isVisibleAtEnd c).length

/-- What is written for slot `i`.  A hidden character leaves blanks of its width; the marks attached
to it leave nothing. -/
def glyph (row : Row) (i : Nat) (c : Cell) : List Char :=
  let line := row.cells.line
  if c.style.has .hidden then
    if extendsPrevious (line.before? i) c.char then []
    else List.replicate (line.characterWidth i row.cells.length) ' '
  else [c.char]

/-- What is written for a row, slot by slot, each with its style. -/
def glyphs (row : Row) : List (Style × List Char) :=
  (row.cells.take row.usedLength).zipIdx.filterMap fun (c, i) =>
    if c.isWideTail then none else some (c.style, row.glyph i c)

/-- Texts of one style that stand side by side, joined; empty ones are left out. -/
def joinRuns (texts : List (Style × List Char)) : List (Style × List Char) :=
  let runs := texts.splitBy fun a b => a.1 == b.1
  (runs.filterMap fun run => run.head?.map fun first => (first.1, run.flatMap Prod.snd)).filter
    fun run => !run.2.isEmpty

/-- The runs of a row. -/
def runs (row : Row) : List (Style × List Char) := joinRuns row.glyphs

end Row

/-- How a screen is rendered. -/
structure Renderer where
  depth : ColorDepth
  palette : Palette
  /-- Only text is written. -/
  plain : Bool := false

namespace Renderer

/-- Asks for the screen's own colors and for no attribute. -/
def resetText : String := "\x1b[0m\x1b[0m"

/-- The attributes that are written, with their parameters, in order. -/
def attributeParameters : List (Attributes × Nat) :=
  [(.bold, 1), (.dim, 2), (.italic, 3), (.underline, 4), (.slowBlink, 5), (.rapidBlink, 6),
    (.inverse, 7)]

/-- The sequences for the attributes of a style. -/
def attributeText (s : Style) : String :=
  String.join (attributeParameters.map fun (a, n) =>
    if s.has a then "\x1b[" ++ toString n ++ "m" else "")

/-- The sequence for a color, unless there is none. -/
def colorText (r : Renderer) (kind : String) (c : Option Color) : String :=
  c.elim "" fun c => "\x1b[" ++ kind ++ (Ink.of r.depth r.palette c).parameters ++ "m"

/-- The sequences that ask for a style. -/
def styleText (r : Renderer) (s : Style) : String :=
  resetText ++ attributeText s ++ r.colorText "3" s.foreground ++ r.colorText "4" s.background

/-- The text of a run. -/
def runText (r : Renderer) (run : Style × List Char) : String :=
  (if r.plain then "" else r.styleText run.1) ++ String.ofList run.2

/-- The text of a row. -/
def rowText (r : Renderer) (row : Row) : String :=
  String.join (row.runs.map r.runText) ++ (if r.plain then "" else resetText) ++ "\n"

/-- The text of the page that is shown. -/
def render (r : Renderer) (t : Terminal) : String :=
  String.join (t.active.rows.map r.rowText)

end Renderer

end VideoTerminal
