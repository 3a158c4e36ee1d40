/-!
# Terminal modes

A terminal carries one flag for each mode.  Some modes do more than set their flag; what they do is
a list of effects, which the terminal carries out one by one.
-/

namespace VideoTerminal

/-- The modes that a program may switch. -/
inductive Mode
  | null | cursorKey | ansi | wideColumn | smoothScroll | reverseVideo | originMode | autoWrap
  | autoRepeatKeys | interlace | keypad | storeCursor | cursorBlinking | allowWideColumn
  | reverseWrapAround | autoNewLine | keyboardAction | insertMode | sendReceive | eightBitInput
  | altSendsEscape | cursorVisible | alternateBuffer | bracketedPasteMode | synchronizedUpdate
  deriving DecidableEq, Repr

namespace Mode

/-- All modes, in order. -/
def all : List Mode :=
  [.null, .cursorKey, .ansi, .wideColumn, .smoothScroll, .reverseVideo, .originMode, .autoWrap,
    .autoRepeatKeys, .interlace, .keypad, .storeCursor, .cursorBlinking, .allowWideColumn,
    .reverseWrapAround, .autoNewLine, .keyboardAction, .insertMode, .sendReceive, .eightBitInput,
    .altSendsEscape, .cursorVisible, .alternateBuffer, .bracketedPasteMode, .synchronizedUpdate]

/-- The place of a mode in the order, and of its flag in the set. -/
def index : Mode → Fin 25
  | .null => 0
  | .cursorKey => 1
  | .ansi => 2
  | .wideColumn => 3
  | .smoothScroll => 4
  | .reverseVideo => 5
  | .originMode => 6
  | .autoWrap => 7
  | .autoRepeatKeys => 8
  | .interlace => 9
  | .keypad => 10
  | .storeCursor => 11
  | .cursorBlinking => 12
  | .allowWideColumn => 13
  | .reverseWrapAround => 14
  | .autoNewLine => 15
  | .keyboardAction => 16
  | .insertMode => 17
  | .sendReceive => 18
  | .eightBitInput => 19
  | .altSendsEscape => 20
  | .cursorVisible => 21
  | .alternateBuffer => 22
  | .bracketedPasteMode => 23
  | .synchronizedUpdate => 24

/-- The printed name of a mode. -/
def name : Mode → String
  | .null => "Null"
  | .cursorKey => "CursorKey"
  | .ansi => "Ansi"
  | .wideColumn => "WideColumn"
  | .smoothScroll => "SmoothScroll"
  | .reverseVideo => "ReverseVideo"
  | .originMode => "OriginMode"
  | .autoWrap => "AutoWrap"
  | .autoRepeatKeys => "AutoRepeatKeys"
  | .interlace => "Interlace"
  | .keypad => "Keypad"
  | .storeCursor => "StoreCursor"
  | .cursorBlinking => "CursorBlinking"
  | .allowWideColumn => "AllowWideColumn"
  | .reverseWrapAround => "ReverseWrapAround"
  | .autoNewLine => "AutoNewLine"
  | .keyboardAction => "KeyboardAction"
  | .insertMode => "InsertMode"
  | .sendReceive => "SendReceive"
  | .eightBitInput => "EightBitInput"
  | .altSendsEscape => "AltSendsEscape"
  | .cursorVisible => "CursorVisible"
  | .alternateBuffer => "AlternateBuffer"
  | .bracketedPasteMode => "BracketedPasteMode"
  | .synchronizedUpdate => "SynchronizedUpdate"

/-- The mode of a printed name. -/
def ofName? (name : String) : Option Mode := all.find? fun m => m.name == name

/-- Modes with the same number are the same. -/
theorem index_injective {m n : Mode} (h : m.index = n.index) : m = n := by
  cases m <;> cases n <;> first | rfl | simp [index] at h

/-- The number of a mode is its place in the list of all. -/
theorem getElem?_all_index (m : Mode) : all[m.index.val]? = some m := by
  cases m <;> rfl

/-- The mode of a private number, as in `CSI ? n h`.  The number 1049 stands for two modes at once
and is no mode itself. -/
def ofPrivate? : Nat → Option Mode
  | 1 => some .cursorKey
  | 2 => some .ansi
  | 3 => some .wideColumn
  | 4 => some .smoothScroll
  | 5 => some .reverseVideo
  | 6 => some .originMode
  | 7 => some .autoWrap
  | 8 => some .autoRepeatKeys
  | 9 => some .interlace
  | 12 => some .cursorBlinking
  | 25 => some .cursorVisible
  | 40 => some .allowWideColumn
  | 45 => some .reverseWrapAround
  | 47 => some .alternateBuffer
  | 66 => some .keypad
  | 1034 => some .eightBitInput
  | 1036 => some .altSendsEscape
  | 1039 => some .altSendsEscape
  | 1047 => some .alternateBuffer
  | 1048 => some .storeCursor
  | 2004 => some .bracketedPasteMode
  | 2026 => some .synchronizedUpdate
  | _ => none

/-- The mode of a standard number, as in `CSI n h`. -/
def ofStandard? : Nat → Option Mode
  | 2 => some .keyboardAction
  | 4 => some .insertMode
  | 12 => some .sendReceive
  | 20 => some .autoNewLine
  | _ => none

end Mode

/-- A set of modes, one bit for each. -/
structure ModeSet where
  bits : BitVec 25
  deriving DecidableEq, Repr

namespace ModeSet

/-- No mode. -/
def empty : ModeSet := ⟨0#25⟩

/-- The set of a single mode. -/
def single (m : Mode) : ModeSet := ⟨BitVec.twoPow 25 m.index⟩

/-- Whether a mode is on. -/
def contains (s : ModeSet) (m : Mode) : Bool := s.bits.getLsbD m.index

/-- Switches a mode on or off. -/
def set (s : ModeSet) (m : Mode) (on : Bool) : ModeSet :=
  if on then ⟨s.bits ||| (single m).bits⟩ else ⟨s.bits &&& ~~~(single m).bits⟩

/-- The modes that are on, in order. -/
def toList (s : ModeSet) : List Mode := Mode.all.filter s.contains

/-- The set of the modes in a list. -/
def ofList (ms : List Mode) : ModeSet := ms.foldl (fun s m => s.set m true) empty

/-- The modes that are on, as text. -/
def describe (s : ModeSet) : String :=
  "\x7b" ++ ", ".intercalate (s.toList.map Mode.name) ++ "\x7d"

/-- Setting one mode says what it says of that one and leaves the others. -/
theorem contains_set (s : ModeSet) (m n : Mode) (on : Bool) :
    (s.set m on).contains n = if n = m then on else s.contains n := by
  have hn := n.index.isLt
  have key : (single m).bits.getLsbD n.index = decide (n = m) := by
    simp only [single, BitVec.getLsbD_twoPow]
    by_cases h : n = m
    · subst h; simp
    · have hne : m.index.val ≠ n.index.val :=
        fun he => h (Mode.index_injective (Fin.ext he)).symm
      simp [h, hne]
  cases on
  · simp only [set, contains, Bool.false_eq_true, if_false, BitVec.getLsbD_and, BitVec.getLsbD_not,
      key, hn, decide_true, Bool.true_and]
    by_cases h : n = m <;> simp [h]
  · simp only [set, contains, if_true, BitVec.getLsbD_or, key]
    by_cases h : n = m <;> simp [h]

/-- A mode is as it has just been set. -/
@[simp] theorem contains_set_self (s : ModeSet) (m : Mode) (on : Bool) :
    (s.set m on).contains m = on := by
  simp [contains_set]

theorem contains_set_of_ne (s : ModeSet) {m n : Mode} (on : Bool) (h : n ≠ m) :
    (s.set m on).contains n = s.contains n := by
  simp [contains_set, h]

/-- In the empty set every mode is off. -/
@[simp] theorem contains_empty (m : Mode) : empty.contains m = false := by
  simp [contains, empty]

end ModeSet

/-- What a mode does to a terminal besides setting its flag. -/
inductive ModeEffect
  | useAlternateBuffer (on : Bool)
  | saveCursor
  | restoreCursor
  | setCursorVisible (on : Bool)
  | setRenderSuspended (on : Bool)
  /-- Everything held back is to be drawn. -/
  | requestFlush
  | clearScreen
  | resetScrollRegion
  deriving DecidableEq, Repr

namespace ModeEffect

/-- An effect as text. -/
def describe : ModeEffect → String
  | .useAlternateBuffer on => "use_alternate_buffer(" ++ toString on ++ ")"
  | .saveCursor => "save_cursor"
  | .restoreCursor => "restore_cursor"
  | .setCursorVisible on => "set_cursor_visible(" ++ toString on ++ ")"
  | .setRenderSuspended on => "set_render_suspended(" ++ toString on ++ ")"
  | .requestFlush => "request_flush"
  | .clearScreen => "clear_screen"
  | .resetScrollRegion => "reset_scroll_region"

end ModeEffect

/-- The effects of switching a mode, in order. -/
def Mode.effects (m : Mode) (on : Bool) : List ModeEffect :=
  match m with
  | .alternateBuffer => [.useAlternateBuffer on]
  | .storeCursor => if on then [.saveCursor] else [.restoreCursor]
  | .cursorVisible => [.setCursorVisible on]
  | .synchronizedUpdate =>
    if on then [.setRenderSuspended true] else [.setRenderSuspended false, .requestFlush]
  | .wideColumn => [.clearScreen, .resetScrollRegion]
  | _ => []

/-- The modes that other parts of a program see: the set last published. -/
structure SharedModes where
  current : ModeSet
  deriving DecidableEq, Repr

namespace SharedModes

/-- Replaces the whole set. -/
def publish (_ : SharedModes) (modes : ModeSet) : SharedModes := ⟨modes⟩

/-- The set last published. -/
def snapshot (s : SharedModes) : ModeSet := s.current

/-- The published set, as text. -/
def describe (s : SharedModes) : String := "SharedModes(" ++ s.snapshot.describe ++ ")"

end SharedModes

end VideoTerminal
