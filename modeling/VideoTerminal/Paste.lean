import VideoTerminal.Mode

/-!
# Pasting

A program may ask that pasted text comes between two markers, so that it can tell it from typed
text. The closing marker is taken out of the text itself.
-/

namespace VideoTerminal

namespace Text

/-- A text without the occurrences of `marker` that are found from left to right; what is joined by
taking one out is not looked at again. -/
def without (marker : List Char) : List Char → List Char
  | [] => []
  | c :: rest =>
    if marker.isPrefixOf (c :: rest) then without marker (rest.drop (marker.length - 1))
    else c :: without marker rest
termination_by text => text.length

end Text

namespace Paste

/-- Comes before a pasted text. -/
def opening : List Char := "\x1b[200~".toList

/-- Comes after a pasted text. -/
def closing : List Char := "\x1b[201~".toList

/-- What a program receives for a pasted text. -/
def text (pasted : List Char) (modes : ModeSet) : List Char :=
  if modes.contains .bracketedPasteMode then opening ++ Text.without closing pasted ++ closing
  else pasted

end Paste

end VideoTerminal
