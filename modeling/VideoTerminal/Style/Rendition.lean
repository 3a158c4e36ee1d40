import VideoTerminal.Style

/-!
# Graphic rendition

Programs choose the style of what they print by a list of numbers.  Most numbers stand alone; 38 and
48 begin a color of several numbers.  The list is read from the left, each number changing the style
that the ones before it left.
-/

namespace VideoTerminal.Style

/-- Reads what follows a 38 or 48: `5 n` for a palette index, `2 r g b` for a value, whose missing
channels are 0 and whose large ones are 255.  Returns the color, if it is one, and what is left. -/
def extendedColor : List Nat → Option Color × List Nat
  | [] => (none, [])
  | [5] => (none, [])
  | 5 :: n :: rest => (some (.indexed n), rest)
  | 2 :: rest =>
    let channel (i : Nat) : UInt8 := .ofNat (min (rest.getD i 0) 255)
    (some (.explicit ⟨channel 0, channel 1, channel 2⟩), rest.drop 3)
  | _ :: rest => (none, rest)

/-- Reading a color leaves no more parameters than there were. -/
theorem length_extendedColor_le (params : List Nat) :
    (extendedColor params).2.length ≤ params.length := by
  unfold extendedColor
  split <;> simp <;> omega

/-- The style after a number that stands alone. -/
def applyCode (s : Style) (code : Nat) : Style :=
  match code with
  | 0 => .empty
  | 1 => s.setAttributes .bold true
  | 2 => s.setAttributes .dim true
  | 3 => s.setAttributes .italic true
  | 4 => s.setAttributes .underline true
  | 5 => s.setAttributes .slowBlink true
  | 6 => s.setAttributes .rapidBlink true
  | 7 => s.setAttributes .inverse true
  | 8 => s.setAttributes .hidden true
  | 22 => s.setAttributes (.union .bold .dim) false
  | 23 => s.setAttributes .italic false
  | 24 => s.setAttributes .underline false
  | 25 => s.setAttributes (.union .slowBlink .rapidBlink) false
  | 27 => s.setAttributes .inverse false
  | 28 => s.setAttributes .hidden false
  | 39 => { s with foreground := none }
  | 49 => { s with background := none }
  | n =>
    if 30 ≤ n ∧ n ≤ 37 then { s with foreground := some (.indexed ↑(n - 30)) }
    else if 40 ≤ n ∧ n ≤ 47 then { s with background := some (.indexed ↑(n - 40)) }
    else if 90 ≤ n ∧ n ≤ 97 then { s with foreground := some (.indexed ↑(n - 90 + 8)) }
    else if 100 ≤ n ∧ n ≤ 107 then { s with background := some (.indexed ↑(n - 100 + 8)) }
    else s

/-- Another foreground, if there is one. -/
def withForeground (s : Style) (color : Option Color) : Style :=
  if color.isSome then { s with foreground := color } else s

/-- Another background, if there is one. -/
def withBackground (s : Style) (color : Option Color) : Style :=
  if color.isSome then { s with background := color } else s

/-- The style after a list of numbers, read from the left. -/
def applyCodes (s : Style) (params : List Nat) : Style :=
  match params with
  | [] => s
  | code :: rest =>
    if code = 38 then applyCodes (s.withForeground (extendedColor rest).1) (extendedColor rest).2
    else if code = 48 then
      applyCodes (s.withBackground (extendedColor rest).1) (extendedColor rest).2
    else applyCodes (s.applyCode code) rest
termination_by params.length
decreasing_by
  all_goals have := length_extendedColor_le rest
  all_goals simp only [List.length_cons]; omega

/-- The style that a request for a rendition leaves; an empty one asks for the empty style. -/
def select (s : Style) (params : List Nat) : Style :=
  if params.isEmpty then .empty else s.applyCodes params

end VideoTerminal.Style
