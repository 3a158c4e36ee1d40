import VideoTerminal.Color

/-!
# Palettes and the built-in schemes

A palette gives sixteen colors and the five roles.  The other 240 indices are the same under every
palette: a cube of six levels a channel, and a ramp of 24 grays.
-/

namespace VideoTerminal

/-- Concrete colors behind indices and roles. -/
structure Palette where
  name : String
  /-- Indices 0 to 15. -/
  ansi : Vector Rgb 16
  foreground : Rgb
  background : Rgb
  cursor : Rgb
  selectionForeground : Rgb
  selectionBackground : Rgb
  deriving DecidableEq

/-- A built-in palette. -/
inductive Scheme
  | standard | solarizedDark | solarizedLight | monokai | nord | dracula | gruvboxDark | tokyoNight
  deriving DecidableEq, Repr

namespace Scheme

/-- All schemes, in the order in which they are offered. -/
def all : List Scheme :=
  [.standard, .solarizedDark, .solarizedLight, .monokai, .nord, .dracula, .gruvboxDark, .tokyoNight]

/-- The name of a scheme. -/
def name : Scheme → String
  | .standard => "default"
  | .solarizedDark => "solarized-dark"
  | .solarizedLight => "solarized-light"
  | .monokai => "monokai"
  | .nord => "nord"
  | .dracula => "dracula"
  | .gruvboxDark => "gruvbox-dark"
  | .tokyoNight => "tokyo-night"

/-- Every lower-case spelling of a scheme's name. -/
def spellings : Scheme → List String
  | .solarizedDark => ["solarized-dark", "solarized_dark"]
  | .solarizedLight => ["solarized-light", "solarized_light"]
  | .gruvboxDark => ["gruvbox-dark", "gruvbox_dark", "gruvbox"]
  | .tokyoNight => ["tokyo-night", "tokyo_night", "tokyonight"]
  | s => [s.name]

/-- Lower case where it is a plain letter.  Besides the capitals this is so only of the Kelvin
sign. -/
def foldCase (c : Char) : Char := if c == '\u212A' then 'k' else c.toLower

/-- The scheme of a name, in any case. -/
def ofName? (name : String) : Option Scheme :=
  let folded := String.ofList (name.toList.map foldCase)
  all.find? fun s => s.spellings.contains folded

/-- A palette whose cursor has the color of its text. -/
def build (name : String) (ansi : Vector Nat 16) (foreground background selectionForeground
    selectionBackground : Nat) : Palette where
  name := name
  ansi := ansi.map Rgb.ofPacked
  foreground := .ofPacked foreground
  background := .ofPacked background
  cursor := .ofPacked foreground
  selectionForeground := .ofPacked selectionForeground
  selectionBackground := .ofPacked selectionBackground

/-- The colors of a scheme. -/
def palette (s : Scheme) : Palette :=
  match s with
  | .standard =>
    build s.name
      #v[0x000000, 0xcd0000, 0x00cd00, 0xcdcd00, 0x0000ee, 0xcd00cd, 0x00cdcd, 0xe5e5e5,
        0x7f7f7f, 0xff0000, 0x00ff00, 0xffff00, 0x5c5cff, 0xff00ff, 0x00ffff, 0xffffff]
      0xe5e5e5 0x000000 0x000000 0xffffff
  | .solarizedDark =>
    build s.name
      #v[0x073642, 0xdc322f, 0x859900, 0xb58900, 0x268bd2, 0xd33682, 0x2aa198, 0xeee8d5,
        0x002b36, 0xcb4b16, 0x586e75, 0x657b83, 0x839496, 0x6c71c4, 0x93a1a1, 0xfdf6e3]
      0x839496 0x002b36 0xfdf6e3 0x268bd2
  | .solarizedLight =>
    build s.name
      #v[0x073642, 0xdc322f, 0x859900, 0xb58900, 0x268bd2, 0xd33682, 0x2aa198, 0xeee8d5,
        0x002b36, 0xcb4b16, 0x586e75, 0x657b83, 0x839496, 0x6c71c4, 0x93a1a1, 0xfdf6e3]
      0x657b83 0xfdf6e3 0xfdf6e3 0x268bd2
  | .monokai =>
    build s.name
      #v[0x272822, 0xf92672, 0xa6e22e, 0xf4bf75, 0x66d9ef, 0xae81ff, 0xa1efe4, 0xf8f8f2,
        0x75715e, 0xf92672, 0xa6e22e, 0xf4bf75, 0x66d9ef, 0xae81ff, 0xa1efe4, 0xf9f8f5]
      0xf8f8f2 0x272822 0xf8f8f2 0x49483e
  | .nord =>
    build s.name
      #v[0x3b4252, 0xbf616a, 0xa3be8c, 0xebcb8b, 0x81a1c1, 0xb48ead, 0x88c0d0, 0xe5e9f0,
        0x4c566a, 0xbf616a, 0xa3be8c, 0xebcb8b, 0x81a1c1, 0xb48ead, 0x8fbcbb, 0xeceff4]
      0xd8dee9 0x2e3440 0xeceff4 0x4c566a
  | .dracula =>
    build s.name
      #v[0x21222c, 0xff5555, 0x50fa7b, 0xf1fa8c, 0xbd93f9, 0xff79c6, 0x8be9fd, 0xf8f8f2,
        0x6272a4, 0xff6e6e, 0x69ff94, 0xffffa5, 0xd6acff, 0xff92df, 0xa4ffff, 0xffffff]
      0xf8f8f2 0x282a36 0xf8f8f2 0x44475a
  | .gruvboxDark =>
    build s.name
      #v[0x282828, 0xcc241d, 0x98971a, 0xd79921, 0x458588, 0xb16286, 0x689d6a, 0xa89984,
        0x928374, 0xfb4934, 0xb8bb26, 0xfabd2f, 0x83a598, 0xd3869b, 0x8ec07c, 0xebdbb2]
      0xebdbb2 0x282828 0xebdbb2 0x665c54
  | .tokyoNight =>
    build s.name
      #v[0x15161e, 0xf7768e, 0x9ece6a, 0xe0af68, 0x7aa2f7, 0xbb9af7, 0x7dcfff, 0xa9b1d6,
        0x414868, 0xf7768e, 0x9ece6a, 0xe0af68, 0x7aa2f7, 0xbb9af7, 0x7dcfff, 0xc0caf5]
      0xc0caf5 0x1a1b26 0xc0caf5 0x333b5b

end Scheme

end VideoTerminal
