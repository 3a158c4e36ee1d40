import VideoTerminal.Palette
import VideoTerminal.Pipe
import VideoTerminal.Rendering.Ink
import VideoTerminal.Session
import VideoTerminal.Toml.Writer

/-!
# Configuration

What the user can choose, as a TOML document.  Every setting has a default, unknown keys are
ignored, and a group of settings may also be written as an array in the order of its fields.

`Config.read?` and `Config.write?` are the two directions; `Config.palette` is the palette that the
settings ask for.
-/

namespace VideoTerminal

/-- A color in the configuration; exactly one of the two is meant to be present. -/
structure ColorSetting where
  index : Option Int := none
  rgb : Option Rgb := none
  deriving DecidableEq, Repr

/-- Colors that replace those of the color scheme. -/
structure ColorOverrides where
  foreground : Option ColorSetting := none
  background : Option ColorSetting := none
  cursor : Option ColorSetting := none
  selectionForeground : Option ColorSetting := none
  selectionBackground : Option ColorSetting := none
  deriving DecidableEq, Repr

/-- The configuration. -/
structure Config where
  pacing : Pacing := .balanced
  compactionThreshold : Nat := Pipe.defaultCompactionThreshold
  scrollbackLimit : Nat := Terminal.defaultScrollbackLimit
  logLevel : String := "info"
  colorScheme : String := "default"
  colorDepth : ColorDepth := .trueColor
  cols : Nat := 80
  rows : Nat := 24
  colors : ColorOverrides := {}
  deriving DecidableEq, Repr

/-! ## Reading settings -/

namespace Toml.Value

/-- The fields of a group in the order of their names: from a table by name, from an array by place.
A date is a group without any of the fields. -/
def fields? (names : List String) : Value → Option (List (Option Value))
  | .table _ entries => some (names.map fun name => List.lookup name entries)
  | .array _ vs => some ((List.range names.length).map fun i => vs[i]?)
  | .dateTime _ => some (names.map fun _ => none)
  | _ => none

/-- A text. -/
def text? : Value → Option String
  | .string s => some s
  | _ => none

/-- An integer in a range. -/
def integerIn? (least greatest : Int) : Value → Option Int
  | .integer n => if least ≤ n ∧ n ≤ greatest then some n else none
  | _ => none

/-- A natural number up to `greatest`. -/
def naturalTo? (greatest : Nat) (v : Value) : Option Nat :=
  (v.integerIn? 0 greatest).map Int.toNat

/-- Whether the value is a table or an array with nothing in it. -/
def isEmptyGroup : Value → Bool
  | .table _ entries => entries.isEmpty
  | .array _ vs => vs.isEmpty
  | _ => false

/-- The name of a choice: a text, or the only key of a table that says no more about it. -/
def choice? : Value → Option String
  | .string s => some s
  | .table _ [(name, v)] => if v.isEmptyGroup then some name else none
  | _ => none

end Toml.Value

namespace Config

open Toml (Value Setting Settings)

/-- A field, or its default where it is missing. -/
def fieldOr {α : Type} (default : α) (decode : Value → Option α) : Option Value → Option α
  | none => some default
  | some v => decode v

/-- A field that has no default. -/
def optionalField {α : Type} (decode : Value → Option α) : Option Value → Option (Option α)
  | none => some none
  | some v => (decode v).map some

/-- The greatest count: the greatest integer of a document. -/
def maxCount : Nat := 9223372036854775807

/-- A policy for waiting, by its name in small letters. -/
def pacing? (v : Value) : Option Pacing :=
  v.choice?.bind fun name => Pacing.all.find? fun p => p.name == name

/-- The name of a color depth. -/
def depthName : ColorDepth → String
  | .trueColor => "truecolor"
  | .ansi256 => "ansi256"

/-- A color depth, by its name. -/
def depth? (v : Value) : Option ColorDepth :=
  v.choice?.bind fun name =>
    [ColorDepth.trueColor, .ansi256].find? fun d => depthName d == name

/-- Three channels; further elements are ignored. -/
def rgb? : Value → Option Rgb
  | .array _ (r :: g :: b :: _) => do
    let channel (v : Value) := (v.naturalTo? 255).map UInt8.ofNat
    some ⟨← channel r, ← channel g, ← channel b⟩
  | _ => none

/-- A color. -/
def colorSetting? (v : Value) : Option ColorSetting := do
  match ← v.fields? ["index", "rgb"] with
  | [index, rgb] =>
    let index ← optionalField (fun v => v.integerIn? (-2147483648) 2147483647) index
    let rgb ← optionalField rgb? rgb
    some ⟨index, rgb⟩
  | _ => none

/-- The names of the overrides. -/
def overrideNames : List String :=
  ["foreground", "background", "cursor", "selection_foreground", "selection_background"]

/-- The overrides. -/
def overrides? (v : Value) : Option ColorOverrides := do
  match ← v.fields? overrideNames with
  | [foreground, background, cursor, selectionForeground, selectionBackground] =>
    let color := optionalField colorSetting?
    some ⟨← color foreground, ← color background, ← color cursor, ← color selectionForeground,
      ← color selectionBackground⟩
  | _ => none

/-- The size of the terminal. -/
def size? (v : Value) : Option (Nat × Nat) := do
  match ← v.fields? ["cols", "rows"] with
  | [cols, rows] =>
    let word := fun v : Value => v.naturalTo? 65535
    some (← fieldOr 80 word cols, ← fieldOr 24 word rows)
  | _ => none

/-- The configuration of a table. -/
def ofTable? (t : Toml.Table) : Option Config := do
  let count := fun v : Value => v.naturalTo? maxCount
  let default : Config := {}
  let pacing ← fieldOr default.pacing pacing? (t.get? "performance_mode")
  let threshold ← fieldOr default.compactionThreshold count (t.get? "compaction_threshold")
  let limit ← fieldOr default.scrollbackLimit count (t.get? "scrollback_limit")
  let logLevel ← fieldOr default.logLevel Value.text? (t.get? "log_level")
  let scheme ← fieldOr default.colorScheme Value.text? (t.get? "color_scheme")
  let depth ← fieldOr default.colorDepth depth? (t.get? "color_depth")
  let (cols, rows) ← fieldOr (default.cols, default.rows) size? (t.get? "terminal")
  let colors ← fieldOr default.colors overrides? (t.get? "colors")
  some ⟨pacing, threshold, limit, logLevel, scheme, depth, cols, rows, colors⟩

/-- Reads a configuration. -/
def read? (text : String) : Option Config := do ofTable? (← Toml.read? text)

/-! ## Writing settings -/

/-- The settings of a color. -/
def colorPairs (c : ColorSetting) : List (String × Setting) :=
  (c.index.map fun n => ("index", .number n)).toList
    ++ (c.rgb.map fun c => ("rgb", .numbers [c.r.toNat, c.g.toNat, c.b.toNat])).toList

/-- The overrides with their names. -/
def namedOverrides (o : ColorOverrides) : List (String × Option ColorSetting) :=
  overrideNames.zip
    [o.foreground, o.background, o.cursor, o.selectionForeground, o.selectionBackground]

/-- The sections of the overrides; without any, there is one that is empty. -/
def overrideSettings (o : ColorOverrides) : List Settings :=
  let present := (namedOverrides o).filterMap fun (name, c) => c.map fun c => (name, c)
  if present.isEmpty then [⟨["colors"], []⟩]
  else present.map fun (name, c) => ⟨["colors", name], colorPairs c⟩

/-- All settings. -/
def settings (c : Config) : List Settings :=
  ⟨[],
    [("performance_mode", .text c.pacing.name),
      ("compaction_threshold", .number c.compactionThreshold),
      ("scrollback_limit", .number c.scrollbackLimit),
      ("log_level", .text c.logLevel),
      ("color_scheme", .text c.colorScheme),
      ("color_depth", .text (depthName c.colorDepth))]⟩
    :: ⟨["terminal"], [("cols", .number c.cols), ("rows", .number c.rows)]⟩
    :: overrideSettings c.colors

/-- The document of a configuration, if it can be written. -/
def write? (c : Config) : Option String := Toml.write? c.settings

end Config

/-! ## Use -/

/-- What is wrong with a color of the configuration. -/
inductive ColorSettingFault
  | notOne
  | outside (index : Int)
  | unresolved
  deriving DecidableEq, Repr

/-- Why a configuration, or something that it asks for, is not to be had. -/
inductive ConfigError
  /-- The file can not be read or written. -/
  | file
  /-- The document is malformed, or a setting has a value that it can not have. -/
  | malformed
  /-- A text of the configuration can not be written. -/
  | unwritable
  | invalidColor (field : String) (fault : ColorSettingFault)
  | color (e : ColorError)
  /-- There is no home directory. -/
  | noPath
  deriving DecidableEq, Repr

/-- The error in words. -/
def ConfigError.message : ConfigError → String
  | .file => "failed to access config"
  | .malformed => "failed to parse config"
  | .unwritable => "failed to serialize config"
  | .invalidColor field .notOne =>
    "invalid color: \x60" ++ field ++ "\x60 needs exactly one of \x60index\x60 or \x60rgb\x60"
  | .invalidColor field (.outside index) =>
    "invalid color: \x60" ++ field ++ "\x60 index " ++ toString index ++ " is outside 0-255"
  | .invalidColor field .unresolved =>
    "invalid color: \x60" ++ field ++ "\x60 does not resolve to a color"
  | .color e => e.message
  | .noPath => "could not determine config path"

namespace ColorSetting

/-- The color that a setting names. -/
def color (c : ColorSetting) : Except ColorSettingFault Color :=
  match c.index, c.rgb with
  | some index, none =>
    if 0 ≤ index ∧ index ≤ 255 then .ok (.indexed index) else .error (.outside index)
  | none, some value => .ok (.explicit value)
  | _, _ => .error .notOne

/-- The value of a setting under a palette. -/
def resolve (c : ColorSetting) (palette : Palette) : Except ColorSettingFault Rgb := do
  match palette.rgbOf? (← c.color) with
  | some value => .ok value
  | none => .error .unresolved

end ColorSetting

namespace Config

/-- The overrides with the roles that they replace. -/
def overriddenRoles (o : ColorOverrides) : List (ColorRole × String × Option ColorSetting) :=
  [ColorRole.foreground, .background, .cursor, .selectionForeground, .selectionBackground].zip
    (namedOverrides o)

/-- Replaces the color of one role. -/
def override (palette : Palette) (entry : ColorRole × String × Option ColorSetting) :
    Except ConfigError Palette :=
  match entry with
  | (_, _, none) => .ok palette
  | (role, field, some setting) =>
    match setting.resolve palette with
    | .ok value => .ok (palette.setRole role value)
    | .error fault => .error (.invalidColor field fault)

/-- The palette of the scheme with the overrides. -/
def palette (c : Config) : Except ConfigError Palette :=
  match Palette.byName c.colorScheme with
  | .error e => .error (.color e)
  | .ok palette => (overriddenRoles c.colors).foldlM override palette

/-- What a session starts with. -/
def sessionOptions (c : Config) : Session.Options where
  cols := c.cols
  rows := c.rows
  pacing := c.pacing
  compactionThreshold := c.compactionThreshold
  scrollbackLimit := c.scrollbackLimit

end Config

end VideoTerminal
