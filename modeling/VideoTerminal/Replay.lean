import VideoTerminal.Config.Home
import VideoTerminal.Rendering
import VideoTerminal.Rendering.Dump
import VideoTerminal.Session.Live

/-!
# Replaying a capture

The program reads what another one has written to its terminal, interprets it and shows the screen
that it ends with.  `Replay.source` tells from the arguments what has to be read, and `Replay.run`
what the program then writes.
-/

namespace VideoTerminal.Replay

/-- What the arguments ask for. -/
structure Options where
  /-- The capture; without one, it is read from standard input. -/
  path : Option String := none
  pacing : Option Pacing := none
  cols : Option Nat := none
  rows : Option Nat := none
  plain : Bool := false
  ansi256 : Bool := false
  deriving DecidableEq, Repr

/-- What the program is to do. -/
inductive Command
  | help
  | version
  | replay (options : Options)
  deriving DecidableEq, Repr

/-- What is wrong with the arguments. -/
inductive UsageError
  | missingMode
  | unknownMode (name : String)
  | missingValue (flag : String)
  | invalidValue (flag value : String)
  | unknownArgument (arg : String)
  | secondPath
  deriving DecidableEq, Repr

/-- The error in words. -/
def UsageError.message : UsageError → String
  | .missingMode => "Missing mode argument"
  | .unknownMode name => "Unknown mode: " ++ name
  | .missingValue flag => "Missing value for " ++ flag
  | .invalidValue flag value => "Invalid value for " ++ flag ++ ": " ++ value
  | .unknownArgument arg => "Unknown argument: " ++ arg ++ ". Use -h for help."
  | .secondPath => "Only one input file is accepted"

/-- The number of some digits, which may have a plus in front, if it is at most 65535. -/
def word? (text : String) : Option Nat :=
  let digits := match text.toList with
    | '+' :: ds => ds
    | ds => ds
  let n := Toml.numberOf 10 digits
  if digits.isEmpty || !digits.all Char.isDigit || decide (65535 < n) then none else some n

/-- A width or a height. -/
def size (flag : String) (value : Option String) : Except UsageError Nat :=
  match value with
  | none => .error (.missingValue flag)
  | some text =>
    match word? text with
    | some (n + 1) => .ok (n + 1)
    | _ => .error (.invalidValue flag text)

/-- Reads the arguments from left to right.  Asking for help or for the version ends it. -/
def parse (o : Options) : List String → Except UsageError Command
  | [] => .ok (.replay o)
  | arg :: rest =>
    if arg == "-h" || arg == "--help" then .ok .help
    else if arg == "-v" || arg == "--version" then .ok .version
    else if arg == "-m" || arg == "--mode" then
      match rest with
      | [] => .error .missingMode
      | name :: rest =>
        match Pacing.ofName? name with
        | some p => parse { o with pacing := some p } rest
        | none => .error (.unknownMode name)
    else if arg == "--cols" || arg == "--rows" then
      match size arg rest.head?, rest with
      | .error e, _ => .error e
      | .ok _, [] => .error (.missingValue arg)
      | .ok n, _ :: rest =>
        parse (if arg == "--cols" then { o with cols := some n } else { o with rows := some n }) rest
    else if arg == "--plain" then parse { o with plain := true } rest
    else if arg == "--ansi256" then parse { o with ansi256 := true } rest
    else if arg.startsWith "-" && arg != "-" then .error (.unknownArgument arg)
    else if o.path.isSome then .error .secondPath
    else parse (if arg == "-" then o else { o with path := some arg }) rest

/-- Where a capture comes from. -/
inductive Source
  | none
  | standardInput
  | path (name : String)
  deriving DecidableEq, Repr

/-- What the arguments ask to be read. -/
def source (args : List String) : Source :=
  match parse {} args with
  | .ok (.replay o) => o.path.elim .standardInput .path
  | _ => .none

/-- What is found at a source, with the folder in which paths start and the standard input. -/
def Source.find (folder : Folder) (input : List UInt8) : Source → Stored
  | .none => .missing
  | .standardInput => .file input
  | .path name => folder.find name

/-- The configuration with what the arguments ask for. -/
def Options.configure (o : Options) (c : Config) : Config :=
  { c with
    pacing := o.pacing.getD c.pacing
    cols := o.cols.getD c.cols
    rows := o.rows.getD c.rows
    colorDepth := if o.ansi256 then .ansi256 else c.colorDepth }

/-! ## What the program writes -/

/-- What the program writes, and its exit code. -/
structure Outcome where
  code : Nat := 0
  output : String := ""
  diagnostics : String := ""
  /-- How often the screen was to be drawn. -/
  draws : Option Nat := none
  deriving DecidableEq, Repr

/-- The name of the program and its version. -/
def versionText : String := "termcore 0.1.0"

/-- How to use the program. -/
def helpText : String :=
  String.intercalate "\n" [
    versionText ++ " - terminal emulation core",
    "",
    "Usage: termcore [OPTIONS] [FILE]",
    "",
    "Replays raw PTY output from FILE (or stdin) and prints the final screen.",
    "",
    "Options:",
    "  -m, --mode <MODE>     Stream mode: latency, throughput, balanced",
    "      --cols <N>        Terminal width",
    "      --rows <N>        Terminal height",
    "      --plain           Print text without colors",
    "      --ansi256         Map colors to the 256-color palette",
    "  -v, --version         Show version",
    "  -h, --help            Show this help",
    "",
    "Configuration: ~/.termcore/config.toml",
    "",
    "Color schemes: default, solarized-dark, solarized-light,",
    "               monokai, nord, dracula, gruvbox-dark, tokyo-night",
    ""]

/-- Interprets a capture and shows the screen. -/
def replay (o : Options) (c : Config) (capture : List UInt8) : Except Fault Outcome := do
  let c := o.configure c
  let live ← (Live.spawn 1 [.bytes capture] {} c.sessionOptions).complete
  let palette := c.palette.toOption.getD .standard
  let renderer : Renderer := { depth := c.colorDepth, palette := palette, plain := o.plain }
  let terminal := live.session.terminal
  return {
    output := renderer.render terminal
    diagnostics := Dump.text terminal
    draws := some (live.session.notifier.events.filter (· == .output)).length }

/-- What the program does, with what is stored as its configuration and what is found at the source
of the capture. -/
def run (args : List String) (config : Option Stored) (found : Stored) : Except Fault Outcome :=
  match parse {} args with
  | .error e =>
    .ok {
      code := 1
      diagnostics := "Error: " ++ e.message ++ "\nUse --help for usage information\n" }
  | .ok .help => .ok { diagnostics := helpText }
  | .ok .version => .ok { diagnostics := versionText ++ "\n" }
  | .ok (.replay o) =>
    match found with
    | .file capture => replay o (Config.load config) capture
    | _ =>
      .ok {
        code := 1
        diagnostics := "Error: " ++ o.path.getD "" ++ " is not a file\n" }

end VideoTerminal.Replay
