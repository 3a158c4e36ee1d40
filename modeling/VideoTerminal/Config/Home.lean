import VideoTerminal.Config
import VideoTerminal.Storage
import VideoTerminal.Text.Utf8

/-!
# Where the configuration is kept

The configuration is a file in a directory of its own below the home directory.  A file that is
missing or can not be read counts as an empty one when the program starts, but not when it is asked
for by name.
-/

namespace VideoTerminal

/-- The directories that may be the home directory. -/
structure HomeDirectories where
  /-- The profile of the user comes first. -/
  profile : Option String := none
  home : Option String := none
  deriving DecidableEq, Repr

namespace HomeDirectories

/-- A path below a directory. -/
def join (directory name : String) : String :=
  if directory.isEmpty || directory.endsWith "/" then directory ++ name
  else directory ++ "/" ++ name

/-- The home directory. -/
def directory? (h : HomeDirectories) : Option String := h.profile <|> h.home

/-- The directory of the configuration. -/
def configDirectory? (h : HomeDirectories) : Option String :=
  h.directory?.map fun d => join d ".termcore"

/-- The file of the configuration. -/
def configPath? (h : HomeDirectories) : Option String :=
  h.configDirectory?.map fun d => join d "config.toml"

/-- The file of the log. -/
def logPath? (h : HomeDirectories) : Option String :=
  h.configDirectory?.map fun d => join d "termcore.log"

end HomeDirectories

namespace Config

/-- Reads a configuration from what a path holds. -/
def readFrom : Stored → Except ConfigError Config
  | .file content =>
    match Text.Utf8.decode? content with
    | none => .error .file
    | some text =>
      match read? (String.ofList text) with
      | some c => .ok c
      | none => .error .malformed
  | .missing => .error .file
  | .directory => .error .file

/-- The configuration that the program starts with; without a path, and where nothing can be read,
that of an empty document. -/
def load (stored : Option Stored) : Config :=
  match stored with
  | none => {}
  | some stored => (readFrom stored).toOption.getD {}

/-- Writes a configuration to a path, which then holds it. -/
def writeTo (c : Config) (stored : Stored) : Except ConfigError Stored :=
  match c.write? with
  | none => .error .unwritable
  | some text =>
    if stored = .directory then .error .file else .ok (.file (Text.Utf8.encode text.toList))

/-- Saves a configuration to its path, if there is one. -/
def save (c : Config) (stored : Option Stored) : Except ConfigError Stored :=
  match stored with
  | none => .error .noPath
  | some stored => c.writeTo stored

end Config

end VideoTerminal
