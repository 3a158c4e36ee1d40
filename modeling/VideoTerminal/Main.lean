import VideoTerminal.Replay

/-!
# The command line

Reads the configuration and the capture, and writes what `Replay.run` makes of them.
-/

open VideoTerminal

/-- What a path holds; what is there and can not be read as a file counts as a directory. -/
def storedAt (path : String) : IO Stored := do
  try
    let content ← IO.FS.readBinFile path
    return Stored.file content.toList
  catch
    | .noFileOrDirectory .. => return Stored.missing
    | _ => return Stored.directory

/-- What is found at the source of a capture. -/
def found : Replay.Source → IO Stored
  | .none => return Stored.missing
  | .path name => storedAt name
  | .standardInput => do
    let content ← (← IO.getStdin).readBinToEnd
    return Stored.file content.toList

/-- The command line. -/
def main (args : List String) : IO UInt32 := do
  let directories : HomeDirectories := ⟨← IO.getEnv "USERPROFILE", ← IO.getEnv "HOME"⟩
  let config ← directories.configPath?.mapM storedAt
  match Replay.run args config (← found (Replay.source args)) with
  | .error _ =>
    IO.eprintln "Error: the screen has no cell to write to"
    return 101
  | .ok outcome =>
    IO.print outcome.output
    IO.eprint outcome.diagnostics
    if let some n := outcome.draws then
      IO.eprintln ("Render requests: " ++ toString n)
    return .ofNat outcome.code
