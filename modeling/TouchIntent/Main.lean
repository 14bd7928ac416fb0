import TouchIntent.Replay.Command

/-!
# The program

Reads the files of the replay command, runs it and prints what it answers.
-/

namespace TouchIntent

/-- The text of a file, unless there is none or it is not text. -/
def readText (path : String) : IO (Option String) := do
  try
    return String.fromUTF8? (← IO.FS.readBinFile path)
  catch _ =>
    return none

def usage : String :=
  "usage: trace.csv --scene scene.toml [--config session.toml] [--expect expected]"

def runCommand (paths : CommandPaths) : IO UInt32 := do
  let files : CommandFiles := {
    trace := ← readText paths.trace
    scene := ← readText paths.scene
    config := ← paths.config.mapM readText
    expectations := ← paths.expectations.mapM readText }
  let result := files.run Float
  result.output.forM IO.println
  if let some error := result.error then
    IO.eprintln error.message
  return UInt32.ofNat result.exitCode

end TouchIntent

def main (arguments : List String) : IO UInt32 :=
  match TouchIntent.CommandPaths.ofArguments? arguments with
  | some paths => TouchIntent.runCommand paths
  | none => do
    IO.eprintln TouchIntent.usage
    return 2
