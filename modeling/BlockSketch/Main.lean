import BlockSketch.CommandLine.Run

namespace BlockSketch.CommandLine

/-- The folders above a file are made first. -/
def writeText (path text : String) : IO Unit := do
  let folders := (Text.split '/' path).dropLast
  unless folders.isEmpty do IO.FS.createDirAll ("/".intercalate folders)
  IO.FS.writeFile path text

def perform (outcome : Outcome) : IO UInt32 := do
  for warning in outcome.warnings do IO.eprintln ("warning: " ++ warning)
  for (path, text) in outcome.files do writeText path text
  IO.print outcome.stdout
  IO.eprint outcome.stderr
  return outcome.exit.toUInt32

end BlockSketch.CommandLine

def main (arguments : List String) : IO UInt32 := do
  match BlockSketch.CommandLine.run [BlockSketch.CommandLine.shiftRegister] arguments with
  | .ok outcome => BlockSketch.CommandLine.perform outcome
  | .error breakdown =>
    IO.eprintln breakdown.message
    return 1
