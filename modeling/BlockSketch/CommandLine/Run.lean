import BlockSketch.CommandLine.Library
import BlockSketch.CommandLine.Options
import BlockSketch.Sketch.Program

namespace BlockSketch.CommandLine

/-- What a run has done by some time, with the generators that it knows by then. -/
structure Done where
  stdout : String
  stderr : String
  files : List (String × String)
  warnings : List String
  registry : Registry
  deriving DecidableEq

namespace Done

def nothing : Done := ⟨"", "", [], [], Registry.standard⟩

def print (text : String) (done : Done) : Done := { done with stdout := done.stdout ++ text }

def complain (text : String) (done : Done) : Done := { done with stderr := done.stderr ++ text }

def write (path text : String) (done : Done) : Done :=
  { done with files := done.files ++ [(path, text)] }

def warn (warnings : List String) (done : Done) : Done :=
  { done with warnings := done.warnings ++ warnings }

end Done

structure Outcome extends Done where
  exit : Nat
  deriving DecidableEq

/-- Two slashes in front are a root of their own; any other number of them counts as one. -/
def rootOf (path : String) : String :=
  match (path.toList.takeWhile (· = '/')).length with
  | 0 => ""
  | 2 => "//"
  | _ => "/"

/-- Empty parts of a path and those that lead nowhere are left out. -/
def normalPath (path : String) : String :=
  let parts := (Text.split '/' path).filter fun part => part ≠ "" ∧ part ≠ "."
  let whole := rootOf path ++ "/".intercalate parts
  if whole = "" then "." else whole

def toolName : String := "generate_sketch_example.py"

def usage : String :=
  "usage: " ++ toolName ++ " [-h] [--module MODULE] [--program PROGRAM] [--output OUTPUT] " ++
    "[--board \x7b" ++ ",".intercalate Board.sortedKeys ++ "\x7d] [--strict] [--stdout]\n"

/-- Why a run ends without an outcome. -/
inductive Breakdown
  | refusal (refusal : Refusal)
  | noProgramName
  | noOutput
  /-- An import may end more than itself. -/
  | interrupted (reason : String)
  deriving DecidableEq

/-- An option whose value was dropped holds an empty list. -/
def Breakdown.message : Breakdown → String
  | refusal r => r.message
  | noProgramName => "attribute name must be string, not " ++ Text.quoted Kind.list.name
  | noOutput => "expected str, bytes or os.PathLike object, not " ++ Kind.list.name
  | interrupted reason => reason

/-- A run keeps what it has done, also when it breaks down. -/
abbrev Running := EStateM Breakdown Done

/-- Only the reason is given. -/
def failed (exit : Nat) (reason : String) : Running Nat := do
  modify (Done.complain reason)
  pure exit

def notice (path : String) (sketch : Sketch) : String :=
  "Wrote " ++ path ++ " (" ++ toString (Text.lineCount sketch.text) ++ " lines)\n"

/-- Warnings come while the sketch is made, so a missing path is noticed after them. -/
def deliver (options : Options) (sketch : Sketch) : Running Nat := do
  modify (Done.warn sketch.warnings)
  match options.output with
  | none => throw .noOutput
  | some path =>
    let path := normalPath path
    modify (Done.write path sketch.text)
    modify (Done.print (notice path sketch))
    if options.showText then modify (Done.print (sketch.text ++ "\n"))
    pure 0

def sketchOf (registry : Registry) (options : Options) (block : Block) : Except Refusal Sketch :=
  match options.board with
  | none => .error (.boardKind .list)
  | some board => Program.sketch registry ⟨[block], board, options.mode⟩

/-- Bad values end the run with their message; any other refusal is passed on. -/
def make (options : Options) (block : Block) : Running Nat := do
  match sketchOf (← get).registry options block with
  | .ok sketch => deliver options sketch
  | .error refusal =>
    if refusal.isBadValue then failed 1 (refusal.message ++ "\n") else throw (.refusal refusal)

/-- Carries out the module that has a name, and gives how a name is looked up in it or why the import
fails. What the module does is done in any case, and to look a name up may do more. -/
abbrev Importing := String → Running (Except String (String → Running (Option Block)))

def importFailed (name reason : String) : Running Nat :=
  failed 1 ("Failed to import module " ++ name ++ ": " ++ reason ++ "\n")

def executeWith (importing : Importing) (options : Options) : Running Nat :=
  match options.moduleName with
  | none => importFailed "[]" ImportFailure.noName.message
  | some moduleName => do
    match ← importing moduleName, options.programName with
    | .error reason, _ => importFailed (Text.quoted moduleName) reason
    | .ok _, none => throw .noProgramName
    | .ok lookUp, some programName =>
      match ← lookUp programName with
      | none => failed 1 (moduleName ++ "." ++ programName ++ " is not a Block.\n")
      | some block => make options block

def execute (importing : Importing) (arguments : List String) : Running Nat :=
  match Options.ofArguments arguments with
  | .error .helpWanted => do
    modify (Done.print usage)
    pure 0
  | .error (.misuse misuse) =>
    failed 2 (usage ++ toolName ++ ": error: " ++ misuse.message ++ "\n")
  | .ok options => executeWith importing options

def Library.importing (library : Library) : Importing := fun name => do
  let (printed, found) := library.find name
  modify (Done.print printed)
  match found with
  | .error failure => pure (.error failure.message)
  | .ok programs => pure (.ok fun programName => pure (programs.get? programName))

def run (library : Library) (arguments : List String) : Except Breakdown Outcome :=
  match execute library.importing arguments Done.nothing with
  | .ok exit done => .ok ⟨done, exit⟩
  | .error breakdown _ => .error breakdown

end BlockSketch.CommandLine
