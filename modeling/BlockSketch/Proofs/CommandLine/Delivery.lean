import BlockSketch.Proofs.CommandLine.Path
import BlockSketch.Proofs.Text.Shown

namespace BlockSketch

namespace CommandLine

namespace Options

variable {options next : Options}

/-- The options as a request for a block's sketch. A key that was dropped left a list. -/
def request (options : Options) (block : Block) : Request where
  blocks := .wanted [.wanted block]
  board := options.board.elim (.other .list) fun board => .wanted (.named board.key)
  mode := .wanted (if options.strict then "strict" else "warn")

end Options

namespace Running

/-- What a run has done in the end, whether it returns or breaks down. -/
def doneBy : EStateM.Result Breakdown Done α → Done
  | .ok _ done => done
  | .error _ done => done

end Running

open Running

namespace Options

/-- The import of the module that the options name, and the search for the program in it. -/
def found (importing : Importing) (options : Options) :
    EStateM.Result Breakdown Done (Option Block) :=
  match options.moduleName with
  | none => .ok none Done.nothing
  | some moduleName =>
    match importing moduleName Done.nothing with
    | .error breakdown done => .error breakdown done
    | .ok (.error _) done => .ok none done
    | .ok (.ok lookUp) done => options.programName.elim (.ok none done) (lookUp · done)

/-- What the module has done by the time the program is found in it or is not. -/
def imported (importing : Importing) (options : Options) : Done :=
  doneBy (options.found importing)

end Options

section Running

variable {importing : Importing} {arguments : List String} {options : Options} {path : String}
  {block : Block} {sketch : Sketch} {before : Done}

end Running

end CommandLine

end BlockSketch
