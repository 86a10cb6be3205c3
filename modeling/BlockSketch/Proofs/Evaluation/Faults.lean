import BlockSketch.Proofs.Evaluation.Program

namespace BlockSketch

namespace Block

/-- The inputs that a block's generator asks for, in that order. -/
def inputsRead (block : Block) : List String :=
  if block.kind = "math_arithmetic" then ["A", "B"]
  else if block.kind = "spi_transfer" ∨ block.kind = "spi_transfer_return" then ["SPI_DATA"]
  else []

end Block

/-- A look at a block: its turn has come, or it has been evaluated for an input. -/
inductive Look
  | entered (block : Block)
  | fitted (child : Block) (input : String) (owner : Block)

namespace Look

end Look

namespace Block

def looksNode (block : Block) (plugged : String → Option (Block × List Look)) : List Look :=
  .entered block :: block.inputsRead.flatMap fun input =>
    match plugged input with
    | none => []
    | some (child, looks) => looks ++ [.fitted child input block]

/-- All looks at a block and at what is plugged into it, in the order of evaluation, as they would be
if none found a fault. Data is looked at once, also where it is evaluated twice. -/
def looks (block : Block) : List Look := block.fold looksNode

end Block

namespace Drafting

/-- The fault in which a run ends, if it ends in one. -/
def faultOf : EStateM.Result Fault Draft α → Option Fault
  | .ok _ _ => none
  | .error fault _ => some fault

end Drafting

namespace Block

end Block

end BlockSketch
