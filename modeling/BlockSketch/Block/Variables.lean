import BlockSketch.Block.Basic

namespace BlockSketch.Block

def readKind : String := "variables_get"

def nameRead (block : Block) : String := block.fieldOr "VAR" ""

/-- The variable that the block itself reads. -/
def readName? (block : Block) : Option String :=
  if block.kind = readKind ∧ block.nameRead ≠ "" then some block.nameRead else none

/-- A block, then the blocks plugged into it and after it, then the others that are waiting. -/
def everyBlock : List Block → List Block
  | [] => []
  | block :: waiting => block :: everyBlock (block.children ++ waiting)
termination_by waiting => totalSize waiting
decreasing_by
  have := size_eq block
  simp only [totalSize, totalSize_append]
  omega

def variablesRead (blocks : List Block) : List String :=
  (everyBlock blocks).filterMap readName?

end BlockSketch.Block
