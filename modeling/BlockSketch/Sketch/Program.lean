import BlockSketch.Block.Code
import BlockSketch.Kind
import BlockSketch.Sketch.Layout

namespace BlockSketch

structure Program where
  blocks : List Block
  board : Board
  mode : Mode

structure Sketch where
  text : String
  warnings : List String
  deriving DecidableEq

inductive Refusal
  | programKind (arrived : Kind)
  | itemKind (arrived : Kind)
  | boardKind (arrived : Kind)
  | modeKind (arrived : Kind)
  | unknownBoard (key : String)
  | unknownMode
  | fault (fault : Fault)
  | findings (errors : List Finding)
  deriving DecidableEq

namespace Refusal

/-- A value that someone picked, rather than the program that hands it over, is to blame. -/
def isBadValue : Refusal → Bool
  | programKind _ | itemKind _ | boardKind _ | modeKind _ => false
  | unknownBoard _ | unknownMode | findings _ => true
  | fault f => f.category == .badValue

def message : Refusal → String
  | programKind arrived => "blocks must be a sequence of Block, got " ++ arrived.name
  | itemKind arrived => "blocks must contain Block instances, got " ++ arrived.name
  | boardKind arrived => "board must be str or BoardSpec, got " ++ arrived.name
  | modeKind arrived => "unhashable type: " ++ Text.quoted arrived.name
  | unknownBoard key => Board.unknownMessage key
  | unknownMode => "generate_sketch(...) mode must be 'warn' or 'strict'."
  | fault f => f.message
  | findings errors => Report.refusal errors

end Refusal

/-- The variables come first; findings are settled only after all code is made. -/
def Program.sketch (registry : Registry) (program : Program) : Except Refusal Sketch :=
  let draft := (Draft.start program.board).addVariables program.blocks
  match Block.stacksCode registry program.blocks draft with
  | .error fault _ => .error (.fault fault)
  | .ok loopCode draft =>
    match (draft.report program.mode).settle with
    | .error errors => .error (.findings errors)
    | .ok warnings => .ok ⟨draft.layout loopCode, warnings⟩

/-- A board is named by its key or described in full. -/
inductive BoardChoice
  | named (key : String)
  | described (board : Board)

def BoardChoice.board : BoardChoice → Except Refusal Board
  | named key =>
    match Board.find? key with
    | some board => .ok board
    | none => .error (.unknownBoard key)
  | described board => .ok board

structure Request where
  blocks : Arrived (List (Arrived Block))
  board : Arrived BoardChoice
  mode : Arrived String

namespace Request

def blocksOf : List (Arrived Block) → Except Refusal (List Block)
  | [] => .ok []
  | .other arrived :: _ => .error (.itemKind arrived)
  | .wanted block :: rest => (blocksOf rest).map (block :: ·)

/-- A list cannot even be looked for among the modes. -/
def modeOf : Arrived String → Except Refusal Mode
  | .other .list => .error (.modeKind .list)
  | .other _ => .error .unknownMode
  | .wanted text =>
    match Mode.ofText? text with
    | some mode => .ok mode
    | none => .error .unknownMode

/-- The blocks are looked at first, then the board, then the mode. -/
def check (request : Request) : Except Refusal Program := do
  let blocks ←
    match request.blocks with
    | .other arrived => .error (.programKind arrived)
    | .wanted items => blocksOf items
  let board ←
    match request.board with
    | .other arrived => .error (.boardKind arrived)
    | .wanted choice => choice.board
  let mode ← modeOf request.mode
  pure ⟨blocks, board, mode⟩

/-- Only a request that was checked gives a sketch. -/
def sketch (registry : Registry) (request : Request) : Except Refusal Sketch := do
  let program ← request.check
  program.sketch registry

end Request

end BlockSketch
