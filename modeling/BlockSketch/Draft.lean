import BlockSketch.Block.Variables
import BlockSketch.Board
import BlockSketch.Finding
import BlockSketch.Identifier
import BlockSketch.Text.Substitute

namespace BlockSketch

/-- A statement of `setup()`. -/
structure SetupStep where
  code : String
  runFirst : Bool
  deriving DecidableEq

structure Helper where
  name : String
  body : String
  deriving DecidableEq

structure Reservation where
  pin : String
  use : PinUse
  label : String
  location : String
  deriving DecidableEq

/-- Names that mean something to the compiler or to every sketch. -/
def reservedNames : List String :=
  ["setup", "loop", "if", "else", "for", "switch", "case", "while", "do", "break", "continue",
    "return", "goto", "define", "include", "HIGH", "LOW", "INPUT", "OUTPUT", "INPUT_PULLUP",
    "true", "false", "int", "long", "float", "double", "char", "byte", "boolean", "void",
    "static", "const", "String", "SPI", "Serial"]

structure Draft where
  board : Board
  includes : Table String
  setups : Table SetupStep
  /-- Each under the name that was wished for. -/
  helpers : Table Helper
  variableNames : List String
  pins : Table Reservation
  findings : List Finding
  /-- What no further helper may be called. -/
  taken : List String

namespace Draft

def start (board : Board) : Draft :=
  { board
    includes := []
    setups := []
    helpers := []
    variableNames := []
    pins := []
    findings := []
    taken := reservedNames }

/-- Nothing of the draft but its board outlives this. -/
def restart (draft : Draft) : Draft := start draft.board

def addInclude (draft : Draft) (key code : String) : Draft :=
  { draft with includes := draft.includes.putNew key code }

/-- The latest code counts, but the first call decides whether it runs ahead of the others. -/
def addSetup (draft : Draft) (key code : String) (runFirst : Bool) : Draft :=
  { draft with
    setups := draft.setups.alter
      (fun
        | some step => { step with code }
        | none => ⟨code, runFirst⟩) key }

/-- Steps that run first, then the others. -/
def orderedSetups (draft : Draft) : List String :=
  let steps := draft.setups.values
  (steps.filter (·.runFirst) ++ steps.filter (!·.runFirst)).map SetupStep.code

def addName (name : String) (names : List String) : List String :=
  if names.contains name then names else names ++ [name]

def addVariable (draft : Draft) (name : String) : Draft :=
  { draft with
    variableNames := addName name draft.variableNames
    taken := addName name draft.taken }

/-- Takes the names of all variables of a program before any helper is named. -/
def addVariables (draft : Draft) (blocks : List Block) : Draft :=
  (Block.variablesRead blocks).foldl addVariable draft

/-- What a helper's code has where its name will stand. -/
def namePlaceholder : String := "%%FUNCTION_NAME%%"

/-- The name under which the helper can be called. Code given later for the same wish is
dropped: the first helper does for both. -/
def addHelper (draft : Draft) (wanted code : String) : String × Draft :=
  match draft.helpers.get? wanted with
  | some helper => (helper.name, draft)
  | none =>
    let name := Identifier.fresh wanted draft.taken
    let helper := ⟨name, Text.substitute namePlaceholder name code⟩
    (name, { draft with
      helpers := draft.helpers.put wanted helper
      taken := addName name draft.taken })

/-- The first reservation of a pin stands; another use of the pin is a conflict. -/
def reserve (draft : Draft) (location pin : String) (use : PinUse) (label : String) : Draft :=
  match draft.pins.get? pin with
  | none => { draft with pins := draft.pins.put pin ⟨pin, use, label, location⟩ }
  | some standing =>
    if standing.use = use then draft
    else
      { draft with
        findings := draft.findings ++
          [.conflict pin label use.label standing.use.label location] }

/-- A pin that the board does not have is kept, with a finding. -/
def checkPin (draft : Draft) (location pin label : String) : Draft :=
  if draft.board.digitalPins.contains pin then draft
  else
    { draft with
      findings := draft.findings ++ [.unknownPin pin label draft.board.name location] }

def report (draft : Draft) (mode : Mode) : Report := .of draft.findings mode

end Draft

end BlockSketch
