import BlockSketch.Fragment

namespace BlockSketch.Bus

def includeLibrary (draft : Draft) : Draft := draft.addInclude "spi" "#include <SPI.h>"

def begin (draft : Draft) (runFirst : Bool) : Draft :=
  draft.addSetup "spi_begin" "SPI.begin();" runFirst

/-- Only statements of `setup()` come of it. -/
def configure (block : Block) (draft : Draft) : Draft :=
  let bitOrder := block.fieldOr "SPI_SHIFT_ORDER" "MSBFIRST"
  let mode := block.fieldOr "SPI_MODE" "SPI_MODE0"
  let divider := block.fieldOr "SPI_CLOCK_DIVIDE" "SPI_CLOCK_DIV4"
  let draft := includeLibrary draft
  let draft := draft.addSetup "setup_spi_order" ("SPI.setBitOrder(" ++ bitOrder ++ ");") false
  let draft := draft.addSetup "setup_spi_mode" ("SPI.setDataMode(" ++ mode ++ ");") false
  let draft := draft.addSetup "spi_div" ("SPI.setClockDivider(" ++ divider ++ ");") false
  begin draft false

def selectPin? (block : Block) : Option String := block.choice? "SPI_SS"

/-- The bus is started ahead of everything that uses it, and its pins are no one else's. -/
def reservePins (location : String) (draft : Draft) : Draft :=
  let draft := begin (includeLibrary draft) true
  draft.board.spiPins.foldl
    (fun draft (part, pin) => draft.reserve location pin .spi ("SPI " ++ part)) draft

def selectLabel : String := "SPI Slave pin"

def reserveSelect (location pin : String) (draft : Draft) : Draft :=
  let draft := draft.checkPin location pin selectLabel
  let draft := draft.reserve location pin .output selectLabel
  draft.addSetup ("io_" ++ pin) ("pinMode(" ++ pin ++ ", OUTPUT);") false

/-- Without a pin the device counts as always selected. -/
def prepare (location : String) (pin? : Option String) (draft : Draft) : Draft :=
  let draft := reservePins location draft
  match pin? with
  | none => draft
  | some pin => reserveSelect location pin draft

def transferCallee : String := "SPI.transfer"

def transferCall (data : String) : Call := ⟨transferCallee, [data]⟩

def switchPin (pin level : String) : Statement := .call ⟨"digitalWrite", [pin, level]⟩

def transferSequence (pin? : Option String) (data : String) : Sequence :=
  match pin? with
  | none => [.call (transferCall data)]
  | some pin => [switchPin pin "HIGH", .call (transferCall data), switchPin pin "LOW"]

def transferData (block : Block) (plugs : Plugs) : Drafting String :=
  plugs.operand block.location "SPI_DATA" .atomic

/-- The data comes first, so what it needs is in the draft before what the transfer needs. -/
def makeTransfer (block : Block) (plugs : Plugs) : Drafting Sequence := do
  let data ← transferData block plugs
  modify (prepare block.location (selectPin? block))
  pure (transferSequence (selectPin? block) data)

/-- Where the statements of a transfer come from. -/
inductive Supply
  | made
  | given (statements : Sequence)
  deriving DecidableEq

/-- Statements that are given need nothing in the draft. -/
def transfer : Supply → Block → Plugs → Drafting Sequence
  | .made, block, plugs => makeTransfer block plugs
  | .given statements, _, _ => pure statements

def transferCode (supply : Supply) (block : Block) (plugs : Plugs) : Drafting Fragment := do
  let statements ← transfer supply block plugs
  pure (.statement (statements.render 0))

/-- The helper's variable for the answer. -/
def answerName : String := "spiReturn"

def helperLines (captured : Sequence) : List String :=
  let body := .declare "int" answerName "0" :: captured ++ [.giveBack answerName]
  ["int " ++ Draft.namePlaceholder ++ "() \x7b"] ++ Sequence.lines 2 body ++ ["\x7d"]

/-- Helpers for one pin share one wish, so a pin has one helper. -/
def helperWish (pin : String) : String := "spiReturnSlave" ++ pin

/-- A call of a helper in which the answer of the one transfer among the statements is kept. -/
def answerFromHelper (location pin : String) (statements : Sequence) : Drafting Fragment :=
  let (captured, found) :=
    statements.exchange (Statement.isCallTo transferCallee) (Statement.capture answerName)
  if found = 1 then do
    let name ← modifyGet (·.addHelper (helperWish pin) ("\n".intercalate (helperLines captured)))
    pure (.value (name ++ "()") .postfixUnary)
  else throw (.transferCount location found)

/-- What to do with the statements of a transfer whose answer is wanted. Without a pin only the call
is of use, and its data is made anew. -/
def answerOf (block : Block) (plugs : Plugs) (statements : Sequence) : Drafting Fragment :=
  match selectPin? block with
  | none => do
    let data ← transferData block plugs
    pure (.value (transferCall data).render .postfixUnary)
  | some pin => answerFromHelper block.location pin statements

def answerCode (supply : Supply) (block : Block) (plugs : Plugs) : Drafting Fragment := do
  let statements ← transfer supply block plugs
  answerOf block plugs statements

end BlockSketch.Bus
