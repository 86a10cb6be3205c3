import BlockSketch.Proofs.Draft.Steps

namespace BlockSketch

inductive Registration
  | addInclude (key code : String)
  | addSetup (key code : String) (runFirst : Bool)
  | addVariable (name : String)
  | addHelper (wanted code : String)
  | reserve (location pin : String) (use : PinUse) (label : String)
  | checkPin (location pin label : String)

/-- The code of a helper matters only to the first who asks for it. -/
def Registration.shape : Registration → Registration
  | addHelper wanted _ => addHelper wanted ""
  | other => other

namespace Draft

def register (draft : Draft) : Registration → Draft
  | .addInclude key code => draft.addInclude key code
  | .addSetup key code runFirst => draft.addSetup key code runFirst
  | .addVariable name => draft.addVariable name
  | .addHelper wanted code => (draft.addHelper wanted code).2
  | .reserve location pin use label => draft.reserve location pin use label
  | .checkPin location pin label => draft.checkPin location pin label

def registerAll (draft : Draft) (log : List Registration) : Draft := log.foldl register draft

@[simp] theorem registerAll_nil (draft : Draft) : draft.registerAll [] = draft := rfl

@[simp] theorem registerAll_cons (draft : Draft) (registration : Registration)
    (rest : List Registration) :
    draft.registerAll (registration :: rest) = (draft.register registration).registerAll rest := rfl

theorem registerAll_append (draft : Draft) (log more : List Registration) :
    draft.registerAll (log ++ more) = (draft.registerAll log).registerAll more :=
  List.foldl_append

theorem step_register (draft : Draft) (registration : Registration) :
    Step draft (draft.register registration) := by
  cases registration with
  | addInclude key code => exact .addInclude key code
  | addSetup key code runFirst => exact .addSetup key code runFirst
  | addVariable name => exact .addVariable name
  | addHelper wanted code => exact .addHelper wanted code
  | reserve location pin use label => exact .reserve location pin use label
  | checkPin location pin label => exact .checkPin location pin label

theorem steps_registerAll (draft : Draft) (log : List Registration) :
    Steps draft (draft.registerAll log) :=
  Steps.foldl (fun draft registration => (draft.step_register registration).steps) draft log

end Draft

namespace Bus

def configureLog (block : Block) : List Registration :=
  [.addInclude "spi" "#include <SPI.h>",
    .addSetup "setup_spi_order"
      ("SPI.setBitOrder(" ++ block.fieldOr "SPI_SHIFT_ORDER" "MSBFIRST" ++ ");") false,
    .addSetup "setup_spi_mode"
      ("SPI.setDataMode(" ++ block.fieldOr "SPI_MODE" "SPI_MODE0" ++ ");") false,
    .addSetup "spi_div"
      ("SPI.setClockDivider(" ++ block.fieldOr "SPI_CLOCK_DIVIDE" "SPI_CLOCK_DIV4" ++ ");") false,
    .addSetup "spi_begin" "SPI.begin();" false]

def busLog (board : Board) (location : String) : List Registration :=
  [.addInclude "spi" "#include <SPI.h>", .addSetup "spi_begin" "SPI.begin();" true] ++
    board.spiPins.map fun (part, pin) => .reserve location pin .spi ("SPI " ++ part)

def selectLog (location : String) : Option String → List Registration
  | none => []
  | some pin =>
    [.checkPin location pin selectLabel, .reserve location pin .output selectLabel,
      .addSetup ("io_" ++ pin) ("pinMode(" ++ pin ++ ", OUTPUT);") false]

/-- The bus is registered ahead of the pin that selects a device on it. -/
def prepareLog (board : Board) (location : String) (pin? : Option String) : List Registration :=
  busLog board location ++ selectLog location pin?

theorem configure_eq (block : Block) (draft : Draft) :
    configure block draft = draft.registerAll (configureLog block) := rfl

theorem prepare_eq (location : String) (pin? : Option String) (draft : Draft) :
    prepare location pin? draft = draft.registerAll (prepareLog draft.board location pin?) := by
  have hbus : reservePins location draft = draft.registerAll (busLog draft.board location) := by
    rw [busLog, Draft.registerAll_append, Draft.registerAll, Draft.registerAll, List.foldl_map]
    rfl
  rw [prepareLog, Draft.registerAll_append, ← hbus]
  cases pin? with
  | none => rfl
  | some pin => rfl

end Bus

namespace Block

/-- What evaluating a block registers, apart from what the blocks in its inputs do. -/
def log (names : String → String) (board : Board) (block : Block) : List Registration :=
  match block.role? with
  | some .busSetup => Bus.configureLog block
  | some .variableRead => [.addVariable block.nameRead]
  | some .transfer => Bus.prepareLog board block.location (Bus.selectPin? block)
  | some .transferAnswer =>
    Bus.prepareLog board block.location (Bus.selectPin? block) ++
      match Bus.selectPin? block with
      | none => []
      | some pin => [.addHelper (Bus.helperWish pin) (Bus.helperCode pin (block.dataCode names))]
  | _ => []

theorem shapes_log (names other : String → String) (board : Board) (block : Block) :
    (block.log names board).map Registration.shape =
      (block.log other board).map Registration.shape := by
  unfold log
  cases block.role? with
  | none => rfl
  | some role =>
    cases role with
    | busSetup | number | variableRead | arithmetic | transfer => rfl
    | transferAnswer =>
      cases Bus.selectPin? block with
      | none => rfl
      | some pin => simp only [List.map_append, List.map_cons, Registration.shape]

end Block

namespace Draft

theorem perform_eq (draft : Draft) (block : Block) :
    draft.perform block = draft.registerAll (block.log draft.helperName draft.board) := by
  unfold perform Block.log
  cases block.role? with
  | none => rfl
  | some role =>
    cases role with
    | busSetup => exact Bus.configure_eq block draft
    | number | variableRead | arithmetic => rfl
    | transfer => exact Bus.prepare_eq _ _ draft
    | transferAnswer =>
      simp only [registerAll_append, Bus.prepare_eq]
      cases Bus.selectPin? block with
      | none => rfl
      | some pin => rfl

/-- What evaluating blocks one after the other registers. -/
def logOf : Draft → List Block → List Registration
  | _, [] => []
  | draft, block :: rest =>
    block.log draft.helperName draft.board ++ logOf (draft.perform block) rest

theorem performAll_eq (draft : Draft) (blocks : List Block) :
    draft.performAll blocks = draft.registerAll (draft.logOf blocks) := by
  induction blocks generalizing draft with
  | nil => rfl
  | cons block rest ih => rw [performAll_cons, logOf, registerAll_append, ← perform_eq, ih]

theorem register_board (draft : Draft) (registration : Registration) :
    (draft.register registration).board = draft.board := by
  cases registration with
  | addInclude | addSetup | addVariable => rfl
  | addHelper wanted code =>
    simp only [register, addHelper]
    split <;> rfl
  | reserve location pin use label =>
    obtain ⟨pins, findings, he⟩ := draft.reserve_frame location pin use label
    rw [register, he]
  | checkPin location pin label =>
    obtain ⟨findings, he⟩ := draft.checkPin_frame location pin label
    rw [register, he]

theorem registerAll_board (draft : Draft) (log : List Registration) :
    (draft.registerAll log).board = draft.board := by
  induction log generalizing draft with
  | nil => rfl
  | cons registration rest ih => rw [registerAll_cons, ih, register_board]

@[simp] theorem performAll_board (draft : Draft) (blocks : List Block) :
    (draft.performAll blocks).board = draft.board := by
  rw [performAll_eq, registerAll_board]

theorem addVariables_eq (draft : Draft) (program : List Block) :
    draft.addVariables program =
      draft.registerAll ((Block.variablesRead program).map .addVariable) := by
  rw [addVariables, registerAll, List.foldl_map]
  rfl

theorem shapes_logOf {draft other : Draft} (h : draft.board = other.board) (blocks : List Block) :
    (draft.logOf blocks).map Registration.shape = (other.logOf blocks).map Registration.shape := by
  induction blocks generalizing draft other with
  | nil => rfl
  | cons block rest ih =>
    have hb : (draft.perform block).board = (other.perform block).board := by
      rw [perform_eq, perform_eq, registerAll_board, registerAll_board, h]
    rw [logOf, logOf, List.map_append, List.map_append, ih hb, h,
      Block.shapes_log draft.helperName other.helperName]

end Draft

end BlockSketch
