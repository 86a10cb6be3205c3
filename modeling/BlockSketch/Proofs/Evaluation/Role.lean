import BlockSketch.Proofs.Block.Fold
import BlockSketch.Generator

namespace BlockSketch

inductive Role
  | busSetup | number | variableRead | arithmetic | transfer | transferAnswer
  deriving DecidableEq

namespace Role

def generator : Role → Generator
  | busSetup => .busSetup
  | number => .number
  | variableRead => .variableRead
  | arithmetic => .arithmetic
  | transfer => .transfer .made
  | transferAnswer => .transferAnswer .made

def named : Table Role :=
  [("spi_setup", busSetup), ("spi_transfer", transfer), ("spi_transfer_return", transferAnswer),
    ("math_number", number), (Block.readKind, variableRead), ("math_arithmetic", arithmetic)]

/-- What blocks of the role are called. -/
def kind : Role → String
  | busSetup => "spi_setup"
  | number => "math_number"
  | variableRead => "variables_get"
  | arithmetic => "math_arithmetic"
  | transfer => "spi_transfer"
  | transferAnswer => "spi_transfer_return"

/-- Blocks of the other roles stand only where a statement can stand. -/
def isValue : Role → Bool
  | busSetup | transfer => false
  | _ => true

end Role

namespace Block

def role? (block : Block) : Option Role := Role.named.get? block.kind

def isValue (block : Block) : Bool := block.role?.any Role.isValue

theorem find_standard (block : Block) :
    Registry.standard.find block.kind =
      match block.role? with
      | some role => .ok role.generator
      | none => .error (.noGenerator block.kind) := by
  have hs : Registry.standard = Role.named.map fun entry => (entry.1, entry.2.generator) := rfl
  unfold Registry.find role?
  rw [hs, Table.get?_map]
  cases Role.named.get? block.kind <;> rfl

theorem role?_of_kind {block : Block} {name : String} (hk : block.kind = name)
    (h : Role.named.get? name = some role) : block.role? = some role := by
  rw [role?, hk, h]

theorem role?_eq_some {block : Block} {role : Role} :
    block.role? = some role ↔ block.kind = role.kind := by
  constructor
  · intro h
    have hm := Table.mem_of_get? h
    cases role <;> simpa [Role.named, readKind, Role.kind] using hm
  · intro h
    cases role <;> exact role?_of_kind h rfl

theorem role?_eq_variableRead {block : Block} :
    block.role? = some .variableRead ↔ block.kind = readKind :=
  role?_eq_some

theorem kind_ne_of_none {block : Block} (h : block.role? = none) (role : Role) :
    block.kind ≠ role.kind := by
  intro hk
  rw [role?_eq_some.mpr hk] at h
  cases h

/-- The operator picked for arithmetic, which is a sum if none was. -/
def operator (block : Block) : String :=
  if block.fieldOr "OP" "" = "" then "ADD" else block.fieldOr "OP" ""

/-- The text picked for a number, which is zero if none was. -/
def numberText (block : Block) : String :=
  if block.fieldOr "NUM" "" = "" then "0" else block.fieldOr "NUM" ""

def dataInput : String := "SPI_DATA"

/-- The pin for which the block needs a helper. -/
def answerPin? (block : Block) : Option String :=
  if block.kind = "spi_transfer_return" then (block.field? "SPI_SS").filter (· ≠ "none") else none

/-- The pin that is switched around the transfer that the block stands for. -/
def switchedPin? (block : Block) : Option String :=
  if block.kind = "spi_transfer" ∨ block.kind = "spi_transfer_return" then
    (block.field? "SPI_SS").filter (· ≠ "none")
  else none

theorem answerPin?_eq (block : Block) :
    block.answerPin? =
      if block.role? = some .transferAnswer then Bus.selectPin? block else none := by
  have hr : block.role? = some .transferAnswer ↔ block.kind = "spi_transfer_return" :=
    role?_eq_some
  simp only [answerPin?, ← hr]
  rfl

theorem switchedPin?_eq (block : Block) :
    block.switchedPin? =
      match block.role? with
      | some .transfer | some .transferAnswer => Bus.selectPin? block
      | _ => none := by
  have ht : block.role? = some .transfer ↔ block.kind = "spi_transfer" := role?_eq_some
  have ha : block.role? = some .transferAnswer ↔ block.kind = "spi_transfer_return" :=
    role?_eq_some
  simp only [switchedPin?, ← ht, ← ha]
  cases block.role? with
  | none => rfl
  | some role => cases role <;> rfl

end Block

theorem Bus.selectPin?_eq_some {block : Block} {pin : String} :
    selectPin? block = some pin ↔ block.field? "SPI_SS" = some pin ∧ pin ≠ "none" := by
  rw [selectPin?, Block.choice?, Option.filter_eq_some_iff]
  exact and_congr_right fun _ => decide_eq_true_iff

end BlockSketch
