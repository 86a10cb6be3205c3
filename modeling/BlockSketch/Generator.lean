import BlockSketch.Bus
import BlockSketch.Expression

namespace BlockSketch

inductive Generator
  | busSetup | number | variableRead | arithmetic
  | transfer (supply : Bus.Supply)
  | transferAnswer (supply : Bus.Supply)
  /-- Makes the same code from every block. The label tells apart two that make the same code. -/
  | constant (label : String) (fragment : Fragment)
  deriving DecidableEq

namespace Generator

def run : Generator → Block → Plugs → Drafting Fragment
  | busSetup, block, _ => do
    modify (Bus.configure block)
    pure (.statement "")
  | number, block, _ => pure (Expression.number block)
  | variableRead, block, _ => Expression.readVariable block
  | arithmetic, block, plugs => Expression.arithmetic block plugs
  | transfer supply, block, plugs => Bus.transferCode supply block plugs
  | transferAnswer supply, block, plugs => Bus.answerCode supply block plugs
  | constant _ fragment, _, _ => pure fragment

def supplied (supply : Bus.Supply) : Generator → Generator
  | transfer _ => transfer supply
  | transferAnswer _ => transferAnswer supply
  | other => other

end Generator

abbrev Registry := Table Generator

namespace Registry

def standard : Registry :=
  [("spi_setup", .busSetup), ("spi_transfer", .transfer .made),
    ("spi_transfer_return", .transferAnswer .made), ("math_number", .number),
    (Block.readKind, .variableRead), ("math_arithmetic", .arithmetic)]

def find (registry : Registry) (kind : String) : Except Fault Generator :=
  match registry.get? kind with
  | some generator => .ok generator
  | none => .error (.noGenerator kind)

/-- A kind keeps its generator, and may be given it again. -/
def register? (registry : Registry) (kind : String) (generator : Generator) : Option Registry :=
  match registry.get? kind with
  | none => some (registry.put kind generator)
  | some present => if present = generator then some registry else none

/-- All transfers take their statements from the same place. -/
def supplied (supply : Bus.Supply) (registry : Registry) : Registry :=
  registry.map fun (kind, generator) => (kind, generator.supplied supply)

def takenMessage (kind : String) : String :=
  "Generator for block type " ++ Text.quoted kind ++ " is already registered"

end Registry

end BlockSketch
