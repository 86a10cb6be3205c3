import BlockSketch.Block.Basic
import BlockSketch.Text.Lines
import BlockSketch.Text.Quoted

namespace BlockSketch.CommandLine

/-- The text is printed while the module is imported. -/
structure ProgramModule where
  name : String
  programs : Table Block
  printed : String

abbrev Library := List ProgramModule

inductive ImportFailure
  | noName
  | emptyName
  | relativeName (name : String)
  | missing (name : String)
  | notAPackage (name parent : String)
  deriving DecidableEq

def ImportFailure.message : ImportFailure → String
  | noName => "'list' object has no attribute 'startswith'"
  | emptyName => "Empty module name"
  | relativeName name =>
    "the 'package' argument is required to perform a relative import for " ++ Text.quoted name
  | missing name => "No module named " ++ Text.quoted name
  | notAPackage name parent =>
    "No module named " ++ Text.quoted name ++ "; " ++ Text.quoted parent ++ " is not a package"

namespace Library

def module? (library : Library) (name : String) : Option ProgramModule :=
  library.find? (·.name == name)

def isPackage (library : Library) (name : String) : Bool :=
  library.any fun m => (name ++ ".").toList.isPrefixOf m.name.toList

/-- Looks for the parts of a name one after the other, so the first one missing is reported. A module
prints its text when it is met, even if it should have been a package. A package holds modules, and
no programs of its own. -/
def descend (library : Library) (parent : String) :
    List String → String × Except ImportFailure (Table Block)
  | [] => ("", .ok [])
  | part :: rest =>
    let name := if parent = "" then part else parent ++ "." ++ part
    if library.isPackage name then descend library name rest
    else
      match library.module? name with
      | none => ("", .error (.missing name))
      | some found =>
        (found.printed,
          match rest with
          | [] => .ok found.programs
          | part :: _ => .error (.notAPackage (name ++ "." ++ part) name))

/-- What is printed on the way, and what is found. -/
def find (library : Library) (name : String) : String × Except ImportFailure (Table Block) :=
  if name = "" then ("", .error .emptyName)
  else if name.toList.head? = some '.' then ("", .error (.relativeName name))
  else descend library "" (Text.split '.' name)

end Library

/-- A shift register on pin 10, and a sensor on pin 8 that is read back. -/
def shiftRegister : ProgramModule :=
  let counter : Block := ⟨"variables_get", "", [("VAR", "counter")], [], none⟩
  let command : Block := ⟨"math_number", "", [("NUM", "128")], [], none⟩
  let send : Block := ⟨"spi_transfer", "", [("SPI_SS", "10")], [("SPI_DATA", counter)], none⟩
  let ask : Block :=
    ⟨"spi_transfer_return", "", [("SPI_SS", "8")], [("SPI_DATA", command)], none⟩
  let configure : Block :=
    ⟨"spi_setup", "", [("SPI_SHIFT_ORDER", "MSBFIRST"), ("SPI_MODE", "SPI_MODE0"),
      ("SPI_CLOCK_DIVIDE", "SPI_CLOCK_DIV16")], [], none⟩
  { name := "examples.spi_shift_register"
    programs :=
      [("counter", counter), ("command", command),
        ("program", configure.withNext (some (send.withNext (some ask))))]
    printed := "" }

end BlockSketch.CommandLine
