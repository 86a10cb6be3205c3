import BlockSketch.Text.Quoted

namespace BlockSketch

inductive Fault
  | noGenerator (kind : String)
  /-- A block that is no value is plugged into an input. -/
  | notAValue (plugged input owner : String)
  | unnamedVariable (location : String)
  | unknownOperator (operator location : String)
  /-- A transfer whose result is wanted makes its call not exactly once. -/
  | transferCount (location : String) (found : Nat)
  deriving DecidableEq

namespace Fault

/-- Bad values can be picked in an editor, misplaced blocks can be dragged there, unsupported
blocks need a generator, and a broken promise is the fault of a generator. -/
inductive Category
  | badValue | misplaced | unsupported | brokenPromise
  deriving DecidableEq

def category : Fault → Category
  | noGenerator _ => .unsupported
  | notAValue _ _ _ => .misplaced
  | unnamedVariable _ => .badValue
  | unknownOperator _ _ => .badValue
  | transferCount _ _ => .brokenPromise

def message : Fault → String
  | noGenerator kind => "No generator for block type: " ++ Text.quoted kind
  | notAValue plugged input owner =>
    "Block " ++ Text.quoted plugged ++ " in input " ++ Text.quoted input ++ " of " ++
      Text.quoted owner ++ " is not a value block (generator returned str)"
  | unnamedVariable location => "Block " ++ Text.quoted location ++ " has no variable name"
  | unknownOperator operator location =>
    "Unsupported arithmetic operator " ++ Text.quoted operator ++ " in " ++ Text.quoted location
  | transferCount location found =>
    "Expected exactly one SPI.transfer call in " ++ Text.quoted location ++ ", found " ++
      toString found

end Fault

end BlockSketch
