import BlockSketch.Text.Lines

namespace BlockSketch

structure Call where
  callee : String
  arguments : List String
  deriving DecidableEq

/-- What an assignment stores: code as it stands, or the result of a call. -/
inductive Source
  | code (text : String)
  | call (call : Call)
  deriving DecidableEq

inductive Statement
  | call (call : Call)
  | assign (target : String) (source : Source)
  | declare (type name value : String)
  | giveBack (value : String)
  deriving DecidableEq

def Call.render (call : Call) : String :=
  call.callee ++ "(" ++ ", ".intercalate call.arguments ++ ")"

def Source.render : Source → String
  | code text => text
  | call c => c.render

namespace Statement

def render : Statement → String
  | call c => c.render ++ ";"
  | assign target source => target ++ " = " ++ source.render ++ ";"
  | declare type name value => type ++ " " ++ name ++ " = " ++ value ++ ";"
  | giveBack value => "return " ++ value ++ ";"

/-- A call stored by an assignment is not a call statement. -/
def isCallTo (callee : String) : Statement → Bool
  | call c => c.callee == callee
  | _ => false

/-- Keeps the result of a call; other statements have none. -/
def capture (target : String) : Statement → Statement
  | call c => assign target (.call c)
  | other => other

end Statement

/-- Statements in the order in which they run. -/
abbrev Sequence := List Statement

namespace Sequence

def lines (indent : Int) (statements : Sequence) : List String :=
  Text.indent indent (statements.map Statement.render)

def render (indent : Int) (statements : Sequence) : String :=
  Text.endLines (lines indent statements)

def count (wanted : Statement → Bool) (statements : Sequence) : Nat :=
  statements.countP wanted

/-- The exchanged statements stay in their places and are counted, changed or not. -/
def exchange (wanted : Statement → Bool) (change : Statement → Statement) :
    Sequence → Sequence × Nat
  | [] => ([], 0)
  | s :: rest =>
    let (exchanged, n) := exchange wanted change rest
    if wanted s then (change s :: exchanged, n + 1) else (s :: exchanged, n)

end Sequence

end BlockSketch
