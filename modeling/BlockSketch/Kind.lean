namespace BlockSketch

inductive Kind
  | nothing | flag | whole | number | text | list | block
  deriving DecidableEq

/-- What messages call a value of this kind. -/
def Kind.name : Kind → String
  | nothing => "NoneType"
  | flag => "bool"
  | whole => "int"
  | number => "float"
  | text => "str"
  | list => "list"
  | block => "Block"

/-- What arrived where an `α` was wanted. -/
inductive Arrived (α : Type)
  | wanted (value : α)
  | other (kind : Kind)
  deriving DecidableEq

end BlockSketch
