import BlockSketch.Fragment

namespace BlockSketch.Expression

def number (block : Block) : Fragment :=
  let picked := block.fieldOr "NUM" ""
  let code := if picked = "" then "0" else picked
  .value code (if code.toList.head? = some '-' then .prefixUnary else .atomic)

/-- The name is taken here too, for blocks that are not part of a whole program. -/
def readVariable (block : Block) : Drafting Fragment :=
  match block.nameRead with
  | "" => throw (.unnamedVariable block.location)
  | name => do
    modify (·.addVariable name)
    pure (.value name .atomic)

def operatorOf? : String → Option (String × Order)
  | "ADD" => some (" + ", .additive)
  | "MINUS" => some (" - ", .additive)
  | "MULTIPLY" => some (" * ", .multiplicative)
  | "DIVIDE" => some (" / ", .multiplicative)
  | _ => none

/-- The operator is looked at before the operands. -/
def arithmetic (block : Block) (plugs : Plugs) : Drafting Fragment :=
  let picked := block.fieldOr "OP" ""
  let operator := if picked = "" then "ADD" else picked
  match operatorOf? operator with
  | none => throw (.unknownOperator operator block.location)
  | some (symbol, order) => do
    let left ← plugs.operand block.location "A" order
    let right ← plugs.operand block.location "B" order
    pure (.value (left ++ symbol ++ right) order)

end BlockSketch.Expression
