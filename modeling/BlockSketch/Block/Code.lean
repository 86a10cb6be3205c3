import BlockSketch.Generator

namespace BlockSketch.Block

mutual

def code (registry : Registry) : Block → Drafting Fragment
  | ⟨kind, id, fields, inputs, next⟩ =>
    match registry.find kind with
    | .error fault => throw fault
    | .ok generator => generator.run ⟨kind, id, fields, inputs, next⟩ (plugs registry inputs)

def plugs (registry : Registry) : List (String × Block) → Plugs
  | [], _ => none
  | (name, block) :: rest, input =>
    if name = input then some ⟨block.location, code registry block⟩ else plugs registry rest input

end

theorem plugs_eq (registry : Registry) (inputs : List (String × Block)) (input : String) :
    plugs registry inputs input =
      (Table.get? inputs input).map fun block => ⟨block.location, block.code registry⟩ := by
  induction inputs with
  | nil => rfl
  | cons entry rest ih =>
    obtain ⟨name, block⟩ := entry
    by_cases h : name = input <;> simp [plugs, Table.get?, h, ih]

def valueCode (registry : Registry) (block : Block) (input : String) (outer : Order) :
    Drafting String :=
  (plugs registry block.inputs).valueCode block.location input outer

/-- Code for blocks that run one after the other. -/
def sequenceCode (registry : Registry) : List Block → Drafting String
  | [] => pure ""
  | block :: rest => do
    let fragment ← block.code registry
    let following ← sequenceCode registry rest
    pure (fragment.asStatement ++ following)

def stackCode (registry : Registry) (block : Block) : Drafting String :=
  sequenceCode registry block.stack

/-- Code for stacks that run one after the other. -/
def stacksCode (registry : Registry) : List Block → Drafting String
  | [] => pure ""
  | block :: rest => do
    let first ← block.stackCode registry
    let following ← stacksCode registry rest
    pure (first ++ following)

end BlockSketch.Block
