import BlockSketch.Proofs.Draft.Log
import BlockSketch.Proofs.Evaluation.Program

namespace BlockSketch

/-- Code is made from any blocks, by the generators of the built-in kinds. -/
inductive Operation
  | register (registration : Registration)
  | code (block : Block)
  | valueCode (block : Block) (input : String) (outer : Order)
  | stackCode (block : Block)
  | transfer (block : Block)
  | addVariables (program : List Block)
  | restart

namespace Operation

/-- The blocks that an operation evaluates, up to its fault if there is one. -/
def evaluations : Operation → List Block
  | code block => block.plan.evaluations
  | valueCode block input _ => (block.inputPlan input).evaluations
  | stackCode block => (Block.sequencePlan block.stack).evaluations
  | transfer block => (block.inputPlan Block.dataInput).evaluations
  | register _ | addVariables _ | restart => []

/-- What an operation registers by itself, after its evaluations. -/
def closing (board : Board) : Operation → List Registration
  | register registration => [registration]
  | transfer block =>
    if (block.inputPlan Block.dataInput).fault.isSome then []
    else Bus.prepareLog board block.location (Bus.selectPin? block)
  | addVariables program => (Block.variablesRead program).map .addVariable
  | code _ | valueCode _ _ _ | stackCode _ | restart => []

end Operation

namespace Draft

/-- A fault leaves the draft as it was by then. -/
def operate (draft : Draft) : Operation → Draft
  | .register registration => draft.register registration
  | .code block => Drafting.draftLeft (block.code Registry.standard draft)
  | .valueCode block input outer =>
    Drafting.draftLeft (block.valueCode Registry.standard input outer draft)
  | .stackCode block => Drafting.draftLeft (block.stackCode Registry.standard draft)
  | .transfer block =>
    Drafting.draftLeft
      (Bus.makeTransfer block (Block.plugs Registry.standard block.inputs) draft)
  | .addVariables program => draft.addVariables program
  | .restart => draft.restart

def operateAll (draft : Draft) (operations : List Operation) : Draft :=
  operations.foldl operate draft

theorem operate_eq {operation : Operation} (h : operation ≠ .restart) (draft : Draft) :
    draft.operate operation =
      (draft.performAll operation.evaluations).registerAll (operation.closing draft.board) := by
  cases operation with
  | restart => exact absurd rfl h
  | register registration => rfl
  | addVariables program => exact draft.addVariables_eq program
  | code block =>
    rw [operate, Block.code_eq, Plan.draftLeft_outcome]
    rfl
  | valueCode block input outer =>
    rw [operate, Block.valueCode_eq, Plan.draftLeft_outcome]
    rfl
  | stackCode block =>
    rw [operate, Block.stackCode, Block.sequenceCode_eq, Plan.draftLeft_outcome]
    rfl
  | transfer block =>
    rw [operate, Block.makeTransfer_eq, Operation.closing]
    cases (block.inputPlan Block.dataInput).fault with
    | some fault => rfl
    | none =>
      simp only [Plan.after, Bus.prepare_eq, performAll_board]
      rfl

theorem Reachable.operate {draft : Draft} (h : draft.Reachable) (operation : Operation) :
    (draft.operate operation).Reachable := by
  by_cases hr : operation = .restart
  · rw [hr]
    exact Reachable.start draft.board
  · rw [operate_eq hr]
    exact h.steps ((Steps.foldl Steps.perform draft _).trans (steps_registerAll _ _))

theorem Reachable.operateAll {draft : Draft} (h : draft.Reachable) (operations : List Operation) :
    (draft.operateAll operations).Reachable := by
  induction operations generalizing draft with
  | nil => exact h
  | cons operation rest ih => exact ih (h.operate operation)

end Draft

end BlockSketch
