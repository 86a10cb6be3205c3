import BlockSketch.Proofs.Evaluation.Program
import BlockSketch.Proofs.Findings.Doubts

namespace BlockSketch

namespace Block

mutual

/-- The block without its id, further down and further on too. -/
def anonymous : Block → Block
  | ⟨kind, _, fields, inputs, next⟩ =>
    ⟨kind, "", fields, anonymousPlugged inputs, anonymousFollowing next⟩

def anonymousPlugged : List (String × Block) → List (String × Block)
  | [] => []
  | (name, block) :: rest => (name, anonymous block) :: anonymousPlugged rest

def anonymousFollowing : Option Block → Option Block
  | none => none
  | some block => some (anonymous block)

end

theorem anonymousPlugged_eq (inputs : List (String × Block)) :
    anonymousPlugged inputs = inputs.map fun entry => (entry.1, entry.2.anonymous) := by
  induction inputs with
  | nil => rfl
  | cons entry rest ih => rw [anonymousPlugged, ih, List.map_cons]

theorem anonymousFollowing_eq (next : Option Block) :
    anonymousFollowing next = next.map anonymous := by
  cases next with
  | none => rfl
  | some block => rfl

theorem anonymous_eq (block : Block) :
    block.anonymous =
      { block with
        id := ""
        inputs := block.inputs.map fun entry => (entry.1, entry.2.anonymous)
        next := block.next.map anonymous } := by
  obtain ⟨kind, id, fields, inputs, next⟩ := block
  rw [anonymous, anonymousPlugged_eq, anonymousFollowing_eq]

section OwnParts

variable (block : Block)

@[simp] theorem role?_anonymous : block.anonymous.role? = block.role? := by
  rw [anonymous_eq]
  rfl

@[simp] theorem selectPin?_anonymous : Bus.selectPin? block.anonymous = Bus.selectPin? block := by
  rw [anonymous_eq]
  rfl

@[simp] theorem operator_anonymous : block.anonymous.operator = block.operator := by
  rw [anonymous_eq]
  rfl

@[simp] theorem nameRead_anonymous : block.anonymous.nameRead = block.nameRead := by
  rw [anonymous_eq]
  rfl

@[simp] theorem readName?_anonymous : block.anonymous.readName? = block.readName? := by
  rw [anonymous_eq]
  rfl

@[simp] theorem number_anonymous :
    Expression.number block.anonymous = Expression.number block := by
  rw [anonymous_eq]
  rfl

end OwnParts

theorem input?_anonymous (block : Block) (input : String) :
    block.anonymous.input? input = (block.input? input).map anonymous := by
  rw [anonymous_eq]
  exact Table.get?_map anonymous block.inputs input

theorem children_anonymous (block : Block) :
    block.anonymous.children = block.children.map anonymous := by
  rw [anonymous_eq, children, children, List.map_append, List.map_map, List.map_map]
  cases block.next <;> rfl

theorem stack_anonymous (block : Block) : block.anonymous.stack = block.stack.map anonymous := by
  induction block using stack.induct with
  | case1 kind id fields inputs => simp [anonymous, stack, anonymousFollowing]
  | case2 kind id fields inputs next ih => simp [anonymous, stack, anonymousFollowing, ih]

theorem statements_anonymous (blocks : List Block) :
    statements (blocks.map anonymous) = (statements blocks).map anonymous := by
  rw [statements, statements, List.flatMap_map, List.map_flatMap]
  congr 1
  funext block
  exact block.stack_anonymous

theorem everyBlock_anonymous (blocks : List Block) :
    everyBlock (blocks.map anonymous) = (everyBlock blocks).map anonymous := by
  induction blocks using everyBlock.induct with
  | case1 => simp [everyBlock]
  | case2 block waiting ih =>
    rw [List.map_cons, everyBlock, everyBlock, children_anonymous, ← List.map_append, ih,
      List.map_cons]

theorem variablesRead_anonymous (blocks : List Block) :
    variablesRead (blocks.map anonymous) = variablesRead blocks := by
  rw [variablesRead, everyBlock_anonymous, List.filterMap_map, variablesRead]
  congr 1
  funext block
  exact block.readName?_anonymous

end Block

namespace Plan

/-- The plan is that of blocks without ids, up to the names that its fault has for them. -/
structure Hides (plan anonymous : Plan) : Prop where
  evaluations : anonymous.evaluations = plan.evaluations.map Block.anonymous
  fault : anonymous.fault.map Fault.category = plan.fault.map Fault.category

namespace Hides

theorem empty : Plan.empty.Hides Plan.empty := ⟨rfl, rfl⟩

theorem only (block : Block) : (Plan.only block).Hides (Plan.only block.anonymous) := ⟨rfl, rfl⟩

theorem failing {fault other : Fault} (h : other.category = fault.category) :
    (Plan.failing fault).Hides (Plan.failing other) :=
  ⟨rfl, congrArg some h⟩

theorem fault_eq_none {plan anonymous : Plan} (h : plan.Hides anonymous) :
    anonymous.fault = none ↔ plan.fault = none := by
  rw [← Option.map_eq_none_iff (f := Fault.category), h.fault, Option.map_eq_none_iff]

theorem andThen {first second hidden more : Plan} (hf : first.Hides hidden)
    (hs : second.Hides more) : (first.andThen second).Hides (hidden.andThen more) := by
  unfold Plan.andThen
  cases hfault : first.fault with
  | none =>
    rw [hf.fault_eq_none.mpr hfault]
    refine ⟨?_, hs.fault⟩
    rw [hf.evaluations, hs.evaluations, List.map_append]
  | some fault =>
    obtain ⟨other, ho⟩ : ∃ other, hidden.fault = some other := by
      rw [← Option.ne_none_iff_exists', ne_eq, hf.fault_eq_none, hfault]
      simp
    rw [ho]
    exact hf

end Hides

end Plan

namespace Block

theorem inputPlan_anonymous {block : Block} {input : String}
    (h : ∀ child, block.input? input = some child → child.plan.Hides child.anonymous.plan) :
    (block.inputPlan input).Hides (block.anonymous.inputPlan input) := by
  unfold inputPlan
  rw [input?_anonymous]
  cases hi : block.input? input with
  | none => exact .empty
  | some child =>
    have hvalue : child.anonymous.isValue = child.isValue := by
      rw [isValue, role?_anonymous, isValue]
    simp only [Option.map_some, Plan.ofPlugged, hvalue]
    apply (h child hi).andThen
    split
    · exact .empty
    · exact .failing rfl

theorem plan_anonymous (block : Block) : block.plan.Hides block.anonymous.plan := by
  induction block using induct_inputs with
  | node block ih =>
    have hi (input : String) := inputPlan_anonymous (ih input)
    rw [plan_eq, plan_eq block.anonymous, role?_anonymous, operator_anonymous, nameRead_anonymous,
      selectPin?_anonymous]
    cases block.role? with
    | none => exact .failing rfl
    | some role =>
      cases role with
      | busSetup | number => exact .only block
      | variableRead =>
        dsimp only
        split
        · exact .failing rfl
        · exact .only block
      | arithmetic =>
        dsimp only
        cases Expression.operatorOf? block.operator with
        | none => exact .failing rfl
        | some operator => exact (hi "A").andThen ((hi "B").andThen (.only block))
      | transfer => exact (hi dataInput).andThen (.only block)
      | transferAnswer =>
        apply (hi dataInput).andThen
        apply (Plan.Hides.only block).andThen
        split
        · exact hi dataInput
        · exact .empty

theorem programPlan_anonymous (blocks : List Block) :
    (programPlan blocks).Hides (programPlan (blocks.map anonymous)) := by
  rw [programPlan, programPlan, statements_anonymous]
  induction statements blocks with
  | nil => exact .empty
  | cons block rest ih => exact block.plan_anonymous.andThen ih

theorem written_anonymous (names : String → String) (block : Block) :
    block.anonymous.written names = block.written names := by
  induction block using induct_inputs with
  | node block ih =>
    have hoperand (input : String) (outer : Order) :
        block.anonymous.operandCode names input outer = block.operandCode names input outer := by
      rw [operandCode, operandCode, inputCode, inputCode, input?_anonymous, Option.map_map]
      congr 2
      cases hi : block.input? input with
      | none => rfl
      | some child => exact congrArg some (ih input child hi)
    rw [written_eq, written_eq]
    simp only [role?_anonymous, selectPin?_anonymous, operator_anonymous, nameRead_anonymous,
      number_anonymous, hoperand, dataCode]

theorem dataCode_anonymous (names : String → String) (block : Block) :
    block.anonymous.dataCode names = block.dataCode names := by
  rw [dataCode, operandCode, inputCode, input?_anonymous, Option.map_map, dataCode, operandCode,
    inputCode]
  congr 3
  funext child
  exact child.written_anonymous names

theorem loopText_anonymous (names : String → String) (blocks : List Block) :
    loopText names (blocks.map anonymous) = loopText names blocks := by
  rw [loopText, statements_anonymous, loopText]
  induction statements blocks with
  | nil => rfl
  | cons block rest ih => rw [List.map_cons, sequenceText, sequenceText, written_anonymous, ih]

end Block

end BlockSketch
