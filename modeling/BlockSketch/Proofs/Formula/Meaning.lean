import BlockSketch.Proofs.Evaluation.Plan
import BlockSketch.Proofs.Formula.Grammar
import BlockSketch.Proofs.Names.Fresh

namespace BlockSketch

namespace Formula

namespace Operator

def picked? : String → Option Operator
  | "ADD" => some .add
  | "MINUS" => some .subtract
  | "MULTIPLY" => some .multiply
  | "DIVIDE" => some .divide
  | _ => none

def symbol : Operator → String
  | add => " + "
  | subtract => " - "
  | multiply => " * "
  | divide => " / "

def order : Operator → Order
  | add | subtract => .additive
  | multiply | divide => .multiplicative

theorem operatorOf?_eq (text : String) :
    Expression.operatorOf? text =
      (picked? text).map fun operator => (operator.symbol, operator.order) := by
  unfold Expression.operatorOf?
  split
  case h_5 => simp [picked?, *]
  all_goals rfl

/-- What is written for a picked operator is what it stands for. -/
theorem exists_of_picked {text : String} (h : text ∈ ["ADD", "MINUS", "MULTIPLY", "DIVIDE"]) :
    ∃ operator, picked? text = some operator ∧
      Expression.operatorOf? text = some (operator.symbol, operator.order) := by
  simp only [List.mem_cons, List.not_mem_nil, or_false] at h
  rcases h with rfl | rfl | rfl | rfl
  · exact ⟨.add, rfl, rfl⟩
  · exact ⟨.subtract, rfl, rfl⟩
  · exact ⟨.multiply, rfl, rfl⟩
  · exact ⟨.divide, rfl, rfl⟩

end Operator

/-- The order that code for the expression has. -/
def order : Formula → Order
  | number _ | read _ => .atomic
  | call _ | transfer _ => .postfixUnary
  | negate _ => .prefixUnary
  | binary operator _ _ => operator.order

def level : Formula → Level
  | number _ | read _ | call _ | transfer _ => .primary
  | negate _ => .unary
  | binary operator _ _ => operator.level

/-- A number's text is its digits, with a sign in front if it is negative. -/
def ofNumeral (text : String) : Formula :=
  match text.toList with
  | '-' :: digits => .negate (.number (String.ofList digits))
  | _ => .number text

/-- Decimal digits, with or without a minus sign in front. -/
def IsNumeral (text : String) : Prop :=
  ∃ digits, digits ≠ [] ∧ digits.all Char.isDigit = true ∧
    (text.toList = digits ∨ text.toList = '-' :: digits)

theorem order_ofNumeral (text : String) :
    (ofNumeral text).order =
      if text.toList.head? = some '-' then .prefixUnary else .atomic := by
  unfold ofNumeral
  split
  · rename_i digits ht
    simp [ht, order]
  · rename_i hn
    have hh : text.toList.head? ≠ some '-' := by
      intro hh
      obtain ⟨digits, ht⟩ := List.head?_eq_some_iff.mp hh
      exact hn digits ht
    simp only [hh, ↓reduceIte, order]

end Formula

namespace Block

def zero : Formula := .number "0"

def denotedNode (names : String → String) (block : Block)
    (plugged : String → Option (Block × Formula)) : Formula :=
  let input (name : String) : Formula := ((plugged name).map Prod.snd).getD zero
  match block.role? with
  | some .number => .ofNumeral block.numberText
  | some .variableRead => .read block.nameRead
  | some .arithmetic =>
    match Formula.Operator.picked? block.operator with
    | some operator => .binary operator (input "A") (input "B")
    | none => zero
  | some .transferAnswer =>
    match Bus.selectPin? block with
    | none => .transfer (input dataInput)
    | some pin => .call (names pin)
  | _ => zero

/-- The expression that a tree of value blocks is, where `names` gives the helper of each pin. -/
def denoted (names : String → String) (block : Block) : Formula := block.fold (denotedNode names)

def denotedAt (names : String → String) (block : Block) (input : String) : Formula :=
  atInput zero (denoted names) block input

theorem denoted_eq (names : String → String) (block : Block) :
    block.denoted names =
      match block.role? with
      | some .number => .ofNumeral block.numberText
      | some .variableRead => .read block.nameRead
      | some .arithmetic =>
        match Formula.Operator.picked? block.operator with
        | some operator => .binary operator (block.denotedAt names "A") (block.denotedAt names "B")
        | none => zero
      | some .transferAnswer =>
        match Bus.selectPin? block with
        | none => .transfer (block.denotedAt names dataInput)
        | some pin => .call (names pin)
      | _ => zero := by
  rw [denoted, fold_eq]
  simp only [denotedNode, map_snd_plugged]
  rfl

/-- Trees of value blocks with sensible picks. What is plugged into other inputs, or follows, does
not matter. -/
inductive IsExpression : Block → Prop
  | number {block : Block} : block.kind = "math_number" →
    (block.fieldOr "NUM" "" = "" ∨ Formula.IsNumeral (block.fieldOr "NUM" "")) → IsExpression block
  | read {block : Block} {name : String} : block.kind = "variables_get" →
    block.field? "VAR" = some name → Identifier.IsValid name → IsExpression block
  | arithmetic {block : Block} : block.kind = "math_arithmetic" →
    block.fieldOr "OP" "" ∈ ["", "ADD", "MINUS", "MULTIPLY", "DIVIDE"] →
    (∀ child, block.input? "A" = some child → IsExpression child) →
    (∀ child, block.input? "B" = some child → IsExpression child) → IsExpression block
  | answer {block : Block} : block.kind = "spi_transfer_return" →
    (∀ child, block.input? "SPI_DATA" = some child → IsExpression child) → IsExpression block

theorem IsExpression.isValue {block : Block} (h : IsExpression block) : block.isValue = true := by
  cases h with
  | number hk | read hk | arithmetic hk | answer hk =>
    simp only [Block.isValue, role?, hk]
    rfl

theorem IsExpression.operator {block : Block}
    (h : block.fieldOr "OP" "" ∈ ["", "ADD", "MINUS", "MULTIPLY", "DIVIDE"]) :
    block.operator ∈ ["ADD", "MINUS", "MULTIPLY", "DIVIDE"] := by
  unfold Block.operator
  split
  · simp
  · rename_i hn
    exact (List.mem_cons.mp h).resolve_left hn

theorem IsExpression.numeral {block : Block}
    (h : block.fieldOr "NUM" "" = "" ∨ Formula.IsNumeral (block.fieldOr "NUM" "")) :
    Formula.IsNumeral block.numberText := by
  unfold numberText
  split
  · exact ⟨['0'], by simp, rfl, Or.inl rfl⟩
  · rename_i hn
    exact h.resolve_left hn

theorem nameRead_of_field {block : Block} (h : block.field? "VAR" = some name) :
    block.nameRead = name := by
  simp [nameRead, fieldOr, h]

/-- Nothing is wrong with an expression of which nothing is wrong with the operands. -/
theorem IsExpression.fault {block : Block} (h : IsExpression block) : block.plan.fault = none := by
  have hi {block : Block} {input : String}
      (hc : ∀ child, block.input? input = some child → IsExpression child)
      (hf : ∀ child, block.input? input = some child → child.plan.fault = none) :
      (block.inputPlan input).fault = none := by
    cases hp : block.input? input with
    | none => simp [inputPlan, hp, Plan.ofPlugged, Plan.empty]
    | some child =>
      simp [inputPlan, hp, Plan.ofPlugged, (hc child hp).isValue, hf child hp]
  induction h with
  | @number block hk _ =>
    have hr : block.role? = some .number := role?_of_kind hk rfl
    rw [plan_eq, hr]
    rfl
  | @read block name hk hv hn =>
    have hr : block.role? = some .variableRead := role?_of_kind hk rfl
    rw [plan_eq, hr]
    simp [nameRead_of_field hv, hn.ne_empty, Plan.only]
  | @arithmetic block hk ho ha hb iha ihb =>
    have hr : block.role? = some .arithmetic := role?_of_kind hk rfl
    obtain ⟨operator, -, he⟩ := Formula.Operator.exists_of_picked (operator ho)
    rw [plan_eq, hr]
    simp only [he, Plan.andThen_fault_eq_none]
    exact ⟨hi ha iha, hi hb ihb, rfl⟩
  | @answer block hk hd ihd =>
    have hr : block.role? = some .transferAnswer := role?_of_kind hk rfl
    rw [plan_eq, hr]
    simp only [Plan.andThen_fault_eq_none]
    refine ⟨hi hd ihd, rfl, ?_⟩
    split
    · exact hi hd ihd
    · rfl

end Block

end BlockSketch
