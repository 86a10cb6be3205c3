import BlockSketch.Proofs.Evaluation.Role

namespace BlockSketch

/-- Evaluations in the order in which they act on a draft, and the fault that ends them, if any. -/
structure Plan where
  evaluations : List Block
  fault : Option Fault

namespace Plan

def empty : Plan := ⟨[], none⟩

def only (block : Block) : Plan := ⟨[block], none⟩

def failing (fault : Fault) : Plan := ⟨[], some fault⟩

/-- Nothing comes after a fault. -/
def andThen (first second : Plan) : Plan :=
  match first.fault with
  | some _ => first
  | none => ⟨first.evaluations ++ second.evaluations, second.fault⟩

def inOrder : List Plan → Plan
  | [] => empty
  | plan :: rest => plan.andThen (inOrder rest)

/-- An input is evaluated before it is known whether its block is a value. -/
def ofPlugged (owner : Block) (input : String) : Option (Block × Plan) → Plan
  | none => empty
  | some (child, plan) =>
    plan.andThen (if child.isValue then empty
      else failing (.notAValue child.location input owner.location))

@[simp] theorem andThen_empty (plan : Plan) : plan.andThen empty = plan := by
  obtain ⟨evaluations, fault⟩ := plan
  cases fault <;> simp [andThen, empty]

theorem andThen_fault_eq_none {a b : Plan} :
    (a.andThen b).fault = none ↔ a.fault = none ∧ b.fault = none := by
  obtain ⟨as, fa⟩ := a
  cases fa <;> simp [andThen]

theorem andThen_evaluations {a b : Plan} (h : a.fault = none) :
    (a.andThen b).evaluations = a.evaluations ++ b.evaluations := by
  simp [andThen, h]

theorem mem_andThen {a b : Plan} {block : Block} (h : block ∈ (a.andThen b).evaluations) :
    block ∈ a.evaluations ∨ block ∈ b.evaluations := by
  unfold andThen at h
  split at h
  · exact Or.inl h
  · exact List.mem_append.mp h

end Plan

namespace Block

/-- Data that is sent without switching a pin is asked for twice: for the transfer and for its
answer. -/
def planNode (block : Block) (plugged : String → Option (Block × Plan)) : Plan :=
  let input (name : String) : Plan := .ofPlugged block name (plugged name)
  match block.role? with
  | none => .failing (.noGenerator block.kind)
  | some .busSetup => .only block
  | some .number => .only block
  | some .variableRead =>
    if block.nameRead = "" then .failing (.unnamedVariable block.location) else .only block
  | some .arithmetic =>
    match Expression.operatorOf? block.operator with
    | none => .failing (.unknownOperator block.operator block.location)
    | some _ => (input "A").andThen ((input "B").andThen (.only block))
  | some .transfer => (input dataInput).andThen (.only block)
  | some .transferAnswer =>
    (input dataInput).andThen
      ((Plan.only block).andThen
        (if (Bus.selectPin? block).isNone then input dataInput else .empty))

def plan (block : Block) : Plan := block.fold planNode

def inputPlan (block : Block) (input : String) : Plan :=
  .ofPlugged block input ((block.input? input).map fun child => (child, child.plan))

theorem plan_eq (block : Block) :
    block.plan =
      match block.role? with
      | none => .failing (.noGenerator block.kind)
      | some .busSetup => .only block
      | some .number => .only block
      | some .variableRead =>
        if block.nameRead = "" then .failing (.unnamedVariable block.location) else .only block
      | some .arithmetic =>
        match Expression.operatorOf? block.operator with
        | none => .failing (.unknownOperator block.operator block.location)
        | some _ => (block.inputPlan "A").andThen ((block.inputPlan "B").andThen (.only block))
      | some .transfer => (block.inputPlan dataInput).andThen (.only block)
      | some .transferAnswer =>
        (block.inputPlan dataInput).andThen
          ((Plan.only block).andThen
            (if (Bus.selectPin? block).isNone then block.inputPlan dataInput else .empty)) := by
  rw [plan, fold_eq]
  rfl

theorem inputPlan_fault {block child : Block} (hi : block.input? input = some child)
    (h : (block.inputPlan input).fault = none) :
    child.plan.fault = none ∧ child.isValue = true := by
  rw [inputPlan, hi, Option.map_some, Plan.ofPlugged, Plan.andThen_fault_eq_none] at h
  refine ⟨h.1, ?_⟩
  cases hv : child.isValue with
  | true => rfl
  | false => simp [hv, Plan.failing] at h

theorem inputPlan_evaluations {block child : Block} (hi : block.input? input = some child)
    (h : (block.inputPlan input).fault = none) :
    (block.inputPlan input).evaluations = child.plan.evaluations := by
  obtain ⟨hf, hv⟩ := inputPlan_fault hi h
  simp [inputPlan, hi, Plan.ofPlugged, hv]

theorem mem_inputPlan {block inner : Block} (h : inner ∈ (block.inputPlan input).evaluations) :
    ∃ child, block.input? input = some child ∧ inner ∈ child.plan.evaluations := by
  unfold inputPlan at h
  cases hi : block.input? input with
  | none => simp [hi, Plan.ofPlugged, Plan.empty] at h
  | some child =>
    rw [hi, Option.map_some, Plan.ofPlugged] at h
    refine ⟨child, rfl, ?_⟩
    rcases Plan.mem_andThen h with h | h
    · exact h
    · split at h <;> simp [Plan.empty, Plan.failing] at h

/-- What is evaluated for a block is the block itself, unless it has a fault of its own, or is
evaluated for an input. -/
theorem evaluated_cases {block inner : Block} (h : inner ∈ block.plan.evaluations) :
    (inner = block ∧ (block.role? = some .variableRead → block.nameRead ≠ "")) ∨
      ∃ input child, block.input? input = some child ∧ inner ∈ child.plan.evaluations := by
  rw [plan_eq] at h
  have hi {input : String} (hm : inner ∈ (block.inputPlan input).evaluations) :
      ∃ input child, block.input? input = some child ∧ inner ∈ child.plan.evaluations :=
    ⟨input, mem_inputPlan hm⟩
  cases hr : block.role? with
  | none => simp [hr, Plan.failing] at h
  | some role =>
    cases role with
    | busSetup | number =>
      simp only [hr] at h
      exact Or.inl ⟨List.mem_singleton.mp h, by simp⟩
    | variableRead =>
      simp only [hr] at h
      split at h
      · simp [Plan.failing] at h
      · rename_i hn
        exact Or.inl ⟨List.mem_singleton.mp h, fun _ => hn⟩
    | arithmetic =>
      simp only [hr] at h
      split at h
      · simp [Plan.failing] at h
      · rcases Plan.mem_andThen h with h | h
        · exact Or.inr (hi h)
        · rcases Plan.mem_andThen h with h | h
          · exact Or.inr (hi h)
          · exact Or.inl ⟨List.mem_singleton.mp h, by simp⟩
    | transfer =>
      simp only [hr] at h
      rcases Plan.mem_andThen h with h | h
      · exact Or.inr (hi h)
      · exact Or.inl ⟨List.mem_singleton.mp h, by simp⟩
    | transferAnswer =>
      simp only [hr] at h
      rcases Plan.mem_andThen h with h | h
      · exact Or.inr (hi h)
      · rcases Plan.mem_andThen h with h | h
        · exact Or.inl ⟨List.mem_singleton.mp h, by simp⟩
        · split at h
          · exact Or.inr (hi h)
          · simp [Plan.empty] at h

theorem nameRead_of_evaluated {block inner : Block} (h : inner ∈ block.plan.evaluations)
    (hr : inner.role? = some .variableRead) : inner.nameRead ≠ "" := by
  induction block using induct_inputs with
  | node block ih =>
    rcases evaluated_cases h with ⟨rfl, hn⟩ | ⟨input, child, hi, hm⟩
    · exact hn hr
    · exact ih input child hi hm

end Block

end BlockSketch
