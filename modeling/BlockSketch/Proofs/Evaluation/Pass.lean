import BlockSketch.Block.Code
import BlockSketch.Proofs.Evaluation.Outcome

namespace BlockSketch

namespace Block

theorem code_unfold (registry : Registry) (block : Block) :
    block.code registry =
      match registry.find block.kind with
      | .error fault => throw fault
      | .ok generator => generator.run block (plugs registry block.inputs) := by
  obtain ⟨kind, id, fields, inputs, next⟩ := block
  unfold code
  rfl

/-- A block without fault gives a value just if its role is that of a value. -/
theorem written_value {block : Block} (h : block.plan.fault = none) (hv : block.isValue = true)
    (names : String → String) : ∃ code order, block.written names = .value code order := by
  rw [plan_eq] at h
  rw [written_eq]
  cases hr : block.role? with
  | none => simp [isValue, hr] at hv
  | some role =>
    cases role with
    | busSetup | transfer => simp [isValue, hr, Role.isValue] at hv
    | number => exact ⟨_, _, rfl⟩
    | variableRead => exact ⟨_, _, rfl⟩
    | arithmetic =>
      cases ho : Expression.operatorOf? block.operator with
      | none => simp [hr, ho, Plan.failing] at h
      | some operator => exact ⟨_, _, rfl⟩
    | transferAnswer =>
      cases hs : Bus.selectPin? block with
      | none => exact ⟨_, _, rfl⟩
      | some pin => exact ⟨_, _, rfl⟩

theorem written_statement {block : Block} (hv : block.isValue = false) (names : String → String) :
    ∃ code, block.written names = .statement code := by
  rw [written_eq]
  cases hr : block.role? with
  | none => exact ⟨_, rfl⟩
  | some role =>
    cases role with
    | busSetup => exact ⟨_, rfl⟩
    | transfer => exact ⟨_, rfl⟩
    | number | variableRead | arithmetic | transferAnswer => simp [isValue, hr, Role.isValue] at hv

/-- That running the block's generator does what plan and written form say. -/
def Follows (block : Block) : Prop :=
  ∀ draft, block.code Registry.standard draft =
    block.plan.outcome (fun after => block.written after.helperName) draft

theorem valueCode_outcome {block : Block} {input : String}
    (ih : ∀ child, block.input? input = some child → child.Follows) (outer : Order)
    (draft : Draft) :
    block.valueCode Registry.standard input outer draft =
      (block.inputPlan input).outcome
        (fun after => block.inputCode after.helperName input outer) draft := by
  have hp : plugs Registry.standard block.inputs input =
      (block.input? input).map fun child => ⟨child.location, child.code Registry.standard⟩ :=
    plugs_eq _ _ _
  unfold valueCode Plugs.valueCode inputPlan inputCode
  rw [hp]
  cases hi : block.input? input with
  | none => rfl
  | some child =>
    apply Plan.bind_outcome (ih child hi draft)
    intro hf
    cases hv : child.isValue with
    | true =>
      obtain ⟨code, order, he⟩ := written_value hf hv (child.plan.after draft).helperName
      simp only [he, Option.map_some, fittedCode, ↓reduceIte, Plan.outcome_empty]
      rfl
    | false =>
      obtain ⟨code, he⟩ := written_statement hv (child.plan.after draft).helperName
      simp only [he]
      rfl

theorem operand_outcome {block : Block} {input : String}
    (ih : ∀ child, block.input? input = some child → child.Follows) (outer : Order)
    (draft : Draft) :
    (plugs Registry.standard block.inputs).operand block.location input outer draft =
      (block.inputPlan input).outcome
        (fun after => block.operandCode after.helperName input outer) draft := by
  rw [← Plan.andThen_empty (block.inputPlan input)]
  exact Plan.bind_outcome (valueCode_outcome ih outer draft) fun _ => rfl

/-- What an input calls still has the same names after further evaluations. -/
theorem operandCode_later {block : Block} {input : String}
    (h : (block.inputPlan input).fault = none) {draft after : Draft}
    (hp : ((block.inputPlan input).after draft).helpers <+: after.helpers) (outer : Order) :
    block.operandCode ((block.inputPlan input).after draft).helperName input outer =
      block.operandCode after.helperName input outer := by
  refine operandCode_congr (fun child _ hw => written_congr child hw) ?_ outer
  intro pin hc
  exact (Draft.helperName_stable hp (input_serves h draft pin hc)).symm

theorem exchange_transfer (pin data : String) :
    Sequence.exchange (Statement.isCallTo Bus.transferCallee) (Statement.capture Bus.answerName)
      (Bus.transferSequence (some pin) data) = (Bus.answerSequence pin data, 1) := by
  have hs (level : String) :
      Statement.isCallTo Bus.transferCallee (Bus.switchPin pin level) = false := rfl
  have ht : Statement.isCallTo Bus.transferCallee (.call (Bus.transferCall data)) = true := rfl
  simp [Bus.transferSequence, Sequence.exchange, hs, ht, Statement.capture, Bus.answerSequence]

theorem transfer_outcome {block : Block} (ih : ∀ input child,
    block.input? input = some child → child.Follows) (draft : Draft) :
    Bus.transfer .made block (plugs Registry.standard block.inputs) draft =
      match (block.inputPlan dataInput).fault with
      | some fault => .error fault ((block.inputPlan dataInput).after draft)
      | none =>
        let mid := (block.inputPlan dataInput).after draft
        .ok (Bus.transferSequence (Bus.selectPin? block) (block.dataCode mid.helperName))
          (Bus.prepare block.location (Bus.selectPin? block) mid) := by
  have ho := operand_outcome (ih dataInput) .atomic draft
  cases hf : (block.inputPlan dataInput).fault with
  | none =>
    simp only [Plan.outcome, hf] at ho
    exact Drafting.bind_ok ho
  | some fault =>
    simp only [Plan.outcome, hf] at ho
    exact Drafting.bind_error ho

theorem run_arithmetic {block : Block} (ih : ∀ input child,
    block.input? input = some child → child.Follows) (hr : block.role? = some .arithmetic) :
    Expression.arithmetic block (plugs Registry.standard block.inputs) draft =
      block.plan.outcome (fun after => block.written after.helperName) draft := by
  rw [plan_eq]
  simp only [hr]
  cases ho : Expression.operatorOf? block.operator with
  | none =>
    rw [operator] at ho
    simp only [Expression.arithmetic, ho]
    rfl
  | some operator =>
    obtain ⟨symbol, order⟩ := operator
    have he : Expression.arithmetic block (plugs Registry.standard block.inputs) = (do
        let left ← (plugs Registry.standard block.inputs).operand block.location "A" order
        let right ← (plugs Registry.standard block.inputs).operand block.location "B" order
        pure (.value (left ++ symbol ++ right) order)) := by
      have hp := ho
      rw [operator] at hp
      simp only [Expression.arithmetic, hp]
    rw [he]
    apply Plan.bind_outcome (operand_outcome (ih "A") order draft)
    intro ha
    apply Plan.bind_outcome (operand_outcome (ih "B") order _)
    intro hb
    -- The right operand's evaluations come after the left operand's code was made.
    have hl := operandCode_later ha
      (Draft.performAll_extends ((block.inputPlan "A").after draft)
        (block.inputPlan "B").evaluations) order
    have hs : ∀ after : Draft, after.perform block = after := by
      intro after
      simp only [Draft.perform, hr]
    rw [Plan.outcome_only, hs, written_eq, hl]
    simp only [hr, ho]
    rfl

theorem run_transfer {block : Block} (ih : ∀ input child,
    block.input? input = some child → child.Follows) (hr : block.role? = some .transfer)
    (draft : Draft) :
    Bus.transferCode .made block (plugs Registry.standard block.inputs) draft =
      block.plan.outcome (fun after => block.written after.helperName) draft := by
  rw [plan_eq]
  simp only [hr]
  have ht := transfer_outcome ih draft
  cases hf : (block.inputPlan dataInput).fault with
  | some fault =>
    simp only [hf] at ht
    have he : (block.inputPlan dataInput).andThen (.only block) = block.inputPlan dataInput := by
      simp only [Plan.andThen, hf]
    rw [he, Plan.outcome, hf]
    exact Drafting.bind_error ht
  | none =>
    simp only [hf] at ht
    rw [Plan.outcome_andThen hf, Plan.outcome_only]
    have hs (after : Draft) : after.perform block =
        Bus.prepare block.location (Bus.selectPin? block) after := by
      simp only [Draft.perform, hr]
    have hn (after : Draft) : (Bus.prepare block.location (Bus.selectPin? block) after).helperName =
        after.helperName := by
      funext pin
      simp only [Draft.helperName, Draft.prepare_helpers]
    apply (Drafting.bind_ok ht).trans
    rw [hs, hn, written_eq]
    simp only [hr]
    rfl

theorem run_answer {block : Block} (ih : ∀ input child,
    block.input? input = some child → child.Follows) (hr : block.role? = some .transferAnswer)
    (draft : Draft) :
    Bus.answerCode .made block (plugs Registry.standard block.inputs) draft =
      block.plan.outcome (fun after => block.written after.helperName) draft := by
  rw [plan_eq]
  simp only [hr]
  have ht := transfer_outcome ih draft
  cases hf : (block.inputPlan dataInput).fault with
  | some fault =>
    simp only [hf] at ht
    simp only [Plan.andThen, hf, Plan.outcome]
    exact Drafting.bind_error ht
  | none =>
    simp only [hf] at ht
    rw [Plan.outcome_andThen hf]
    apply (Drafting.bind_ok ht).trans
    generalize hm : (block.inputPlan dataInput).after draft = mid
    cases hp : Bus.selectPin? block with
    | none =>
      have hs : (Plan.only block).after mid = Bus.prepare block.location none mid := by
        simp only [Plan.after, Plan.only, Draft.performAll_cons, Draft.performAll_nil,
          Draft.perform, hr, hp]
      rw [Plan.outcome_andThen rfl, hs]
      have ho := operand_outcome (ih dataInput) .atomic (Bus.prepare block.location none mid)
      simp only [Bus.answerOf, hp, Option.isNone_none, ↓reduceIte]
      rw [← Plan.andThen_empty (block.inputPlan dataInput)]
      apply Plan.bind_outcome ho
      intro _
      rw [Plan.outcome_empty, written_eq]
      simp only [hr, hp]
      rfl
    | some pin =>
      have hs : mid.perform block = ((Bus.prepare block.location (some pin) mid).addHelper
          (Bus.helperWish pin) (Bus.helperCode pin (block.dataCode mid.helperName))).2 := by
        simp only [Draft.perform, hr, hp]
      simp only [Option.isNone_some, Bool.false_eq_true, ↓reduceIte, Plan.andThen_empty,
        Plan.outcome_only]
      rw [hs, written_eq]
      simp only [hr, hp, Bus.answerOf, Bus.answerFromHelper, exchange_transfer, ↓reduceIte]
      obtain ⟨helper, hg, he⟩ := Draft.addHelper_name
        (Bus.prepare block.location (some pin) mid) (Bus.helperWish pin)
        (Bus.helperCode pin (block.dataCode mid.helperName))
      simp only [Draft.helperName, hg, Option.map_some, Option.getD_some, ← he]
      rfl

/-- Running the generators on a draft carries out the block's plan, and the code is the written
form with the names that the draft has afterwards. -/
theorem code_eq (block : Block) (draft : Draft) :
    block.code Registry.standard draft =
      block.plan.outcome (fun after => block.written after.helperName) draft := by
  induction block using induct_inputs generalizing draft with
  | node block ih =>
    rw [code_unfold, find_standard]
    cases hr : block.role? with
    | none =>
      rw [plan_eq]
      simp only [hr]
      rfl
    | some role =>
      cases role with
      | arithmetic => exact run_arithmetic ih hr
      | transfer => exact run_transfer ih hr draft
      | transferAnswer => exact run_answer ih hr draft
      | busSetup =>
        rw [plan_eq]
        simp only [hr, Plan.outcome_only, written_eq]
        simp only [Draft.perform, hr]
        rfl
      | number =>
        rw [plan_eq]
        simp only [hr, Plan.outcome_only, written_eq]
        simp only [Draft.perform, hr]
        rfl
      | variableRead =>
        rw [plan_eq]
        simp only [hr, Role.generator, Generator.run, Expression.readVariable]
        by_cases hn : block.nameRead = ""
        · simp only [hn, ↓reduceIte]
          rfl
        · simp only [hn, ↓reduceIte, Plan.outcome_only, written_eq, Draft.perform, hr]
          rfl

theorem code_eq_ok {block : Block} {draft left : Draft} {fragment : Fragment} :
    block.code Registry.standard draft = .ok fragment left ↔
      block.plan.fault = none ∧ fragment = block.written (block.plan.after draft).helperName ∧
        left = block.plan.after draft := by
  rw [code_eq, Plan.outcome_eq_ok]

theorem valueCode_eq (block : Block) (input : String) (outer : Order) (draft : Draft) :
    block.valueCode Registry.standard input outer draft =
      (block.inputPlan input).outcome
        (fun after => block.inputCode after.helperName input outer) draft :=
  valueCode_outcome (fun child _ => child.code_eq) outer draft

theorem transferData_eq (block : Block) (draft : Draft) :
    Bus.transferData block (plugs Registry.standard block.inputs) draft =
      (block.inputPlan dataInput).outcome (fun after => block.dataCode after.helperName) draft :=
  operand_outcome (fun child _ => child.code_eq) .atomic draft

theorem makeTransfer_eq (block : Block) (draft : Draft) :
    Bus.makeTransfer block (plugs Registry.standard block.inputs) draft =
      match (block.inputPlan dataInput).fault with
      | some fault => .error fault ((block.inputPlan dataInput).after draft)
      | none =>
        let mid := (block.inputPlan dataInput).after draft
        .ok (Bus.transferSequence (Bus.selectPin? block) (block.dataCode mid.helperName))
          (Bus.prepare block.location (Bus.selectPin? block) mid) :=
  transfer_outcome (fun _ child _ => child.code_eq) draft

end Block

end BlockSketch
