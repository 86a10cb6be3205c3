import BlockSketch.Proofs.Evaluation.Perform

namespace BlockSketch

namespace Drafting

/-- The draft that a run leaves, whether it has a result or ends in a fault. -/
def draftLeft : EStateM.Result Fault Draft α → Draft
  | .ok _ draft => draft
  | .error _ draft => draft

end Drafting

namespace Plan

def after (plan : Plan) (draft : Draft) : Draft := draft.performAll plan.evaluations

/-- How a run ends that follows the plan, with a result that depends on the draft it leaves. -/
def outcome (plan : Plan) (result : Draft → α) (draft : Draft) : EStateM.Result Fault Draft α :=
  match plan.fault with
  | none => .ok (result (plan.after draft)) (plan.after draft)
  | some fault => .error fault (plan.after draft)

@[simp] theorem outcome_empty (result : Draft → α) (draft : Draft) :
    empty.outcome result draft = .ok (result draft) draft := rfl

@[simp] theorem draftLeft_outcome (plan : Plan) (result : Draft → α) (draft : Draft) :
    Drafting.draftLeft (plan.outcome result draft) = plan.after draft := by
  unfold outcome
  cases plan.fault <;> rfl

theorem outcome_eq_ok {plan : Plan} {result : Draft → α} {draft left : Draft} {value : α} :
    plan.outcome result draft = .ok value left ↔
      plan.fault = none ∧ value = result (plan.after draft) ∧ left = plan.after draft := by
  unfold outcome
  cases plan.fault with
  | none => grind
  | some fault => simp

theorem exists_outcome_eq_error {plan : Plan} {result : Draft → α} {draft : Draft} :
    (∃ fault left, plan.outcome result draft = .error fault left) ↔ plan.fault ≠ none := by
  unfold outcome
  cases plan.fault with
  | none => simp
  | some fault => simp

theorem outcome_only (block : Block) (result : Draft → α) (draft : Draft) :
    (only block).outcome result draft =
      .ok (result (draft.perform block)) (draft.perform block) := rfl

theorem after_andThen {a b : Plan} (h : a.fault = none) (draft : Draft) :
    (a.andThen b).after draft = b.after (a.after draft) := by
  unfold after
  rw [andThen_evaluations h, Draft.performAll_append]

theorem outcome_andThen {a b : Plan} (h : a.fault = none) (result : Draft → α) (draft : Draft) :
    (a.andThen b).outcome result draft = b.outcome result (a.after draft) := by
  unfold outcome
  rw [after_andThen h]
  simp only [andThen, h]

/-- Work that follows one plan and goes on by another follows both, one after the other. -/
theorem bind_outcome {work : Drafting α} {next : α → Drafting β} {a b : Plan}
    {first : Draft → α} {result : Draft → β} {draft : Draft}
    (hw : work draft = a.outcome first draft)
    (hn : a.fault = none →
      next (first (a.after draft)) (a.after draft) = b.outcome result (a.after draft)) :
    (work >>= next) draft = (a.andThen b).outcome result draft := by
  cases hf : a.fault with
  | none =>
    rw [outcome_andThen hf, ← hn hf]
    exact Drafting.bind_ok (by simp only [hw, outcome, hf])
  | some fault =>
    have he : (a.andThen b) = a := by simp only [andThen, hf]
    rw [he, Drafting.bind_error (by simp only [hw, outcome, hf]; rfl)]
    simp only [outcome, hf]

end Plan

namespace Block

/-- A helper's own name and data do not matter to what is called where it is called. -/
theorem exists_answer_of_called {block : Block} (h : block.plan.fault = none) :
    ∀ pin ∈ block.calledPins, ∃ inner ∈ block.plan.evaluations, inner.answerPin? = some pin := by
  induction block using induct_inputs with
  | node block ih =>
    -- The code of an input is part of the code of the block, and so are its evaluations.
    have hi (input : String) (hf : (block.inputPlan input).fault = none) :
        ∀ pin ∈ block.calledAt input,
          ∃ inner ∈ (block.inputPlan input).evaluations, inner.answerPin? = some pin := by
      intro pin hp
      cases hc : block.input? input with
      | none => simp [calledAt, atInput_of_none hc] at hp
      | some child =>
        rw [calledAt, atInput_of_some hc] at hp
        rw [inputPlan_evaluations hc hf]
        exact ih input child hc (inputPlan_fault hc hf).1 pin hp
    intro pin hp
    rw [calledPins_eq] at hp
    rw [plan_eq] at h ⊢
    cases hr : block.role? with
    | none => simp [hr] at hp
    | some role =>
      cases role with
      | busSetup | number | variableRead => simp [hr] at hp
      | arithmetic =>
        simp only [hr, List.mem_append] at h hp ⊢
        cases ho : Expression.operatorOf? block.operator with
        | none => simp [ho, Plan.failing] at h
        | some operator =>
          simp only [ho, Plan.andThen_fault_eq_none] at h ⊢
          rw [Plan.andThen_evaluations h.1, Plan.andThen_evaluations h.2.1]
          rcases hp with hp | hp
          · obtain ⟨inner, hm, ha⟩ := hi "A" h.1 pin hp
            exact ⟨inner, by simp [hm], ha⟩
          · obtain ⟨inner, hm, ha⟩ := hi "B" h.2.1 pin hp
            exact ⟨inner, by simp [hm], ha⟩
      | transfer =>
        simp only [hr, Plan.andThen_fault_eq_none] at h hp ⊢
        rw [Plan.andThen_evaluations h.1]
        obtain ⟨inner, hm, ha⟩ := hi dataInput h.1 pin hp
        exact ⟨inner, by simp [hm], ha⟩
      | transferAnswer =>
        simp only [hr, Plan.andThen_fault_eq_none] at h hp ⊢
        rw [Plan.andThen_evaluations h.1, Plan.andThen_evaluations h.2.1]
        cases hs : Bus.selectPin? block with
        | none =>
          simp only [hs] at hp
          obtain ⟨inner, hm, ha⟩ := hi dataInput h.1 pin hp
          exact ⟨inner, by simp [hm], ha⟩
        | some own =>
          simp only [hs, List.mem_singleton] at hp
          subst hp
          exact ⟨block, by simp [Plan.only], by simp [answerPin?_eq, hr, hs]⟩

/-- Each pin that a block's code calls has its helper by then. -/
theorem after_serves {block : Block} (h : block.plan.fault = none) (draft : Draft) :
    ∀ pin ∈ block.calledPins, (block.plan.after draft).Serves pin := by
  intro pin hp
  obtain ⟨inner, hm, ha⟩ := exists_answer_of_called h pin hp
  exact Draft.performAll_serves hm ha

theorem input_serves {block : Block} {input : String}
    (h : (block.inputPlan input).fault = none) (draft : Draft) :
    ∀ pin ∈ block.calledAt input, ((block.inputPlan input).after draft).Serves pin := by
  intro pin hp
  cases hi : block.input? input with
  | none => simp [calledAt, atInput_of_none hi] at hp
  | some child =>
    rw [calledAt, atInput_of_some hi] at hp
    unfold Plan.after
    rw [inputPlan_evaluations hi h]
    exact after_serves (inputPlan_fault hi h).1 draft pin hp

end Block

end BlockSketch
