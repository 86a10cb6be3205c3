import BlockSketch.Proofs.Compiler.Pure
import BlockSketch.Proofs.Formula.Meaning

namespace BlockSketch

namespace Formula

/-- The helpers that are called where the expression stands. -/
def calledNames : Formula → List String
  | number _ | read _ => []
  | call name => [name]
  | transfer data => data.calledNames
  | negate operand => operand.calledNames
  | binary _ left right => left.calledNames ++ right.calledNames

theorem calledNames_ofNumeral (text : String) : (ofNumeral text).calledNames = [] := by
  unfold ofNumeral
  split <;> rfl

/-- The operators that are known have a sign and code of their own. -/
theorem Operator.picked?_of_known {text : String} (h : Expression.operatorOf? text = some known) :
    ∃ operator, picked? text = some operator := by
  rw [operatorOf?_eq, Option.map_eq_some_iff] at h
  obtain ⟨operator, hp, -⟩ := h
  exact ⟨operator, hp⟩

end Formula

namespace Block

theorem role?_of_answerPin? {block : Block} (h : block.answerPin? = some pin) :
    block.role? = some .transferAnswer := by
  rw [answerPin?_eq] at h
  split at h
  · assumption
  · cases h

/-- What is evaluated for a block is the block or evaluated for an input of it; and if the block has
no fault, what is plugged in there has none and is a value. -/
theorem mem_evaluated {block inner : Block} (h : inner ∈ block.evaluated) :
    inner = block ∨ ∃ input child, block.input? input = some child ∧ inner ∈ child.evaluated ∧
      child.evaluated ⊆ block.evaluated ∧
      (block.plan.fault = none → child.plan.fault = none ∧ child.isValue = true) := by
  have hi {input : String} (hsub : block.evaluatedAt input ⊆ block.evaluated)
      (hf : block.plan.fault = none → (block.inputPlan input).fault = none)
      (hm : inner ∈ block.evaluatedAt input) :
      ∃ input child, block.input? input = some child ∧ inner ∈ child.evaluated ∧
        child.evaluated ⊆ block.evaluated ∧
        (block.plan.fault = none → child.plan.fault = none ∧ child.isValue = true) := by
    cases hc : block.input? input with
    | none => simp [evaluatedAt, atInput_of_none hc] at hm
    | some child =>
      rw [evaluatedAt, atInput_of_some hc] at hm hsub
      exact ⟨input, child, hc, hm, hsub, fun hb => inputPlan_fault hc (hf hb)⟩
  have he := block.evaluated_eq
  have hp := block.plan_eq
  cases hr : block.role? with
  | none =>
    simp only [hr] at he
    exact Or.inl (List.mem_singleton.mp (he ▸ h))
  | some role =>
    cases role with
    | busSetup | number | variableRead =>
      simp only [hr] at he
      exact Or.inl (List.mem_singleton.mp (he ▸ h))
    | arithmetic =>
      simp only [hr] at he hp
      have hfaults (hf : block.plan.fault = none) :
          (block.inputPlan "A").fault = none ∧ (block.inputPlan "B").fault = none := by
        rw [hp] at hf
        split at hf
        · simp [Plan.failing] at hf
        · simp only [Plan.andThen_fault_eq_none] at hf
          exact ⟨hf.1, hf.2.1⟩
      rw [he] at h
      rcases List.mem_append.mp h with h | h
      · exact Or.inr (hi (by simp [he]) (fun hf => (hfaults hf).1) h)
      rcases List.mem_append.mp h with h | h
      · have hsub : block.evaluatedAt "B" ⊆ block.evaluated := by
          rw [he]
          exact List.subset_append_of_subset_right _ (List.subset_append_left _ _)
        exact Or.inr (hi hsub (fun hf => (hfaults hf).2) h)
      · exact Or.inl (List.mem_singleton.mp h)
    | transfer | transferAnswer =>
      simp only [hr] at he hp
      rw [he] at h
      rcases List.mem_append.mp h with h | h
      · exact Or.inr (hi (by simp [he])
          (fun hf => (Plan.andThen_fault_eq_none.mp (hp ▸ hf)).1) h)
      · exact Or.inl (List.mem_singleton.mp h)

theorem fault_of_evaluated {block inner : Block} (hf : block.plan.fault = none)
    (h : inner ∈ block.evaluated) : inner.plan.fault = none := by
  induction block using induct_inputs with
  | node block ih =>
    rcases mem_evaluated h with rfl | ⟨input, child, hi, hm, -, hc⟩
    · exact hf
    · exact ih input child hi (hc hf).1 hm

theorem evaluated_trans {block outer inner : Block} (ho : outer ∈ block.evaluated)
    (h : inner ∈ outer.evaluated) : inner ∈ block.evaluated := by
  induction block using induct_inputs with
  | node block ih =>
    rcases mem_evaluated ho with rfl | ⟨input, child, hi, hm, hsub, -⟩
    · exact h
    · exact hsub (ih input child hi hm)

/-- The expression in the code of a statement: the data of a transfer, or a value itself. -/
def expression (names : String → String) (block : Block) : Formula :=
  if block.role? = some .transfer then block.denotedAt names dataInput else block.denoted names

theorem calledNames_denotedAt {names : String → String} {block : Block} {input : String}
    (ih : ∀ child, block.input? input = some child → child.plan.fault = none →
      child.isValue = true → (child.denoted names).calledNames = child.calledPins.map names)
    (hf : (block.inputPlan input).fault = none) :
    (block.denotedAt names input).calledNames = (block.calledAt input).map names := by
  rw [denotedAt, calledAt]
  cases hc : block.input? input with
  | none =>
    rw [atInput_of_none hc, atInput_of_none hc]
    rfl
  | some child =>
    obtain ⟨hcf, hcv⟩ := inputPlan_fault hc hf
    rw [atInput_of_some hc, atInput_of_some hc]
    exact ih child hc hcf hcv

/-- The calls that a value is known to make are those that its code makes. -/
theorem calledNames_denoted {block : Block} (hf : block.plan.fault = none)
    (hv : block.isValue = true) (names : String → String) :
    (block.denoted names).calledNames = block.calledPins.map names := by
  induction block using induct_inputs with
  | node block ih =>
    rw [plan_eq] at hf
    rw [denoted_eq, calledPins_eq]
    cases hr : block.role? with
    | none => simp [hr, Plan.failing] at hf
    | some role =>
      cases role with
      | busSetup | transfer => simp [isValue, hr, Role.isValue] at hv
      | number => exact Formula.calledNames_ofNumeral _
      | variableRead => rfl
      | arithmetic =>
        cases ho : Expression.operatorOf? block.operator with
        | none => simp [hr, ho, Plan.failing] at hf
        | some known =>
          simp only [hr, ho, Plan.andThen_fault_eq_none] at hf
          obtain ⟨operator, hp⟩ := Formula.Operator.picked?_of_known ho
          simp only [hp, Formula.calledNames, calledNames_denotedAt (ih "A") hf.1,
            calledNames_denotedAt (ih "B") hf.2.1, List.map_append]
      | transferAnswer =>
        simp only [hr, Plan.andThen_fault_eq_none] at hf
        cases hp : Bus.selectPin? block with
        | none => exact calledNames_denotedAt (ih dataInput) hf.1
        | some pin => rfl

theorem dataPlan_fault {block : Block} (hf : block.plan.fault = none)
    (hr : block.role? = some .transfer ∨ block.role? = some .transferAnswer) :
    (block.inputPlan dataInput).fault = none := by
  rw [plan_eq] at hf
  rcases hr with hr | hr
  · simp only [hr, Plan.andThen_fault_eq_none] at hf
    exact hf.1
  · simp only [hr, Plan.andThen_fault_eq_none] at hf
    exact hf.1

theorem calledNames_data {block : Block} (hf : block.plan.fault = none)
    (hr : block.role? = some .transfer ∨ block.role? = some .transferAnswer)
    (names : String → String) :
    (block.denotedAt names dataInput).calledNames = (block.calledAt dataInput).map names :=
  calledNames_denotedAt (fun _ _ hcf hcv => calledNames_denoted hcf hcv names)
    (dataPlan_fault hf hr)

theorem calledNames_expression {block : Block} (hf : block.plan.fault = none)
    (names : String → String) :
    (block.expression names).calledNames = block.calledPins.map names := by
  unfold expression
  split
  · rename_i hr
    rw [calledNames_data hf (Or.inl hr), calledPins_eq, hr]
  · rename_i hr
    cases hv : block.isValue with
    | true => exact calledNames_denoted hf hv names
    | false =>
      -- What is neither a value nor a transfer sets up the bus.
      rw [denoted_eq, calledPins_eq]
      cases hrole : block.role? with
      | none => rfl
      | some role =>
        cases role with
        | busSetup => rfl
        | transfer => exact absurd hrole hr
        | number | variableRead | arithmetic | transferAnswer =>
          simp [isValue, hrole, Role.isValue] at hv

/-- Where a block's code calls the helper of a pin, an answer from the pin is evaluated. -/
theorem exists_evaluated_of_called (block : Block) :
    ∀ pin ∈ block.calledPins, ∃ inner ∈ block.evaluated, inner.answerPin? = some pin := by
  induction block using induct_inputs with
  | node block ih =>
    have hi {input : String} : ∀ pin ∈ block.calledAt input,
        ∃ inner ∈ block.evaluatedAt input, inner.answerPin? = some pin := by
      intro pin hp
      cases hc : block.input? input with
      | none => simp [calledAt, atInput_of_none hc] at hp
      | some child =>
        rw [calledAt, atInput_of_some hc] at hp
        rw [evaluatedAt, atInput_of_some hc]
        exact ih input child hc pin hp
    intro pin hp
    rw [calledPins_eq] at hp
    rw [evaluated_eq]
    cases hr : block.role? with
    | none => simp [hr] at hp
    | some role =>
      cases role with
      | busSetup | number | variableRead => simp [hr] at hp
      | arithmetic =>
        simp only [hr, List.mem_append] at hp
        rcases hp with hp | hp
        · obtain ⟨inner, hm, ha⟩ := hi pin hp
          exact ⟨inner, List.mem_append_left _ hm, ha⟩
        · obtain ⟨inner, hm, ha⟩ := hi pin hp
          exact ⟨inner, List.mem_append_right _ (List.mem_append_left _ hm), ha⟩
      | transfer =>
        simp only [hr] at hp
        obtain ⟨inner, hm, ha⟩ := hi pin hp
        exact ⟨inner, List.mem_append_left _ hm, ha⟩
      | transferAnswer =>
        cases hs : Bus.selectPin? block with
        | none =>
          simp only [hr, hs] at hp
          obtain ⟨inner, hm, ha⟩ := hi pin hp
          exact ⟨inner, List.mem_append_left _ hm, ha⟩
        | some own =>
          simp only [hr, hs, List.mem_singleton] at hp
          refine ⟨block, List.mem_append_right _ (List.mem_singleton_self _), ?_⟩
          simp [answerPin?_eq, hr, hs, hp]

theorem exists_evaluatedAt_of_called {block : Block} {input : String} :
    ∀ pin ∈ block.calledAt input,
      ∃ inner ∈ block.evaluatedAt input, inner.answerPin? = some pin := by
  intro pin hp
  cases hc : block.input? input with
  | none => simp [calledAt, atInput_of_none hc] at hp
  | some child =>
    rw [calledAt, atInput_of_some hc] at hp
    rw [evaluatedAt, atInput_of_some hc]
    exact exists_evaluated_of_called child pin hp

end Block

end BlockSketch
