import BlockSketch.Proofs.Block.Within
import BlockSketch.Proofs.Evaluation.Pass
import BlockSketch.Sketch.Program

namespace BlockSketch

namespace Block

/-- The blocks whose code stands in the loop, each on its own. -/
def statements (program : List Block) : List Block := program.flatMap stack

def sequenceText (names : String → String) : List Block → String
  | [] => ""
  | block :: rest => (block.written names).asStatement ++ sequenceText names rest

/-- The loop of a program that has no fault. -/
def loopText (names : String → String) (program : List Block) : String :=
  sequenceText names (statements program)

def sequencePlan (blocks : List Block) : Plan := .inOrder (blocks.map plan)

def programPlan (program : List Block) : Plan := sequencePlan (statements program)

/-- Only what is within a block can be evaluated for it. -/
theorem within_of_evaluated {block inner : Block} (h : inner ∈ block.plan.evaluations) :
    Within inner block := by
  induction block using induct_inputs with
  | node block ih =>
    rcases evaluated_cases h with ⟨rfl, -⟩ | ⟨input, child, hi, hm⟩
    · exact .self
    · exact (ih input child hi hm).trans (.of_input hi)

theorem mem_inOrder {plans : List Plan} {block : Block}
    (h : block ∈ (Plan.inOrder plans).evaluations) : ∃ plan ∈ plans, block ∈ plan.evaluations := by
  induction plans with
  | nil => simp [Plan.inOrder, Plan.empty] at h
  | cons plan rest ih =>
    rcases Plan.mem_andThen h with h | h
    · exact ⟨plan, List.mem_cons_self, h⟩
    · obtain ⟨other, hm, hb⟩ := ih h
      exact ⟨other, List.mem_cons_of_mem _ hm, hb⟩

theorem within_withNext {inner block : Block} (h : Within inner (block.withNext none)) :
    inner = block.withNext none ∨ Within inner block := by
  rcases within_iff.mp h with he | ⟨child, hm, hw⟩
  · exact Or.inl he
  · refine Or.inr (.child ?_ hw)
    simp only [children, withNext, Option.toList_none, List.append_nil] at hm
    exact List.mem_append_left _ hm

/-- A block that a pass evaluates is a block of the program, but for what follows it. -/
theorem exists_of_evaluated {program : List Block} {inner : Block}
    (h : inner ∈ (programPlan program).evaluations) :
    ∃ block, InProgram block program ∧ (inner = block ∨ inner = block.withNext none) := by
  obtain ⟨plan, hp, hm⟩ := mem_inOrder h
  obtain ⟨statement, hs, rfl⟩ := List.mem_map.mp hp
  obtain ⟨top, ht, hs⟩ := List.mem_flatMap.mp hs
  obtain ⟨block, hb, rfl⟩ := exists_of_mem_stack hs
  rcases within_withNext (within_of_evaluated hm) with he | hw
  · exact ⟨block, ⟨top, ht, hb⟩, Or.inr he⟩
  · exact ⟨inner, ⟨top, ht, hw.trans hb⟩, Or.inl rfl⟩

theorem sequenceCode_append (registry : Registry) (blocks more : List Block) :
    sequenceCode registry (blocks ++ more) = (do
      let first ← sequenceCode registry blocks
      let following ← sequenceCode registry more
      pure (first ++ following)) := by
  induction blocks with
  | nil => simp only [List.nil_append, sequenceCode, pure_bind, String.empty_append, bind_pure]
  | cons block rest ih =>
    simp only [List.cons_append, sequenceCode, ih, bind_assoc, pure_bind, String.append_assoc]

theorem stacksCode_eq_sequenceCode (registry : Registry) (program : List Block) :
    stacksCode registry program = sequenceCode registry (statements program) := by
  induction program with
  | nil => rfl
  | cons top rest ih =>
    rw [stacksCode, ih]
    exact (sequenceCode_append registry top.stack (statements rest)).symm

theorem sequenceCode_eq (blocks : List Block) (draft : Draft) :
    sequenceCode Registry.standard blocks draft =
      (sequencePlan blocks).outcome (fun after => sequenceText after.helperName blocks) draft := by
  induction blocks generalizing draft with
  | nil => rfl
  | cons block rest ih =>
    apply Plan.bind_outcome (code_eq block draft)
    intro hf
    rw [← Plan.andThen_empty (Plan.inOrder (rest.map plan))]
    apply Plan.bind_outcome (ih _)
    intro _
    -- What follows adds helpers but renames none.
    have hw := written_congr block fun pin hp =>
      Draft.helperName_stable
        (Draft.performAll_extends (block.plan.after draft) (sequencePlan rest).evaluations)
        (after_serves hf draft pin hp)
    rw [Plan.outcome_empty, sequenceText]
    exact congrArg
      (EStateM.Result.ok · ((sequencePlan rest).after (block.plan.after draft)))
      (congrArg (fun fragment => fragment.asStatement ++ _) hw.symm)

theorem stacksCode_eq (program : List Block) (draft : Draft) :
    stacksCode Registry.standard program draft =
      (programPlan program).outcome (fun after => loopText after.helperName program) draft := by
  rw [stacksCode_eq_sequenceCode]
  exact sequenceCode_eq (statements program) draft

end Block

namespace Program

/-- The draft on which a program's code is made: all its variables are known before. -/
def firstDraft (program : Program) : Draft :=
  (Draft.start program.board).addVariables program.blocks

/-- The pass that makes the loop's code and, on the way, all else that the sketch needs. -/
def pass (program : Program) : EStateM.Result Fault Draft String :=
  Block.stacksCode Registry.standard program.blocks program.firstDraft

def plan (program : Program) : Plan := Block.programPlan program.blocks

theorem sketch_eq (program : Program) :
    program.sketch Registry.standard =
      match program.pass with
      | .error fault _ => .error (.fault fault)
      | .ok loop draft =>
        match (draft.report program.mode).settle with
        | .error errors => .error (.findings errors)
        | .ok warnings => .ok ⟨draft.layout loop, warnings⟩ :=
  rfl

theorem pass_eq (program : Program) :
    program.pass = program.plan.outcome
      (fun after => Block.loopText after.helperName program.blocks) program.firstDraft :=
  Block.stacksCode_eq program.blocks program.firstDraft

/-- A pass that comes to its end had no fault, and its draft is what the plan makes of the first. -/
theorem pass_eq_ok {program : Program} :
    program.pass = .ok loop draft ↔
      program.plan.fault = none ∧ draft = program.plan.after program.firstDraft ∧
        loop = Block.loopText draft.helperName program.blocks := by
  rw [pass_eq, Plan.outcome]
  cases program.plan.fault with
  | none => grind
  | some fault => simp

end Program

end BlockSketch
