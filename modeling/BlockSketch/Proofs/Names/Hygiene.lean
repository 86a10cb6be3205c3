import BlockSketch.Proofs.Evaluation.Program
import BlockSketch.Proofs.Names.Draft

namespace BlockSketch

namespace Draft

theorem mem_foldl_addVariable {name : String} (names : List String) (draft : Draft) :
    name ∈ (names.foldl addVariable draft).variableNames ↔
      name ∈ draft.variableNames ∨ name ∈ names := by
  induction names generalizing draft with
  | nil => simp
  | cons first rest ih =>
    rw [List.foldl_cons, ih]
    simp only [addVariable, mem_addName, List.mem_cons, or_assoc]

theorem addVariables_variableNames (draft : Draft) (program : List Block) (name : String) :
    name ∈ (draft.addVariables program).variableNames ↔
      name ∈ draft.variableNames ∨ name ∈ Block.variablesRead program :=
  mem_foldl_addVariable _ draft

theorem foldl_addVariable_helpers (names : List String) (draft : Draft) :
    (names.foldl addVariable draft).helpers = draft.helpers := by
  induction names generalizing draft with
  | nil => rfl
  | cons name rest ih => exact ih _

/-- Only the reading of a variable can add the name of one. -/
theorem perform_variableNames (draft : Draft) (block : Block) :
    (draft.perform block).variableNames =
      if block.role? = some .variableRead then addName block.nameRead draft.variableNames
      else draft.variableNames := by
  unfold perform
  cases hr : block.role? with
  | none => rfl
  | some role =>
    cases role with
    | busSetup | number | arithmetic => rfl
    | variableRead => rfl
    | transfer => simp
    | transferAnswer =>
      cases hp : Bus.selectPin? block with
      | none => simp
      | some pin =>
        simp only [reduceCtorEq, ↓reduceIte, Option.some.injEq]
        unfold addHelper
        split <;> simp

/-- Evaluations that read known variables only leave the variables as they are. -/
theorem performAll_variableNames {draft : Draft} {blocks : List Block}
    (h : ∀ block ∈ blocks, block.role? = some .variableRead → block.nameRead ∈ draft.variableNames) :
    (draft.performAll blocks).variableNames = draft.variableNames := by
  refine performAll_induct (motive := fun after => after.variableNames = draft.variableNames) rfl ?_
  intro before block hm hb
  rw [perform_variableNames]
  split
  · rename_i hr
    rw [hb]
    exact addName_of_mem (h block hm hr)
  · exact hb

end Draft

namespace Block

theorem readName?_of_evaluated {block inner : Block} (h : inner ∈ block.plan.evaluations)
    (hr : inner.role? = some .variableRead) : inner.readName? = some inner.nameRead := by
  simp [readName?, role?_eq_variableRead.mp hr, nameRead_of_evaluated h hr]

/-- A pass reads no variable that the search for variables did not meet. -/
theorem nameRead_mem_variablesRead {block inner : Block} {program : List Block}
    (hp : InProgram block program) (h : inner ∈ block.plan.evaluations)
    (hr : inner.role? = some .variableRead) : inner.nameRead ∈ variablesRead program := by
  obtain ⟨top, ht, hw⟩ := hp
  exact mem_variablesRead.mpr
    ⟨inner, ⟨top, ht, (within_of_evaluated h).trans hw⟩, readName?_of_evaluated h hr⟩

theorem code_variableNames {block : Block} {program : List Block} {draft : Draft}
    (hp : InProgram block program) (h : variablesRead program ⊆ draft.variableNames) :
    (Drafting.draftLeft (block.code Registry.standard draft)).variableNames =
      draft.variableNames := by
  rw [code_eq, Plan.draftLeft_outcome]
  exact Draft.performAll_variableNames fun _ hm hr => h (nameRead_mem_variablesRead hp hm hr)

end Block

namespace Program

theorem variablesRead_subset (program : Program) :
    Block.variablesRead program.blocks ⊆ program.firstDraft.variableNames := by
  intro name hm
  exact (Draft.addVariables_variableNames _ _ _).mpr (Or.inr hm)

/-- What a pass reads is what the search for variables met, also where the pass goes on from one
block of a stack to the next. -/
theorem nameRead_mem_of_evaluated {program : Program} {inner : Block}
    (h : inner ∈ program.plan.evaluations) (hr : inner.role? = some .variableRead) :
    inner.nameRead ∈ Block.variablesRead program.blocks := by
  obtain ⟨block, hp, he⟩ := Block.exists_of_evaluated h
  have hn : inner.readName? = some inner.nameRead := by
    obtain ⟨plan, hm, hb⟩ := Block.mem_inOrder h
    obtain ⟨statement, -, rfl⟩ := List.mem_map.mp hm
    exact Block.readName?_of_evaluated hb hr
  refine Block.mem_variablesRead.mpr ⟨block, hp, ?_⟩
  rcases he with rfl | rfl
  · exact hn
  · exact hn

theorem firstDraft_helpers (program : Program) : program.firstDraft.helpers = [] :=
  Draft.foldl_addVariable_helpers _ _

theorem firstDraft_reachable (program : Program) : program.firstDraft.Reachable :=
  (Draft.Reachable.start program.board).steps (Draft.Steps.addVariables _ _)

theorem pass_steps (program : Program) :
    Draft.Steps program.firstDraft (Drafting.draftLeft program.pass) := by
  rw [pass_eq, Plan.draftLeft_outcome]
  exact Draft.Steps.after _ _

theorem firstDraft_avoids (program : Program) :
    program.firstDraft.Avoids (reservedNames ++ Block.variablesRead program.blocks) := by
  refine ⟨?_, ?_⟩
  · intro name hm
    rw [program.firstDraft_reachable.named.taken_iff]
    rcases List.mem_append.mp hm with hm | hm
    · exact Or.inl hm
    · exact Or.inr (Or.inl (program.variablesRead_subset hm))
  · simp [Draft.helperNames, Table.values, program.firstDraft_helpers]

theorem pass_variableNames (program : Program) :
    (Drafting.draftLeft program.pass).variableNames = program.firstDraft.variableNames := by
  rw [pass_eq, Plan.draftLeft_outcome]
  exact Draft.performAll_variableNames fun _ hm hr =>
    program.variablesRead_subset (nameRead_mem_of_evaluated hm hr)

/-- Whether a pass comes to its end or not, the helpers that it names have identifiers for names,
no two the same, none of them reserved and none read as a variable by any block of the program.
And from the search for variables on, neither the pass nor any generator adds a variable. -/
theorem helper_names_hygienic (program : Program) :
    (∀ name ∈ (Drafting.draftLeft program.pass).helperNames,
      Identifier.IsValid name ∧ name ∉ reservedNames ∧
      ∀ block, Block.InProgram block program.blocks → block.kind = "variables_get" →
        block.field? "VAR" ≠ some name) ∧
    (Drafting.draftLeft program.pass).helperNames.Nodup ∧
    (Drafting.draftLeft program.pass).variableNames = program.firstDraft.variableNames ∧
    (∀ draft, Draft.Steps program.firstDraft draft →
      ∀ block, Block.InProgram block program.blocks →
        (Drafting.draftLeft (block.code Registry.standard draft)).variableNames =
          draft.variableNames) := by
  have hn := (program.firstDraft_reachable.steps program.pass_steps).named
  have ha := program.firstDraft_avoids.steps program.pass_steps
  refine ⟨?_, hn.distinct, program.pass_variableNames, ?_⟩
  · intro name hm
    have hu := ha.unused name hm
    rw [List.mem_append, not_or] at hu
    refine ⟨hn.valid name hm, hu.1, ?_⟩
    intro block hp hk hv
    exact hu.2 (Block.mem_variablesRead.mpr
      ⟨block, hp, Block.readName?_eq_some.mpr ⟨hk, hv, (hn.valid name hm).ne_empty⟩⟩)
  · intro draft hs block hp
    exact Block.code_variableNames hp
      (List.Subset.trans program.variablesRead_subset hs.variableNames_subset)

/-- Two pins that sanitise alike, and a variable, read only where nothing looks at it, that has the
name they would have. -/
def mergedPins : Program where
  blocks := [
    ⟨"spi_transfer_return", "", [("SPI_SS", "A.1")], [], none⟩,
    ⟨"spi_transfer_return", "", [("SPI_SS", "A-1")],
      [("UNREAD", ⟨"variables_get", "", [("VAR", "spiReturnSlaveA_1")], [], none⟩)], none⟩]
  board := .uno
  mode := .warn

theorem mergedPins_helperNames :
    (Drafting.draftLeft mergedPins.pass).helperNames =
      ["spiReturnSlaveA_1_2", "spiReturnSlaveA_1_3"] := by
  decide +kernel

theorem mergedPins_hygienic :
    (∀ name ∈ ["spiReturnSlaveA_1_2", "spiReturnSlaveA_1_3"],
      Identifier.IsValid name ∧ name ∉ reservedNames ∧
      ∀ block, Block.InProgram block mergedPins.blocks → block.kind = "variables_get" →
        block.field? "VAR" ≠ some name) ∧
    ["spiReturnSlaveA_1_2", "spiReturnSlaveA_1_3"].Nodup := by
  have h := helper_names_hygienic mergedPins
  rw [mergedPins_helperNames] at h
  exact ⟨h.1, h.2.1⟩

end Program

end BlockSketch
