import BlockSketch.Block.Variables
import BlockSketch.Proofs.Block.Fold

namespace BlockSketch.Block

/-- The block itself is within it, and so is all that is plugged into it or follows it. -/
inductive Within (block : Block) : Block → Prop
  | self : Within block block
  | child {inner outer : Block} : inner ∈ outer.children → Within block inner → Within block outer

/-- A block is in a program if it is within one of the stacks. -/
def InProgram (block : Block) (program : List Block) : Prop :=
  ∃ top ∈ program, Within block top

theorem within_iff {block outer : Block} :
    Within block outer ↔ block = outer ∨ InProgram block outer.children := by
  constructor
  · intro h
    cases h with
    | self => exact Or.inl rfl
    | child hm hw => exact Or.inr ⟨_, hm, hw⟩
  · rintro (rfl | ⟨_, hm, hw⟩)
    · exact .self
    · exact .child hm hw

theorem Within.trans {a b c : Block} (hab : Within a b) (hbc : Within b c) : Within a c := by
  induction hbc with
  | self => exact hab
  | child hm _ ih => exact .child hm ih

theorem Within.of_input {block child : Block} (h : block.input? input = some child) :
    Within child block :=
  .child (mem_children_of_input? h) .self

theorem inProgram_append {block : Block} {program more : List Block} :
    InProgram block (program ++ more) ↔ InProgram block program ∨ InProgram block more := by
  simp only [InProgram, List.mem_append, or_and_right, exists_or]

theorem inProgram_cons {block top : Block} {rest : List Block} :
    InProgram block (top :: rest) ↔ Within block top ∨ InProgram block rest := by
  simp [InProgram]

theorem everyBlock_append (blocks more : List Block) :
    everyBlock (blocks ++ more) = everyBlock blocks ++ everyBlock more := by
  fun_induction everyBlock blocks with
  | case1 => rfl
  | case2 block waiting ih => rw [List.cons_append, everyBlock, ← List.append_assoc, ih]; rfl

theorem everyBlock_cons (block : Block) (rest : List Block) :
    everyBlock (block :: rest) = block :: (everyBlock block.children ++ everyBlock rest) := by
  rw [everyBlock, everyBlock_append]

theorem mem_everyBlock {block : Block} {program : List Block} :
    block ∈ everyBlock program ↔ InProgram block program := by
  fun_induction everyBlock program with
  | case1 => simp [InProgram]
  | case2 top waiting ih =>
    rw [List.mem_cons, ih, inProgram_append, inProgram_cons, within_iff, or_assoc]

theorem readName?_eq_some {block : Block} :
    block.readName? = some name ↔
      block.kind = readKind ∧ block.field? "VAR" = some name ∧ name ≠ "" := by
  unfold readName? nameRead fieldOr
  cases block.field? "VAR" with
  | none => simp
  | some value => grind

theorem mem_variablesRead {program : List Block} :
    name ∈ variablesRead program ↔
      ∃ block, InProgram block program ∧ block.readName? = some name := by
  simp only [variablesRead, List.mem_filterMap, mem_everyBlock]

/-- Each block of a stack is within its first block, but for what follows it. -/
theorem exists_of_mem_stack {block : Block} :
    ∀ {top : Block}, block ∈ top.stack → ∃ inner, Within inner top ∧ block = inner.withNext none
  | ⟨kind, id, fields, inputs, none⟩, h => by
    rw [stack, List.mem_singleton] at h
    exact ⟨_, .self, h⟩
  | ⟨kind, id, fields, inputs, some next⟩, h => by
    rw [stack, List.mem_cons] at h
    rcases h with h | h
    · exact ⟨_, .self, h⟩
    · obtain ⟨inner, hw, he⟩ := exists_of_mem_stack h
      exact ⟨inner, .child (by simp [children]) hw, he⟩

end BlockSketch.Block
