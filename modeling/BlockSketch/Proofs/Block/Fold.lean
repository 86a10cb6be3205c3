import BlockSketch.Block.Basic
import BlockSketch.Proofs.Table

namespace BlockSketch.Block

mutual

/-- The value of a block, made from the block and, for each input, from what is plugged in there
and the value of that. -/
def fold (node : Block → (String → Option (Block × α)) → α) : Block → α
  | ⟨kind, id, fields, inputs, next⟩ =>
    node ⟨kind, id, fields, inputs, next⟩ (foldPlugged node inputs)

def foldPlugged (node : Block → (String → Option (Block × α)) → α) :
    List (String × Block) → String → Option (Block × α)
  | [], _ => none
  | (name, block) :: rest, input =>
    if name = input then some (block, fold node block) else foldPlugged node rest input

end

theorem foldPlugged_eq (node : Block → (String → Option (Block × α)) → α)
    (inputs : List (String × Block)) (input : String) :
    foldPlugged node inputs input =
      (Table.get? inputs input).map fun child => (child, child.fold node) := by
  induction inputs with
  | nil => rfl
  | cons entry rest ih =>
    obtain ⟨name, block⟩ := entry
    by_cases h : name = input <;> simp [foldPlugged, Table.get?, h, ih]

theorem fold_eq (node : Block → (String → Option (Block × α)) → α) (block : Block) :
    block.fold node =
      node block fun input => (block.input? input).map fun child => (child, child.fold node) := by
  obtain ⟨kind, id, fields, inputs, next⟩ := block
  rw [fold]
  congr 1
  funext input
  exact foldPlugged_eq node inputs input

/-- For a function that does not look at what is plugged in itself. -/
theorem map_snd_plugged (node : Block → (String → Option (Block × α)) → α) (block : Block)
    (input : String) :
    ((block.input? input).map fun child => (child, child.fold node)).map Prod.snd =
      (block.input? input).map (fold node) := by
  cases block.input? input <;> rfl

/-- What a function gives for the block plugged into an input, if one is. -/
def atInput (missing : α) (value : Block → α) (block : Block) (input : String) : α :=
  ((block.input? input).map value).getD missing

theorem atInput_of_some {missing : α} {value : Block → α} {block child : Block}
    (h : block.input? input = some child) : atInput missing value block input = value child := by
  rw [atInput, h, Option.map_some, Option.getD_some]

theorem atInput_of_none {missing : α} {value : Block → α} {block : Block}
    (h : block.input? input = none) : atInput missing value block input = missing := by
  rw [atInput, h, Option.map_none, Option.getD_none]

theorem mem_children_of_input? {block child : Block} (h : block.input? input = some child) :
    child ∈ block.children :=
  List.mem_append_left _ (List.mem_map.mpr ⟨(input, child), Table.mem_of_get? h, rfl⟩)

/-- A fact about a block follows from the same fact about the blocks plugged into it. -/
theorem induct_inputs {motive : Block → Prop}
    (node : ∀ block : Block,
      (∀ input child, block.input? input = some child → motive child) → motive block)
    (block : Block) : motive block :=
  induct (fun block ih => node block fun _ child h => ih child (mem_children_of_input? h)) block

end BlockSketch.Block
