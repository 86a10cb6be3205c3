import BlockSketch.Block.Build
import BlockSketch.Proofs.Evaluation.Program

namespace BlockSketch

namespace Block

/-- The block and all that follow it, each with what follows it. -/
def unrolled : Block → List Block
  | ⟨kind, id, fields, inputs, none⟩ => [⟨kind, id, fields, inputs, none⟩]
  | ⟨kind, id, fields, inputs, some next⟩ => ⟨kind, id, fields, inputs, some next⟩ :: unrolled next

theorem unrolled_withNext (block : Block) (next : Option Block) :
    (block.withNext next).unrolled = block.withNext next :: next.elim [] unrolled := by
  cases next <;> rfl

theorem stack_withNext (block : Block) (next : Option Block) :
    (block.withNext next).stack = block.withNext none :: next.elim [] stack := by
  cases next <;> rfl

/-- Linking keeps each block but for what follows it, and what follows is the block that comes next
in the list. -/
theorem getElem?_unrolled_link (blocks : List Block) (i : Nat) :
    ((link blocks).elim [] unrolled)[i]? =
      blocks[i]?.map (·.withNext ((link blocks).elim [] unrolled)[i + 1]?) := by
  induction blocks generalizing i with
  | nil => rfl
  | cons block rest ih =>
    rw [link, Option.elim_some, unrolled_withNext]
    cases i with
    | succ i => simpa only [List.getElem?_cons_succ] using ih i
    | zero =>
      simp only [List.getElem?_cons_zero, List.getElem?_cons_succ, Option.map_some]
      -- The successor is the head of what remains, if anything does.
      cases rest with
      | nil => rfl
      | cons second rest =>
        rw [link, Option.elim_some, unrolled_withNext]
        rfl

theorem stack_link (blocks : List Block) :
    (link blocks).elim [] stack = blocks.map (·.withNext none) := by
  induction blocks with
  | nil => rfl
  | cons block rest ih => rw [link, Option.elim_some, stack_withNext, ih, List.map_cons]

theorem statements_append (program more : List Block) :
    statements (program ++ more) = statements program ++ statements more :=
  List.flatMap_append

theorem statements_withoutNext (blocks : List Block) :
    statements (blocks.map (·.withNext none)) = blocks.map (·.withNext none) := by
  rw [statements, List.flatMap_map, List.map_eq_flatMap]
  rfl

theorem variablesRead_nil : variablesRead [] = [] := by
  rw [variablesRead, everyBlock, List.filterMap_nil]

theorem variablesRead_append (program more : List Block) :
    variablesRead (program ++ more) = variablesRead program ++ variablesRead more := by
  rw [variablesRead, everyBlock_append, List.filterMap_append]
  rfl

theorem variablesRead_cons (block : Block) (rest : List Block) :
    variablesRead (block :: rest) =
      block.readName?.toList ++ (variablesRead block.children ++ variablesRead rest) := by
  rw [variablesRead, everyBlock_cons, List.filterMap_cons, List.filterMap_append]
  cases block.readName? <;> rfl

/-- The search for variables comes to a successor last, as it does to a neighbour. -/
theorem variablesRead_stack : ∀ block : Block, variablesRead block.stack = variablesRead [block]
  | ⟨_, _, _, _, none⟩ => rfl
  | ⟨kind, id, fields, inputs, some next⟩ => by
    have hchildren : variablesRead (children ⟨kind, id, fields, inputs, some next⟩) =
        variablesRead (children ⟨kind, id, fields, inputs, none⟩) ++ variablesRead [next] := by
      rw [← variablesRead_append]
      simp [children]
    rw [stack, variablesRead_cons, variablesRead_stack next,
      variablesRead_cons ⟨kind, id, fields, inputs, some next⟩, hchildren, variablesRead_nil,
      List.append_nil]
    rfl

theorem variablesRead_statements (program : List Block) :
    variablesRead (statements program) = variablesRead program := by
  induction program with
  | nil => rfl
  | cons top rest ih =>
    have hcons : top :: rest = [top] ++ rest := rfl
    rw [hcons, statements_append, variablesRead_append, ih, variablesRead_append]
    exact congrArg (· ++ variablesRead rest)
      ((congrArg variablesRead (List.flatMap_singleton stack top)).trans (variablesRead_stack top))

end Block

/-- A sketch depends on the statements of a program, not on how they are stacked. -/
theorem Program.sketch_congr_statements (registry : Registry) {blocks others : List Block}
    (h : Block.statements blocks = Block.statements others) (board : Board) (mode : Mode) :
    Program.sketch registry ⟨blocks, board, mode⟩ =
      Program.sketch registry ⟨others, board, mode⟩ := by
  have hvariables : Block.variablesRead blocks = Block.variablesRead others := by
    rw [← Block.variablesRead_statements, h, Block.variablesRead_statements]
  unfold Program.sketch Draft.addVariables
  rw [hvariables, Block.stacksCode_eq_sequenceCode, Block.stacksCode_eq_sequenceCode, h]

namespace Request

theorem blocksOf_append (items more : List (Arrived Block)) :
    blocksOf (items ++ more) = (do
      let blocks ← blocksOf items
      let others ← blocksOf more
      pure (blocks ++ others)) := by
  induction items with
  | nil =>
    rw [List.nil_append, blocksOf]
    cases blocksOf more <;> rfl
  | cons item rest ih =>
    cases item with
    | other arrived => rfl
    | wanted block =>
      rw [List.cons_append, blocksOf, ih, blocksOf]
      cases blocksOf rest with
      | error refusal => rfl
      | ok blocks => cases blocksOf more <;> rfl

theorem blocksOf_wanted (blocks : List Block) : blocksOf (blocks.map .wanted) = .ok blocks := by
  induction blocks with
  | nil => rfl
  | cons block rest ih =>
    rw [List.map_cons, blocksOf, ih]
    rfl

/-- The blocks of a request can be exchanged for others with the same statements, whatever is wrong
with the rest of the request. -/
theorem sketch_exchange (registry : Registry) {blocks others : List Block}
    (hs : Block.statements blocks = Block.statements others) (before after : List (Arrived Block))
    (board : Arrived BoardChoice) (mode : Arrived String) :
    sketch registry ⟨.wanted (before ++ blocks.map .wanted ++ after), board, mode⟩ =
      sketch registry ⟨.wanted (before ++ others.map .wanted ++ after), board, mode⟩ := by
  -- Both are refused for the same reason, unless they are programs with the same statements.
  unfold sketch check
  simp only [blocksOf_append, blocksOf_wanted]
  cases blocksOf before with
  | error refusal => rfl
  | ok first =>
    cases blocksOf after with
    | error refusal => rfl
    | ok last =>
      cases board with
      | other arrived => rfl
      | wanted choice =>
        dsimp only
        cases choice.board with
        | error refusal => rfl
        | ok board =>
          cases modeOf mode with
          | error refusal => rfl
          | ok mode =>
            refine Program.sketch_congr_statements registry ?_ board mode
            simp only [Block.statements_append, hs]

end Request

/-- Blocks chained one behind the other keep all that is theirs and follow each other as in the
list. A chain among other blocks gives the sketch that its blocks give side by side, and it fails as
they do. -/
theorem Block.chain_sketches_as_stack (registry : Registry) (first : Block) (rest : List Block) :
    ∃ head : Block, chain (first :: rest) = .ok head ∧
      (∀ i : Nat, head.unrolled[i]? = (first :: rest)[i]?.map (·.withNext head.unrolled[i + 1]?)) ∧
      ∀ (before after : List (Arrived Block)) (board : Arrived BoardChoice) (mode : Arrived String),
        Request.sketch registry ⟨.wanted (before ++ [.wanted head] ++ after), board, mode⟩ =
          Request.sketch registry
            ⟨.wanted (before ++ ((first :: rest).map (·.withNext none)).map .wanted ++ after),
              board, mode⟩ := by
  have hlink : link (first :: rest) = some (first.withNext (link rest)) := rfl
  have hstack : statements [first.withNext (link rest)] =
      statements ((first :: rest).map (·.withNext none)) := by
    have hs := stack_link (first :: rest)
    rw [statements_withoutNext, ← hs, hlink]
    exact List.flatMap_singleton stack _
  refine ⟨first.withNext (link rest), rfl, ?_, ?_⟩
  · have hpositions := getElem?_unrolled_link (first :: rest)
    rw [hlink] at hpositions
    exact hpositions
  · exact Request.sketch_exchange registry hstack

end BlockSketch
