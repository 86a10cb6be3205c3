import BlockSketch.Draft
import BlockSketch.Proofs.Block.Within
import BlockSketch.Proofs.Names.Draft
import Mathlib.Data.List.Forall2

namespace BlockSketch

namespace Block

mutual

/-- The names of the variables that a block reads, then those read in its inputs, then those read
by what follows it. -/
def namesWithin : Block → List String
  | ⟨kind, id, fields, inputs, next⟩ =>
    (readName? ⟨kind, id, fields, inputs, next⟩).toList ++
      (namesPlugged inputs ++ namesFollowing next)

def namesPlugged : List (String × Block) → List String
  | [] => []
  | (_, block) :: rest => namesWithin block ++ namesPlugged rest

def namesFollowing : Option Block → List String
  | none => []
  | some block => namesWithin block

end

def namesIn (program : List Block) : List String := program.flatMap namesWithin

theorem namesPlugged_eq (inputs : List (String × Block)) :
    namesPlugged inputs = namesIn (inputs.map Prod.snd) := by
  induction inputs with
  | nil => rfl
  | cons entry rest ih => rw [namesPlugged, ih, namesIn, namesIn, List.map_cons, List.flatMap_cons]

theorem namesWithin_eq (block : Block) :
    block.namesWithin = block.readName?.toList ++ namesIn block.children := by
  obtain ⟨kind, id, fields, inputs, next⟩ := block
  rw [namesWithin, namesPlugged_eq, children, namesIn, namesIn, List.flatMap_append]
  cases next <;> simp [namesFollowing]

/-- The search meets the names that the recursion meets, in the same order. -/
theorem variablesRead_eq (program : List Block) : variablesRead program = namesIn program := by
  unfold variablesRead
  fun_induction everyBlock program with
  | case1 => rfl
  | case2 block waiting ih =>
    have hnames : namesIn (block :: waiting) =
        block.readName?.toList ++ namesIn (block.children ++ waiting) := by
      simp only [namesIn, List.flatMap_cons, List.flatMap_append, namesWithin_eq, List.append_assoc]
    rw [hnames, ← ih]
    cases h : block.readName? with
    | none => rw [List.filterMap_cons_none h]; rfl
    | some name => rw [List.filterMap_cons_some h]; rfl

theorem mem_namesIn {program : List Block} :
    name ∈ namesIn program ↔
      ∃ block, InProgram block program ∧ block.kind = "variables_get" ∧
        block.field? "VAR" = some name ∧ name ≠ "" := by
  rw [← variablesRead_eq, mem_variablesRead]
  simp only [readName?_eq_some, readKind]

theorem totalSize_perm {blocks others : List Block} (h : blocks.Perm others) :
    totalSize blocks = totalSize others := by
  induction h with
  | nil => rfl
  | cons block _ ih => rw [totalSize, totalSize, ih]
  | swap first second rest => simp only [totalSize, Nat.add_left_comm]
  | trans _ _ ih ih' => exact ih.trans ih'

/-- The same block, but for the order in which inputs stand, its own or those of blocks in it. -/
inductive Rearranged : Block → Block → Prop
  | refl (block : Block) : Rearranged block block
  | trans {a b c : Block} : Rearranged a b → Rearranged b c → Rearranged a c
  | inputs {kind id : String} {fields : List (String × String)}
    {inputs others : List (String × Block)} {next : Option Block} : inputs.Perm others →
    Rearranged ⟨kind, id, fields, inputs, next⟩ ⟨kind, id, fields, others, next⟩
  | plugged {kind id name : String} {fields : List (String × String)}
    {before after : List (String × Block)} {child other : Block} {next : Option Block} :
    Rearranged child other →
    Rearranged ⟨kind, id, fields, before ++ (name, child) :: after, next⟩
      ⟨kind, id, fields, before ++ (name, other) :: after, next⟩
  | following {kind id : String} {fields : List (String × String)}
    {inputs : List (String × Block)} {next other : Block} : Rearranged next other →
    Rearranged ⟨kind, id, fields, inputs, some next⟩ ⟨kind, id, fields, inputs, some other⟩

theorem Rearranged.names {block other : Block} (h : Rearranged block other) :
    block.namesWithin.Perm other.namesWithin := by
  induction h with
  | refl block => exact .refl _
  | trans _ _ ih ih' => exact ih.trans ih'
  | inputs hp =>
    simp only [namesWithin, namesPlugged_eq]
    exact (((hp.map Prod.snd).flatMap_right namesWithin).append_right _).append_left _
  | plugged _ ih =>
    simp only [namesWithin, namesPlugged_eq, namesIn, List.map_append, List.map_cons,
      List.flatMap_append, List.flatMap_cons]
    exact (((ih.append_right _).append_left _).append_right _).append_left _
  | following _ ih =>
    simp only [namesWithin, namesFollowing]
    exact (ih.append_left _).append_left _

theorem namesIn_rearranged {blocks arranged : List Block}
    (h : List.Forall₂ Rearranged blocks arranged) : (namesIn blocks).Perm (namesIn arranged) := by
  induction h with
  | nil => exact .refl _
  | cons hfirst _ ih =>
    rw [namesIn, namesIn, List.flatMap_cons, List.flatMap_cons]
    exact hfirst.names.append ih

end Block

namespace Draft

/-- The name that a block reads is taken, if it reads one. -/
def addRead (draft : Draft) (block : Block) : Draft :=
  match block.readName? with
  | none => draft
  | some name => draft.addVariable name

theorem addVariables_eq_foldl (draft : Draft) (program : List Block) :
    draft.addVariables program = (Block.everyBlock program).foldl addRead draft := by
  rw [addVariables, Block.variablesRead, List.foldl_filterMap]
  congr 1
  funext draft block
  unfold addRead
  cases block.readName? <;> rfl

/-- Afterwards just the names that the program reads are variables, and taken, in addition. -/
structure Gathers (draft : Draft) (program : List Block) (after : Draft) : Prop where
  variableNames : ∀ name,
    name ∈ after.variableNames ↔ name ∈ draft.variableNames ∨ name ∈ Block.namesIn program
  taken : ∀ name, name ∈ after.taken ↔ name ∈ draft.taken ∨ name ∈ Block.namesIn program
  frame : ∃ variableNames taken, after = { draft with variableNames, taken }

theorem Gathers.of_perm {draft after : Draft} {program others : List Block}
    (h : (Block.namesIn program).Perm (Block.namesIn others)) (hg : draft.Gathers others after) :
    draft.Gathers program after where
  variableNames name := by rw [hg.variableNames, h.mem_iff]
  taken name := by rw [hg.taken, h.mem_iff]
  frame := hg.frame

end Draft

/-- A search for variables: what it has found, and the blocks that it still has to look at. -/
structure Search where
  draft : Draft
  waiting : List Block

namespace Search

open Block (totalSize namesIn)

/-- Any block that waits can have its turn. The blocks plugged into it and the one after it wait in
its place, and it does not matter where among the others. -/
inductive Round : Search → Search → Prop
  | turn {draft : Draft} {block : Block} {waiting rest later : List Block} :
    waiting.Perm (block :: rest) → later.Perm (block.children ++ rest) →
    Round ⟨draft, waiting⟩ ⟨draft.addRead block, later⟩

inductive Rounds : Nat → Search → Search → Prop
  | refl (search : Search) : Rounds 0 search search
  | head {n : Nat} {a b c : Search} : Round a b → Rounds n b c → Rounds (n + 1) a c

/-- What a search has found or can still find is the same, and so is all that it does not seek. -/
structure Agrees (a b : Search) : Prop where
  variableNames : ∀ name, name ∈ a.draft.variableNames ∨ name ∈ namesIn a.waiting ↔
    name ∈ b.draft.variableNames ∨ name ∈ namesIn b.waiting
  taken : ∀ name, name ∈ a.draft.taken ∨ name ∈ namesIn a.waiting ↔
    name ∈ b.draft.taken ∨ name ∈ namesIn b.waiting
  frame : ∃ variableNames taken, b.draft = { a.draft with variableNames, taken }

theorem Agrees.refl (search : Search) : Agrees search search :=
  ⟨fun _ => Iff.rfl, fun _ => Iff.rfl, _, _, rfl⟩

theorem Agrees.trans {a b c : Search} (hab : Agrees a b) (hbc : Agrees b c) : Agrees a c where
  variableNames name := (hab.variableNames name).trans (hbc.variableNames name)
  taken name := (hab.taken name).trans (hbc.taken name)
  frame := by
    obtain ⟨_, _, hb⟩ := hab.frame
    obtain ⟨variableNames, taken, hc⟩ := hbc.frame
    exact ⟨variableNames, taken, by rw [hc, hb]⟩

/-- The names of the waiting blocks are those of the block whose turn it is and of those that wait
afterwards. -/
theorem Round.agrees {a b : Search} (h : Round a b) : Agrees a b := by
  cases h with
  | @turn draft block waiting rest later hw hl =>
    have hnames (name : String) :
        name ∈ namesIn waiting ↔ block.readName? = some name ∨ name ∈ namesIn later := by
      rw [namesIn, (hw.flatMap_right _).mem_iff, namesIn, (hl.flatMap_right _).mem_iff,
        List.flatMap_cons, Block.namesWithin_eq, List.flatMap_append]
      simp only [List.mem_append, Option.mem_toList, or_assoc, namesIn]
    cases hr : block.readName? with
    | none =>
      have hd : draft.addRead block = draft := by rw [Draft.addRead, hr]
      simp only [hr, reduceCtorEq, false_or] at hnames
      refine ⟨fun name => ?_, fun name => ?_, ⟨_, _, hd⟩⟩
      · rw [hd, hnames]
      · rw [hd, hnames]
    | some found =>
      have hd : draft.addRead block = draft.addVariable found := by rw [Draft.addRead, hr]
      simp only [hr, Option.some.injEq, eq_comm (a := found)] at hnames
      refine ⟨fun name => ?_, fun name => ?_, ⟨_, _, hd⟩⟩
      · rw [hd, hnames, Draft.addVariable, Draft.mem_addName, or_assoc]
      · rw [hd, hnames, Draft.addVariable, Draft.mem_addName, or_assoc]

/-- With every round there is one block less to look at, all told. -/
theorem Round.size {a b : Search} (h : Round a b) :
    totalSize a.waiting = totalSize b.waiting + 1 := by
  cases h with
  | @turn draft block waiting rest later hw hl =>
    rw [Block.totalSize_perm hw, Block.totalSize_perm hl, totalSize, Block.size_eq,
      Block.totalSize_append]
    omega

theorem exists_round {search : Search} (h : search.waiting ≠ []) : ∃ later, Round search later := by
  obtain ⟨draft, waiting⟩ := search
  cases waiting with
  | nil => exact absurd rfl h
  | cons block rest => exact ⟨_, .turn (.refl _) (.refl _)⟩

theorem Rounds.agrees {a b : Search} (h : Rounds n a b) : Agrees a b := by
  induction h with
  | refl search => exact .refl search
  | head hr _ ih => exact hr.agrees.trans ih

theorem Rounds.size {a b : Search} (h : Rounds n a b) :
    n + totalSize b.waiting = totalSize a.waiting := by
  induction h with
  | refl search => exact Nat.zero_add _
  | head hr _ ih =>
    rw [hr.size]
    omega

/-- Looking at the blocks one after the other is a search that looks at the first of them first. -/
theorem rounds_everyBlock (draft : Draft) (program : List Block) :
    Rounds (totalSize program) ⟨draft, program⟩
      ⟨(Block.everyBlock program).foldl Draft.addRead draft, []⟩ := by
  fun_induction Block.everyBlock program generalizing draft with
  | case1 => exact .refl _
  | case2 block waiting ih =>
    have hround : Round ⟨draft, block :: waiting⟩
        ⟨draft.addRead block, block.children ++ waiting⟩ := .turn (.refl _) (.refl _)
    rw [hround.size]
    exact .head hround (ih _)

/-- When no block waits any more, all has been found. -/
theorem Rounds.gathers {draft after : Draft} {program : List Block}
    (h : Rounds n ⟨draft, program⟩ ⟨after, []⟩) : draft.Gathers program after where
  variableNames name := by simpa [namesIn] using (h.agrees.variableNames name).symm
  taken name := by simpa [namesIn] using (h.agrees.taken name).symm
  frame := h.agrees.frame

/-- Whatever the order of the stacks, of the inputs and of the turns, a search ends, with the old
names and just those that are read somewhere in the blocks. -/
theorem every_search_gathers (draft : Draft) (program : List Block) :
    (∀ n found, Rounds n ⟨draft, program⟩ found →
      n + totalSize found.waiting = totalSize program ∧
      (found.waiting ≠ [] → ∃ later, Round found later)) ∧
    (∀ arranged others, List.Forall₂ Block.Rearranged program arranged → arranged.Perm others →
      (∀ n after, Rounds n ⟨draft, others⟩ ⟨after, []⟩ → draft.Gathers program after) ∧
      Rounds (totalSize others) ⟨draft, others⟩ ⟨draft.addVariables others, []⟩) ∧
    (∀ name, name ∈ namesIn program ↔
      ∃ block, Block.InProgram block program ∧ block.kind = "variables_get" ∧
        block.field? "VAR" = some name ∧ name ≠ "") ∧
    ∀ before block, Round ⟨draft, before ++ [block]⟩
      ⟨draft.addRead block, before ++ block.inputs.map Prod.snd ++ block.next.toList⟩ := by
  refine ⟨?_, ?_, fun _ => Block.mem_namesIn, ?_⟩
  · intro n found h
    exact ⟨h.size, exists_round⟩
  · intro arranged others harranged hperm
    have hnames : (namesIn program).Perm (namesIn others) :=
      (Block.namesIn_rearranged harranged).trans (hperm.flatMap_right _)
    refine ⟨fun n after h => .of_perm hnames h.gathers, ?_⟩
    rw [Draft.addVariables_eq_foldl]
    exact rounds_everyBlock draft others
  · intro before block
    refine .turn (List.perm_append_singleton block before) ?_
    rw [List.append_assoc]
    exact List.perm_append_comm

end Search

end BlockSketch
