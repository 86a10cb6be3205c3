import BlockSketch.Proofs.Compiler.Code
import BlockSketch.Proofs.Names.Allotment

namespace BlockSketch

namespace Block

def evaluatedNode (block : Block) (plugged : String → Option (Block × List Block)) : List Block :=
  let input (name : String) : List Block := ((plugged name).map Prod.snd).getD []
  match block.role? with
  | some .arithmetic => input "A" ++ (input "B" ++ [block])
  | some .transfer | some .transferAnswer => input dataInput ++ [block]
  | _ => [block]

/-- The blocks that are evaluated for a block, each once, and each after what is plugged into it. -/
def evaluated (block : Block) : List Block := block.fold evaluatedNode

def evaluatedAt (block : Block) (input : String) : List Block := atInput [] evaluated block input

theorem evaluated_eq (block : Block) :
    block.evaluated =
      match block.role? with
      | some .arithmetic => block.evaluatedAt "A" ++ (block.evaluatedAt "B" ++ [block])
      | some .transfer | some .transferAnswer => block.evaluatedAt dataInput ++ [block]
      | _ => [block] := by
  rw [evaluated, fold_eq]
  simp only [evaluatedNode, map_snd_plugged]
  rfl

end Block

namespace Compiler

/-- The first block that wants an answer from a pin stands for all later ones. -/
def note (table : Table Block) (block : Block) : Table Block :=
  match block.answerPin? with
  | none => table
  | some pin => table.putNew pin block

def noteAll (table : Table Block) (blocks : List Block) : Table Block := blocks.foldl note table

/-- The pins that need a helper, each with the block that is the first to be complete of those that
want an answer from it. -/
def answers (program : List Block) : Table Block :=
  noteAll [] ((Block.statements program).flatMap Block.evaluated)

def names (program : List Block) : List String :=
  Identifier.freshAll ((answers program).keys.map Bus.helperWish)
    (reservedNames ++ Block.variablesRead program)

def nameOf (program : List Block) (pin : String) : String :=
  (Table.get? ((answers program).keys.zip (names program)) pin).getD ""

def helper (names : String → String) (answer : String × Block) : String × Helper :=
  (Bus.helperWish answer.1, ⟨names answer.1, Text.substitute Draft.namePlaceholder (names answer.1)
    (Bus.helperCode answer.1 (answer.2.dataCode names))⟩)

def loop (program : List Block) : String :=
  String.join ((Block.statements program).map fun block => loopCode (code (nameOf program) block))

theorem entry_helper (names : String → String) (answer : String × Block) :
    Entry names answer (helper names answer) where
  wish := rfl
  name := rfl
  body := by
    have hne : Draft.namePlaceholder ≠ "" := by decide
    obtain ⟨pieces, hs⟩ := Text.exists_scanned hne
      (Bus.helperCode answer.1 (answer.2.dataCode names))
    refine ⟨pieces, ?_, hs.substitute hne (names answer.1)⟩
    rw [dataCode_eq]
    rwa [Bus.helperCode, Bus.helperLines_answer] at hs

theorem loop_eq (program : List Block) :
    loop program = Block.loopText (nameOf program) program := by
  have hsequence (names : String → String) (blocks : List Block) :
      String.join (blocks.map fun block => loopCode (code names block)) =
        Block.sequenceText names blocks := by
    induction blocks with
    | nil => rfl
    | cons block rest ih =>
      have hfirst : loopCode (code names block) = (block.written names).asStatement := by
        rw [code_eq_written]
        cases block.written names <;> rfl
      rw [List.map_cons, String.join_cons, ih, hfirst, Block.sequenceText]
  exact hsequence _ _

theorem note_of_none {block : Block} (h : block.answerPin? = none) (table : Table Block) :
    note table block = table := by
  simp only [note, h]

theorem note_of_known {table : Table Block} {block : Block} (h : block.answerPin? = some pin)
    (hk : pin ∈ table.keys) : note table block = table := by
  simp only [note, h]
  exact Table.putNew_of_mem hk block

theorem note_of_new {table : Table Block} {block : Block} (h : block.answerPin? = some pin)
    (hn : pin ∉ table.keys) : note table block = table ++ [(pin, block)] := by
  simp only [note, h]
  exact Table.alter_of_missing (Table.get?_eq_none_iff.mpr hn)

theorem noteAll_append (table : Table Block) (blocks more : List Block) :
    noteAll table (blocks ++ more) = noteAll (noteAll table blocks) more :=
  List.foldl_append

theorem noteAll_singleton (table : Table Block) (block : Block) :
    noteAll table [block] = note table block := rfl

theorem note_extends (table : Table Block) (block : Block) : table <+: note table block := by
  cases h : block.answerPin? with
  | none => simp [note_of_none h]
  | some pin =>
    by_cases hk : pin ∈ table.keys
    · simp [note_of_known h hk]
    · rw [note_of_new h hk]
      exact List.prefix_append _ _

theorem noteAll_extends (table : Table Block) (blocks : List Block) :
    table <+: noteAll table blocks := by
  induction blocks generalizing table with
  | nil => exact List.prefix_rfl
  | cons block rest ih => exact (note_extends table block).trans (ih _)

theorem mem_keys_note {block : Block} (h : block.answerPin? = some pin) (table : Table Block) :
    pin ∈ (note table block).keys := by
  by_cases hk : pin ∈ table.keys
  · rwa [note_of_known h hk]
  · simp [note_of_new h hk, Table.keys]

/-- Afterwards every pin from which one of the blocks wants an answer is there. -/
theorem mem_keys_noteAll {blocks : List Block} {block : Block} (hm : block ∈ blocks)
    (h : block.answerPin? = some pin) (table : Table Block) :
    pin ∈ (noteAll table blocks).keys := by
  obtain ⟨before, after, rfl⟩ := List.append_of_mem hm
  rw [noteAll_append]
  have hk := mem_keys_note h (noteAll table before)
  exact ((noteAll_extends _ after).map Prod.fst).subset hk

theorem noteAll_of_known {table : Table Block} {blocks : List Block}
    (h : ∀ block ∈ blocks, ∀ pin, block.answerPin? = some pin → pin ∈ table.keys) :
    noteAll table blocks = table := by
  induction blocks with
  | nil => rfl
  | cons block rest ih =>
    have hb : note table block = table := by
      cases ha : block.answerPin? with
      | none => exact note_of_none ha table
      | some pin => exact note_of_known ha (h block List.mem_cons_self pin ha)
    rw [noteAll, List.foldl_cons, hb]
    exact ih fun other hm => h other (List.mem_cons_of_mem _ hm)

/-- To note the same blocks again changes nothing. -/
theorem noteAll_again (table : Table Block) (blocks : List Block) :
    noteAll (noteAll table blocks) blocks = noteAll table blocks :=
  noteAll_of_known fun _ hm _ ha => mem_keys_noteAll hm ha table

theorem note_keys_nodup {table : Table Block} (h : table.keys.Nodup) (block : Block) :
    (note table block).keys.Nodup := by
  cases ha : block.answerPin? with
  | none => rwa [note_of_none ha]
  | some pin =>
    by_cases hk : pin ∈ table.keys
    · rwa [note_of_known ha hk]
    · rw [note_of_new ha hk, Table.keys, List.map_append, List.nodup_append]
      refine ⟨h, by simp, ?_⟩
      rintro a hm b hb rfl
      simp only [List.map_cons, List.map_nil, List.mem_singleton] at hb
      exact hk (hb ▸ hm)

theorem answers_keys_nodup (program : List Block) : (answers program).keys.Nodup := by
  have hall (blocks : List Block) :
      ∀ table : Table Block, table.keys.Nodup → (noteAll table blocks).keys.Nodup := by
    induction blocks with
    | nil => exact fun _ h => h
    | cons block rest ih => exact fun table h => ih _ (note_keys_nodup h block)
  exact hall _ [] (by simp [Table.keys])

theorem map_nameOf (program : List Block) :
    (answers program).keys.map (nameOf program) = names program := by
  apply Table.map_get?_zip (answers_keys_nodup program)
  simp only [names, Identifier.length_freshAll, List.length_map]

/-- Each name is the first variant of the wish for its pin that is neither reserved nor read by the
program nor the name of an earlier helper. -/
theorem nameOf_leastFree {program : List Block} {before after : List String}
    (h : (answers program).keys = before ++ pin :: after) :
    Identifier.LeastFree (Bus.helperWish pin)
      (reservedNames ++ Block.variablesRead program ++ before.map (nameOf program))
      (nameOf program pin) := by
  have hm := map_nameOf program
  rw [names, h, List.map_append, List.map_append, List.map_cons, List.map_cons,
    Identifier.freshAll_append] at hm
  have hl : (before.map (nameOf program)).length = (Identifier.freshAll (before.map Bus.helperWish)
      (reservedNames ++ Block.variablesRead program)).length := by
    simp only [Identifier.length_freshAll, List.length_map]
  obtain ⟨hb, hc⟩ := List.append_inj hm hl
  rw [Identifier.freshAll, List.cons.injEq] at hc
  rw [hc.1, hb]
  apply (Identifier.fresh_leastFree _ _).congr
  intro candidate
  simp only [List.mem_append, List.mem_reverse]
  grind

end Compiler

end BlockSketch
