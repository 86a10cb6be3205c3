import BlockSketch.Proofs.Compiler.Simulation
import BlockSketch.Proofs.Calls.Meaning

namespace BlockSketch

namespace Compiler

/-- The data of each answer calls only helpers for pins that stand before its own. -/
def Ordered (table : Table Block) : Prop :=
  ∀ before pin block after, table = before ++ (pin, block) :: after →
    ∀ called ∈ block.calledAt Block.dataInput, called ∈ Table.keys before

theorem Ordered.note {table : Table Block} {block : Block} (h : Ordered table)
    (hc : ∀ called ∈ block.calledAt Block.dataInput, called ∈ table.keys) :
    Ordered (note table block) := by
  cases ha : block.answerPin? with
  | none => rwa [note_of_none ha]
  | some pin =>
    by_cases hk : pin ∈ table.keys
    · rwa [note_of_known ha hk]
    · rw [note_of_new ha hk]
      intro before other answer after he
      rcases List.eq_nil_or_concat after with rfl | ⟨rest, last, rfl⟩
      · -- The entry is the new one.
        obtain ⟨rfl, hl⟩ := List.append_inj' he rfl
        cases hl
        exact hc
      · rw [List.concat_eq_append, ← List.cons_append, ← List.append_assoc] at he
        obtain ⟨rfl, -⟩ := List.append_inj' he rfl
        exact h before other answer rest rfl

theorem Ordered.noteAll {block : Block} {table : Table Block} (h : Ordered table) :
    Ordered (noteAll table block.evaluated) := by
  induction block using Block.induct_inputs generalizing table with
  | node block ih =>
    have hi {table : Table Block} (input : String) (h : Ordered table) :
        Ordered (Compiler.noteAll table (block.evaluatedAt input)) := by
      cases hc : block.input? input with
      | none => rwa [Block.evaluatedAt, Block.atInput_of_none hc]
      | some child =>
        rw [Block.evaluatedAt, Block.atInput_of_some hc]
        exact ih input child hc h
    have hn {table : Table Block} (ha : block.answerPin? = none) (h : Ordered table) :
        Ordered (Compiler.noteAll table [block]) := by
      rwa [noteAll_singleton, note_of_none ha]
    rw [Block.evaluated_eq]
    cases hr : block.role? with
    | none => exact hn (by simp [Block.answerPin?_eq, hr]) h
    | some role =>
      cases role with
      | busSetup | number | variableRead => exact hn (by simp [Block.answerPin?_eq, hr]) h
      | arithmetic =>
        simp only [noteAll_append]
        exact hn (by simp [Block.answerPin?_eq, hr]) (hi "B" (hi "A" h))
      | transfer =>
        simp only [noteAll_append]
        exact hn (by simp [Block.answerPin?_eq, hr]) (hi Block.dataInput h)
      | transferAnswer =>
        simp only [noteAll_append]
        refine (hi Block.dataInput h).note ?_
        intro called hm
        obtain ⟨inner, he, ha⟩ := Block.exists_evaluatedAt_of_called called hm
        exact mem_keys_noteAll he ha table

theorem ordered_answers (program : List Block) : Ordered (answers program) := by
  have hall (blocks : List Block) : ∀ table, Ordered table →
      Ordered (noteAll table (blocks.flatMap Block.evaluated)) := by
    induction blocks with
    | nil => exact fun _ h => h
    | cons block rest ih =>
      intro table h
      rw [List.flatMap_cons, noteAll_append]
      exact ih _ h.noteAll
  apply hall
  intro before pin block after he
  simp at he

theorem idxOf_lt_of_nodup {before after : List String} {first last : String}
    (hd : (before ++ last :: after).Nodup) (hm : first ∈ before) :
    (before ++ last :: after).idxOf first < (before ++ last :: after).idxOf last := by
  have hnot : last ∉ before := fun hin =>
    (List.nodup_append.mp hd).2.2 _ hin _ List.mem_cons_self rfl
  rw [List.idxOf_append, List.idxOf_append, if_pos hm, if_neg hnot]
  have hl := List.idxOf_lt_length_of_mem hm
  omega

/-- The pins whose helpers an answer's data calls stand before the pin of the answer. -/
theorem called_before {program : List Block} (h : (pin, block) ∈ answers program)
    (hc : called ∈ block.calledAt Block.dataInput) :
    called ∈ (answers program).keys ∧
      (answers program).keys.idxOf called < (answers program).keys.idxOf pin := by
  obtain ⟨before, after, hs⟩ := List.append_of_mem h
  have hk := ordered_answers program before pin block after hs called hc
  have hkeys : (answers program).keys = Table.keys before ++ pin :: Table.keys after := by
    rw [hs]
    simp [Table.keys]
  have hd := answers_keys_nodup program
  rw [hkeys] at hd ⊢
  exact ⟨List.mem_append_left _ hk, idxOf_lt_of_nodup hd hk⟩

/-- An answer in the table is one of the blocks that were noted. -/
theorem mem_noteAll {table : Table Block} {blocks : List Block}
    (h : (pin, block) ∈ noteAll table blocks) :
    (pin, block) ∈ table ∨ block ∈ blocks ∧ block.answerPin? = some pin := by
  induction blocks generalizing table with
  | nil => exact Or.inl h
  | cons first rest ih =>
    rcases ih h with hm | ⟨hm, ha⟩
    · cases hf : first.answerPin? with
      | none =>
        rw [note_of_none hf] at hm
        exact Or.inl hm
      | some own =>
        by_cases hk : own ∈ table.keys
        · rw [note_of_known hf hk] at hm
          exact Or.inl hm
        · rw [note_of_new hf hk, List.mem_append, List.mem_singleton] at hm
          rcases hm with hm | hm
          · exact Or.inl hm
          · cases hm
            exact Or.inr ⟨List.mem_cons_self, hf⟩
    · exact Or.inr ⟨List.mem_cons_of_mem _ hm, ha⟩

theorem mem_answers {program : List Block} (h : (pin, block) ∈ answers program) :
    block.answerPin? = some pin ∧
      ∃ statement ∈ Block.statements program, block ∈ statement.evaluated := by
  rcases mem_noteAll h with hm | ⟨hm, ha⟩
  · simp at hm
  · exact ⟨ha, List.mem_flatMap.mp hm⟩

end Compiler

namespace Plan

theorem fault_of_inOrder {plans : List Plan} (h : (inOrder plans).fault = none) :
    ∀ plan ∈ plans, plan.fault = none := by
  induction plans with
  | nil => simp
  | cons plan rest ih =>
    rw [inOrder, andThen_fault_eq_none] at h
    intro other hm
    rcases List.mem_cons.mp hm with rfl | hm
    · exact h.1
    · exact ih h.2 other hm

end Plan

namespace Draft

/-- The lines of some of the helpers, each helper with the blank line after it. -/
def linesOf (helpers : Table Helper) : List String :=
  helpers.values.flatMap fun helper => Text.lines helper.body ++ [""]

theorem helperLines_eq (draft : Draft) : draft.helperLines = linesOf draft.helpers := rfl

theorem linesOf_append (before : Table Helper) (entry : String × Helper) (after : Table Helper) :
    linesOf (before ++ entry :: after) =
      linesOf before ++ (Text.lines entry.2.body ++ [""] ++ linesOf after) := by
  simp [linesOf, Table.values]

/-- Helpers are written in the order in which they stand. -/
theorem helperLines_inOrder {draft : Draft} {before after : Table Helper}
    {callee entry : String × Helper} (h : draft.helpers = before ++ entry :: after)
    (hm : callee ∈ before) :
    ∃ first second third, draft.helperLines =
      first ++ Text.lines callee.2.body ++ second ++ Text.lines entry.2.body ++ third := by
  obtain ⟨earlier, between, rfl⟩ := List.append_of_mem hm
  refine ⟨linesOf earlier, [""] ++ linesOf between, [""] ++ linesOf after, ?_⟩
  rw [helperLines_eq, h, linesOf_append, linesOf_append]
  simp only [List.append_assoc]

end Draft

namespace Program

variable {program : Program} {loop : String} {draft : Draft}

theorem fault_of_statement (h : program.plan.fault = none)
    {statement : Block} (hm : statement ∈ Block.statements program.blocks) :
    statement.plan.fault = none :=
  Plan.fault_of_inOrder h _ (List.mem_map_of_mem hm)

/-- The blocks that a pass evaluates, each once, and each after what is plugged into it. -/
def evaluated (program : Program) : List Block :=
  (Block.statements program.blocks).flatMap Block.evaluated

theorem fault_of_evaluated (h : program.plan.fault = none) {block : Block}
    (hm : block ∈ program.evaluated) : block.plan.fault = none := by
  obtain ⟨statement, hs, he⟩ := List.mem_flatMap.mp hm
  exact Block.fault_of_evaluated (fault_of_statement h hs) he

theorem evaluated_of_answer (h : (pin, block) ∈ Compiler.answers program.blocks) :
    block ∈ program.evaluated ∧ block.role? = some .transferAnswer := by
  obtain ⟨ha, statement, hs, he⟩ := Compiler.mem_answers h
  exact ⟨List.mem_flatMap.mpr ⟨statement, hs, he⟩, Block.role?_of_answerPin? ha⟩

theorem fault_of_answer (h : program.plan.fault = none)
    (hm : (pin, block) ∈ Compiler.answers program.blocks) : block.plan.fault = none :=
  fault_of_evaluated h (evaluated_of_answer hm).1

/-- What the data of a transfer calls has a helper. -/
theorem known_of_called {block : Block} (hm : block ∈ program.evaluated)
    (hr : block.role? = some .transfer ∨ block.role? = some .transferAnswer) :
    ∀ called ∈ block.calledAt Block.dataInput, called ∈ (Compiler.answers program.blocks).keys := by
  intro called hc
  obtain ⟨statement, hs, he⟩ := List.mem_flatMap.mp hm
  obtain ⟨inner, hi, ha⟩ := Block.exists_evaluatedAt_of_called called hc
  have hb : inner ∈ block.evaluated := by
    rw [Block.evaluated_eq]
    rcases hr with hr | hr
    all_goals
      rw [hr]
      exact List.mem_append_left _ hi
  exact Compiler.mem_keys_noteAll
    (List.mem_flatMap.mpr ⟨statement, hs, Block.evaluated_trans he hb⟩) ha []

/-- The calls that stand in the code of a helper's data, by name. -/
def HelperCalls (program : Program) (names : String → String) (caller callee : String) : Prop :=
  ∃ pin block, (pin, block) ∈ Compiler.answers program.blocks ∧ caller = names pin ∧
    callee ∈ (block.denotedAt names "SPI_DATA").calledNames

/-- A name that the data of a helper calls is that of an earlier pin. -/
theorem called_earlier (h : program.plan.fault = none)
    {before after : Table Block}
    (hs : Compiler.answers program.blocks = before ++ (pin, block) :: after)
    {names : String → String} :
    ∀ name ∈ (block.denotedAt names "SPI_DATA").calledNames,
      ∃ called ∈ before.keys, name = names called := by
  intro name hn
  have hm : (pin, block) ∈ Compiler.answers program.blocks := by simp [hs]
  have hd := Block.calledNames_data (fault_of_answer h hm) (Or.inr (evaluated_of_answer hm).2) names
  rw [Block.dataInput] at hd
  rw [hd] at hn
  obtain ⟨called, hc, rfl⟩ := List.mem_map.mp hn
  exact ⟨called, Compiler.ordered_answers _ before pin block after hs called hc, rfl⟩

theorem pass_helpers (h : program.pass = .ok loop draft) :
    draft.helpers =
      (Compiler.answers program.blocks).map (Compiler.helper draft.helperName) :=
  pass_mirrors h

theorem pass_helperNames (h : program.pass = .ok loop draft) :
    draft.helperNames = (Compiler.answers program.blocks).keys.map draft.helperName := by
  rw [Draft.helperNames, pass_helpers h]
  simp only [Table.values, Table.keys, List.map_map]
  rfl

theorem mem_helpers_of_answer (h : program.pass = .ok loop draft)
    (hm : (pin, block) ∈ Compiler.answers program.blocks) :
    Compiler.helper draft.helperName (pin, block) ∈ draft.helpers := by
  rw [pass_helpers h]
  exact List.mem_map_of_mem hm

theorem pass_distinct (h : program.pass = .ok loop draft) : draft.helperNames.Nodup := by
  have hs := program.pass_steps
  rw [h, Drafting.draftLeft] at hs
  exact (program.firstDraft_reachable.steps hs).named.distinct

theorem isValid_helperName
    (h : program.pass = .ok loop draft) (hk : pin ∈ (Compiler.answers program.blocks).keys) :
    Identifier.IsValid (draft.helperName pin) := by
  have hs := program.pass_steps
  rw [h, Drafting.draftLeft] at hs
  apply (program.firstDraft_reachable.steps hs).named.valid
  rw [pass_helperNames h]
  exact List.mem_map_of_mem hk

/-- A helper is called by helpers further back only. -/
theorem HelperCalls.idxOf_lt (h : program.pass = .ok loop draft) {caller callee : String}
    (hc : program.HelperCalls draft.helperName caller callee) :
    draft.helperNames.idxOf callee < draft.helperNames.idxOf caller := by
  obtain ⟨pin, block, hm, rfl, hn⟩ := hc
  obtain ⟨before, after, hs⟩ := List.append_of_mem hm
  obtain ⟨called, hk, rfl⟩ := called_earlier (pass_eq_ok.mp h).1 hs _ hn
  have hnames : draft.helperNames = (Table.keys before).map draft.helperName ++
      draft.helperName pin :: (Table.keys after).map draft.helperName := by
    rw [pass_helperNames h, hs]
    simp [Table.keys]
  have hd := pass_distinct h
  rw [hnames] at hd ⊢
  exact Compiler.idxOf_lt_of_nodup hd (List.mem_map_of_mem hk)

theorem not_calls_itself (h : program.pass = .ok loop draft) (name : String) :
    ¬ Relation.TransGen (program.HelperCalls draft.helperName) name name := by
  have hlt {caller callee : String}
      (hc : Relation.TransGen (program.HelperCalls draft.helperName) caller callee) :
      draft.helperNames.idxOf callee < draft.helperNames.idxOf caller := by
    induction hc with
    | single hc => exact hc.idxOf_lt h
    | tail _ hc ih => exact Nat.lt_trans (hc.idxOf_lt h) ih
  exact fun hc => Nat.lt_irrefl _ (hlt hc)

/-- Every expression of the loop calls helpers that are there, each under a name of its own. -/
theorem called_once (h : program.pass = .ok loop draft) {statement : Block}
    (hm : statement ∈ Block.statements program.blocks) :
    ∀ name ∈ (statement.expression draft.helperName).calledNames,
      draft.helperNames.count name = 1 := by
  intro name hn
  rw [Block.calledNames_expression (fault_of_statement (pass_eq_ok.mp h).1 hm)] at hn
  obtain ⟨pin, hp, rfl⟩ := List.mem_map.mp hn
  obtain ⟨inner, he, ha⟩ := Block.exists_evaluated_of_called statement pin hp
  have hk : pin ∈ (Compiler.answers program.blocks).keys :=
    Compiler.mem_keys_noteAll (List.mem_flatMap.mpr ⟨statement, hm, he⟩) ha []
  have hin : draft.helperName pin ∈ draft.helperNames := by
    rw [pass_helperNames h]
    exact List.mem_map_of_mem hk
  rw [(pass_distinct h).count, if_pos hin]

/-- In the helpers that a pass leaves, each stands behind all that its data calls, also where they
are written; so none comes back to itself by any number of calls. And what the loop calls is the
name of one helper and no other. -/
theorem helpers_call_earlier (h : program.pass = .ok loop draft) :
    (∀ before entry after, draft.helpers = before ++ entry :: after →
      ∃ pin block, (pin, block) ∈ Compiler.answers program.blocks ∧
        entry = Compiler.helper draft.helperName (pin, block) ∧
        ∀ name ∈ (block.denotedAt draft.helperName "SPI_DATA").calledNames,
          ∃ callee ∈ before, callee.2.name = name ∧
            ∃ first second third, draft.helperLines =
              first ++ Text.lines callee.2.body ++ second ++ Text.lines entry.2.body ++ third) ∧
    (∀ name, ¬ Relation.TransGen (program.HelperCalls draft.helperName) name name) ∧
    (∀ statement ∈ Block.statements program.blocks,
      ∀ name ∈ (statement.expression draft.helperName).calledNames,
        draft.helperNames.count name = 1) := by
  refine ⟨?_, not_calls_itself h, fun statement hm => called_once h hm⟩
  intro before entry after hs
  obtain ⟨first, rest, ha, rfl, hr⟩ := List.map_eq_append_iff.mp ((pass_helpers h).symm.trans hs)
  obtain ⟨⟨pin, block⟩, last, rfl, rfl, rfl⟩ := List.map_eq_cons_iff.mp hr
  refine ⟨pin, block, by simp [ha], rfl, ?_⟩
  intro name hn
  obtain ⟨called, hk, rfl⟩ := called_earlier (pass_eq_ok.mp h).1 ha name hn
  obtain ⟨⟨other, answer⟩, hm, rfl⟩ := List.mem_map.mp hk
  have hcallee : Compiler.helper draft.helperName (other, answer) ∈
      first.map (Compiler.helper draft.helperName) := List.mem_map_of_mem hm
  exact ⟨_, hcallee, rfl, Draft.helperLines_inOrder hs hcallee⟩

/-- A byte goes from one device to the next and the loop hands it to a third. -/
def relay : Program where
  blocks := [
    ⟨"spi_transfer", "", [("SPI_SS", "10")], [("SPI_DATA", ⟨"spi_transfer_return", "",
      [("SPI_SS", "8")], [("SPI_DATA", ⟨"spi_transfer_return", "", [("SPI_SS", "9")], [],
        none⟩)], none⟩)], none⟩]
  board := .uno
  mode := .warn

theorem relay_pass : relay.pass = .ok
    "digitalWrite(10, HIGH);\nSPI.transfer((spiReturnSlave8()));\ndigitalWrite(10, LOW);\n"
    (relay.plan.after relay.firstDraft) :=
  pass_eq_ok.mpr ⟨by decide +kernel, rfl, by decide +kernel⟩

theorem relay_calls_earlier :
    let draft := relay.plan.after relay.firstDraft
    (∃ first second, draft.helpers = [first, second] ∧
      first.1 = "spiReturnSlave9" ∧ second.1 = "spiReturnSlave8" ∧
      ∃ pin block, (pin, block) ∈ Compiler.answers relay.blocks ∧
        second = Compiler.helper draft.helperName (pin, block) ∧
        ∀ name ∈ (block.denotedAt draft.helperName "SPI_DATA").calledNames,
          first.2.name = name) ∧
    ¬ Relation.TransGen (relay.HelperCalls draft.helperName) "spiReturnSlave8" "spiReturnSlave8" ∧
    draft.helperNames.count "spiReturnSlave8" = 1 := by
  obtain ⟨hearlier, hacyclic, hloop⟩ := helpers_call_earlier relay_pass
  refine ⟨?_, hacyclic _, ?_⟩
  · have hk : (relay.plan.after relay.firstDraft).helpers.keys =
        ["spiReturnSlave9", "spiReturnSlave8"] := by decide +kernel
    obtain ⟨first, rest, hf, hfk, hr⟩ := List.map_eq_cons_iff.mp hk
    obtain ⟨second, last, rfl, hsk, hl⟩ := List.map_eq_cons_iff.mp hr
    obtain rfl := List.map_eq_nil_iff.mp hl
    obtain ⟨pin, block, hm, he, hc⟩ := hearlier [first] second [] hf
    refine ⟨first, second, hf, hfk, hsk, pin, block, hm, he, ?_⟩
    intro name hn
    obtain ⟨callee, hcallee, hname, -⟩ := hc name hn
    exact List.mem_singleton.mp hcallee ▸ hname
  · exact hloop _ List.mem_cons_self _ (by decide +kernel)

end Program

end BlockSketch
