import BlockSketch.Proofs.Calls.Text
import BlockSketch.Proofs.Calls.Order

namespace BlockSketch

/-- The helpers that some code comes to: those that it calls, and those that these call in turn. -/
inductive Reached (start : String → Prop) (helpers : Table Helper) : String → Prop
  | start {name : String} : start name → Reached start helpers name
  | helper {entry : String × Helper} {name : String} : entry ∈ helpers →
    Reached start helpers entry.2.name → Calls entry.2.body name → Reached start helpers name

namespace Block

/-- Where an answer from a pin is evaluated for a block, the block's code calls the helper of the
pin, or the data of another answer does that is evaluated for the block. -/
theorem called_or_in_data {block inner : Block} (h : inner ∈ block.evaluated)
    (ha : inner.answerPin? = some pin) :
    pin ∈ block.calledPins ∨ ∃ outer ∈ block.evaluated, outer.answerPin?.isSome ∧
      pin ∈ outer.calledAt dataInput := by
  induction block using induct_inputs with
  | node block ih =>
    have hi {input : String} (hm : inner ∈ block.evaluatedAt input) :
        pin ∈ block.calledAt input ∨ ∃ outer ∈ block.evaluatedAt input,
          outer.answerPin?.isSome ∧ pin ∈ outer.calledAt dataInput := by
      cases hc : block.input? input with
      | none => simp [evaluatedAt, atInput_of_none hc] at hm
      | some child =>
        rw [evaluatedAt, atInput_of_some hc] at hm ⊢
        rw [calledAt, atInput_of_some hc]
        exact ih input child hc hm
    have hself (he : inner = block) : pin ∈ block.calledPins := by
      subst he
      rw [answerPin?_eq] at ha
      split at ha
      · rename_i hr
        simp [calledPins_eq, hr, ha]
      · cases ha
    rw [evaluated_eq] at h ⊢
    cases hr : block.role? with
    | none =>
      simp only [hr, List.mem_singleton] at h
      exact Or.inl (hself h)
    | some role =>
      cases role with
      | busSetup | number | variableRead =>
        simp only [hr, List.mem_singleton] at h
        exact Or.inl (hself h)
      | arithmetic =>
        simp only [hr, List.mem_append, List.mem_singleton] at h ⊢
        rw [calledPins_eq]
        simp only [hr, List.mem_append]
        rcases h with h | h | h
        · rcases hi h with hp | ⟨outer, ho, hp⟩
          · exact Or.inl (Or.inl hp)
          · exact Or.inr ⟨outer, Or.inl ho, hp⟩
        · rcases hi h with hp | ⟨outer, ho, hp⟩
          · exact Or.inl (Or.inr hp)
          · exact Or.inr ⟨outer, Or.inr (Or.inl ho), hp⟩
        · simp [answerPin?_eq, h, hr] at ha
      | transfer =>
        simp only [hr, List.mem_append, List.mem_singleton] at h ⊢
        rw [calledPins_eq]
        simp only [hr]
        rcases h with h | h
        · rcases hi h with hp | ⟨outer, ho, hp⟩
          · exact Or.inl hp
          · exact Or.inr ⟨outer, Or.inl ho, hp⟩
        · simp [answerPin?_eq, h, hr] at ha
      | transferAnswer =>
        simp only [hr, List.mem_append, List.mem_singleton] at h ⊢
        rcases h with h | h
        · rcases hi h with hp | ⟨outer, ho, hp⟩
          · cases hs : Bus.selectPin? block with
            | none =>
              rw [calledPins_eq]
              simp only [hr, hs]
              exact Or.inl hp
            | some own => exact Or.inr ⟨block, Or.inr rfl, by simp [answerPin?_eq, hr, hs], hp⟩
          · exact Or.inr ⟨outer, Or.inl ho, hp⟩
        · exact Or.inl (hself h)

end Block

namespace Program

variable {program : Program} {loop : String} {draft : Draft}

/-- The block wants an answer from a pin for which another block was complete before, so its own
data goes into no helper. -/
def Dropped (program : Program) (block : Block) : Prop :=
  block ∈ program.evaluated ∧
    ∃ pin, block.answerPin? = some pin ∧ (pin, block) ∉ Compiler.answers program.blocks

/-- What holds of the pins that the loop and the dropped blocks call, and goes over from the pin of
a helper to the pins that the helper calls, holds of the pins of all helpers. -/
theorem answers_induct {motive : String → Prop}
    (loop : ∀ statement ∈ Block.statements program.blocks, ∀ pin ∈ statement.calledPins, motive pin)
    (dropped : ∀ block, program.Dropped block → ∀ pin ∈ block.calledAt Block.dataInput, motive pin)
    (data : ∀ pin block, (pin, block) ∈ Compiler.answers program.blocks → motive pin →
      ∀ called ∈ block.calledAt Block.dataInput, motive called) :
    ∀ pin block, (pin, block) ∈ Compiler.answers program.blocks → motive pin := by
  -- A helper stands before those that call it, so the last is the one to begin with.
  have main : ∀ n pin block, (pin, block) ∈ Compiler.answers program.blocks →
      (Compiler.answers program.blocks).keys.length -
        (Compiler.answers program.blocks).keys.idxOf pin = n → motive pin := by
    intro n
    induction n using Nat.strongRecOn with
    | ind n ih =>
      intro pin block hm hn
      obtain ⟨ha, statement, hs, he⟩ := Compiler.mem_answers hm
      rcases Block.called_or_in_data he ha with hp | ⟨outer, ho, hsome, hp⟩
      · exact loop statement hs pin hp
      · obtain ⟨own, hown⟩ := Option.isSome_iff_exists.mp hsome
        by_cases hk : (own, outer) ∈ Compiler.answers program.blocks
        · obtain ⟨-, hlt⟩ := Compiler.called_before hk hp
          have hin : own ∈ (Compiler.answers program.blocks).keys :=
            List.mem_map.mpr ⟨_, hk, rfl⟩
          have hlen := List.idxOf_lt_length_of_mem hin
          exact data own outer hk (ih _ (by omega) own outer hk rfl) pin hp
        · exact dropped outer ⟨List.mem_flatMap.mpr ⟨statement, hs, ho⟩, own, hown, hk⟩ pin hp
  exact fun pin block hm => main _ pin block hm rfl

theorem Dropped.called {block : Block} (h : program.plan.fault = none)
    (hd : program.Dropped block) (names : String → String) :
    (block.denotedAt names "SPI_DATA").calledNames =
      (block.calledAt Block.dataInput).map names := by
  obtain ⟨he, own, ha, -⟩ := hd
  exact Block.calledNames_data (fault_of_evaluated h he) (Or.inr (Block.role?_of_answerPin? ha))
    names

theorem Dropped.calls {block : Block} (h : program.plan.fault = none)
    (hd : program.Dropped block) (names : String → String) :
    ∀ pin ∈ block.calledAt Block.dataInput, Calls (block.dataCode names) (names pin) := by
  obtain ⟨he, own, ha, -⟩ := hd
  have hr := Block.role?_of_answerPin? ha
  exact Block.data_calls (Block.dataPlan_fault (fault_of_evaluated h he) (Or.inr hr)) names

theorem body_calls
    (h : program.pass = .ok loop draft) (hm : (pin, block) ∈ Compiler.answers program.blocks) :
    ∀ called ∈ block.calledAt Block.dataInput,
      Calls (Compiler.helper draft.helperName (pin, block)).2.body (draft.helperName called) := by
  intro called hc
  have hf := fault_of_answer (pass_eq_ok.mp h).1 hm
  have hr := (evaluated_of_answer hm).2
  have hd := Block.data_calls (Block.dataPlan_fault hf (Or.inr hr)) draft.helperName called hc
  exact (Bus.calls_helperCode hd pin).substitute
    (isValid_helperName h (Compiler.called_before hm hc).1) _

theorem loop_calls (h : program.pass = .ok loop draft) {statement : Block}
    (hm : statement ∈ Block.statements program.blocks) :
    ∀ pin ∈ statement.calledPins, Calls loop (draft.helperName pin) := by
  obtain ⟨hf, -, rfl⟩ := pass_eq_ok.mp h
  exact Block.loop_calls hm (fault_of_statement hf hm) draft.helperName

/-- Helpers answer for the pins of answers. -/
theorem forall_helpers (h : program.pass = .ok loop draft) {motive : String → Prop} :
    (∀ entry ∈ draft.helpers, motive entry.2.name) ↔
      ∀ pin block, (pin, block) ∈ Compiler.answers program.blocks →
        motive (draft.helperName pin) := by
  rw [pass_helpers h, List.forall_mem_map]
  exact Prod.forall

/-- A dropped block is the only way for a helper to be there that the loop does not come to: the
helpers that the data of dropped blocks calls are there although that data is nowhere. -/
theorem reached_unless_dropped (h : program.pass = .ok loop draft) :
    (∀ entry ∈ draft.helpers,
      Reached (fun name => Calls loop name ∨
        ∃ block, program.Dropped block ∧ Calls (block.dataCode draft.helperName) name ∧
          name ∈ (block.denotedAt draft.helperName "SPI_DATA").calledNames)
        draft.helpers entry.2.name) ∧
    ((∀ entry ∈ draft.helpers, Reached (Calls loop) draft.helpers entry.2.name) ↔
      ∀ block, program.Dropped block →
        ∀ name ∈ (block.denotedAt draft.helperName "SPI_DATA").calledNames,
          Reached (Calls loop) draft.helpers name) := by
  have hf := (pass_eq_ok.mp h).1
  have hdata {start : String → Prop} : ∀ pin block,
      (pin, block) ∈ Compiler.answers program.blocks →
      Reached start draft.helpers (draft.helperName pin) →
      ∀ called ∈ block.calledAt Block.dataInput,
        Reached start draft.helpers (draft.helperName called) := by
    intro pin block hm hr called hc
    exact .helper (mem_helpers_of_answer h hm) hr (body_calls h hm called hc)
  constructor
  · rw [forall_helpers h]
    apply answers_induct
    · exact fun statement hm pin hp => .start (Or.inl (loop_calls h hm pin hp))
    · intro block hd pin hp
      refine .start (Or.inr ⟨block, hd, hd.calls hf draft.helperName pin hp, ?_⟩)
      rw [hd.called hf]
      exact List.mem_map_of_mem hp
    · exact hdata
  · rw [forall_helpers h]
    constructor
    · intro hall block hd name hn
      rw [hd.called hf] at hn
      obtain ⟨pin, hp, rfl⟩ := List.mem_map.mp hn
      obtain ⟨he, own, ha, -⟩ := hd
      have hk := known_of_called he (Or.inr (Block.role?_of_answerPin? ha)) pin hp
      obtain ⟨⟨own, answer⟩, hm, rfl⟩ := List.mem_map.mp hk
      exact hall own answer hm
    · intro hdropped
      apply answers_induct
      · exact fun statement hm pin hp => .start (loop_calls h hm pin hp)
      · intro block hd pin hp
        apply hdropped block hd
        rw [hd.called hf]
        exact List.mem_map_of_mem hp
      · exact hdata

/-- The device at pin 8 is asked twice, the second time with what the device at pin 9 answers. -/
def shared : Program where
  blocks := [
    ⟨"spi_transfer_return", "", [("SPI_SS", "8")], [], none⟩,
    ⟨"spi_transfer_return", "", [("SPI_SS", "8")], [("SPI_DATA", ⟨"spi_transfer_return", "",
      [("SPI_SS", "9")], [], none⟩)], none⟩]
  board := .uno
  mode := .warn

theorem shared_pass : shared.pass =
    .ok "spiReturnSlave8();\nspiReturnSlave8();\n" (shared.plan.after shared.firstDraft) :=
  pass_eq_ok.mpr ⟨by decide +kernel, rfl, by decide +kernel⟩

theorem shared_names :
    (shared.plan.after shared.firstDraft).helpers.map (fun entry => entry.2.name) =
      ["spiReturnSlave8", "spiReturnSlave9"] := by
  decide +kernel

theorem shared_bodies :
    ∀ entry ∈ (shared.plan.after shared.firstDraft).helpers, entry.2.name = "spiReturnSlave8" →
      ¬ ("spiReturnSlave9" ++ "()").toList <:+: entry.2.body.toList := by
  decide +kernel

theorem exists_shared_helper (name : String)
    (h : name ∈ ["spiReturnSlave8", "spiReturnSlave9"]) :
    ∃ entry ∈ (shared.plan.after shared.firstDraft).helpers, entry.2.name = name := by
  rw [← shared_names] at h
  exact List.mem_map.mp h

/-- Neither the loop nor the first helper has a call of the second helper. -/
theorem shared_out_of_reach :
    ¬ Reached (Calls "spiReturnSlave8();\nspiReturnSlave8();\n")
      (shared.plan.after shared.firstDraft).helpers "spiReturnSlave9" := by
  suffices hall : ∀ name, Reached (Calls "spiReturnSlave8();\nspiReturnSlave8();\n")
      (shared.plan.after shared.firstDraft).helpers name → name ≠ "spiReturnSlave9" from
    fun hr => hall _ hr rfl
  intro name hr
  induction hr with
  | start hc =>
    rintro rfl
    exact absurd hc.isInfix (by decide +kernel)
  | @helper entry _ hm _ hc ih =>
    rintro rfl
    have hn : entry.2.name ∈ ["spiReturnSlave8", "spiReturnSlave9"] := by
      rw [← shared_names]
      exact List.mem_map_of_mem hm
    have he : entry.2.name = "spiReturnSlave8" := by simpa [ih] using hn
    exact shared_bodies entry hm he hc.isInfix

theorem shared_reached_from_dropped :
    let draft := shared.plan.after shared.firstDraft
    (∀ name ∈ ["spiReturnSlave8", "spiReturnSlave9"],
      Reached (fun name => Calls "spiReturnSlave8();\nspiReturnSlave8();\n" name ∨
        ∃ block, shared.Dropped block ∧ Calls (block.dataCode draft.helperName) name ∧
          name ∈ (block.denotedAt draft.helperName "SPI_DATA").calledNames)
        draft.helpers name) ∧
    ∃ block, shared.Dropped block ∧
      ∃ name ∈ (block.denotedAt draft.helperName "SPI_DATA").calledNames,
        ¬ Reached (Calls "spiReturnSlave8();\nspiReturnSlave8();\n") draft.helpers name := by
  obtain ⟨hreached, hiff⟩ := reached_unless_dropped shared_pass
  constructor
  · intro name hn
    obtain ⟨entry, hm, rfl⟩ := exists_shared_helper name hn
    exact hreached entry hm
  · obtain ⟨entry, hm, hn⟩ := exists_shared_helper "spiReturnSlave9" (by decide)
    refine Classical.byContradiction fun hno => shared_out_of_reach (hn ▸ hiff.mpr ?_ entry hm)
    intro block hd name hc
    exact Classical.byContradiction fun hr => hno ⟨block, hd, name, hc, hr⟩

/-- A helper is left that the loop does not come to. -/
theorem shared_strands_helper :
    ∃ loop draft, shared.pass = .ok loop draft ∧
      ∃ entry ∈ draft.helpers, ¬ Reached (Calls loop) draft.helpers entry.2.name := by
  obtain ⟨entry, hm, hn⟩ := exists_shared_helper "spiReturnSlave9" (by decide)
  exact ⟨_, _, shared_pass, entry, hm, hn ▸ shared_out_of_reach⟩

end Program

end BlockSketch
