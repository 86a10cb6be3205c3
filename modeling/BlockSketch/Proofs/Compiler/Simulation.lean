import BlockSketch.Proofs.Compiler.Pure
import BlockSketch.Proofs.Names.Hygiene
import Mathlib.Data.List.Forall2

namespace BlockSketch

namespace Compiler

/-- The helpers of the draft are those of the pins noted so far, written with names that may be
known only later. -/
def Mirrors (names : String → String) (draft : Draft) (table : Table Block) : Prop :=
  draft.helpers = table.map (helper names)

theorem helperWish_injective {pin other : String}
    (h : Bus.helperWish pin = Bus.helperWish other) : pin = other := by
  have hl := congrArg String.toList h
  simp only [Bus.helperWish, String.toList_append] at hl
  exact String.toList_inj.mp (List.append_cancel_left hl)

theorem Mirrors.keys {names : String → String} {draft : Draft} {table : Table Block}
    (h : Mirrors names draft table) : draft.helpers.keys = table.keys.map Bus.helperWish := by
  rw [h, Table.keys, Table.keys, List.map_map, List.map_map]
  rfl

theorem Mirrors.get?_eq_none {names : String → String} {draft : Draft} {table : Table Block}
    (h : Mirrors names draft table) (pin : String) :
    draft.helpers.get? (Bus.helperWish pin) = none ↔ pin ∉ table.keys := by
  rw [Table.get?_eq_none_iff, h.keys, List.mem_map]
  constructor
  · exact fun hn hm => hn ⟨pin, hm, rfl⟩
  · rintro hn ⟨other, hm, he⟩
    exact hn (helperWish_injective he ▸ hm)

theorem Mirrors.perform_of_none {names : String → String} {draft : Draft} {table : Table Block}
    {block : Block} (h : Mirrors names draft table) (ha : block.answerPin? = none) :
    Mirrors names (draft.perform block) (note table block) := by
  rw [Mirrors, Draft.perform_of_none ha, note_of_none ha]
  exact h

/-- What a helper calls must have been there before it. -/
theorem Mirrors.perform_answer {final draft : Draft} {table : Table Block} {block : Block}
    (h : Mirrors final.helperName draft table) (ha : block.answerPin? = some pin)
    (hp : (draft.perform block).helpers <+: final.helpers)
    (hs : ∀ called ∈ block.calledAt Block.dataInput, draft.Serves called) :
    Mirrors final.helperName (draft.perform block) (note table block) := by
  cases hg : draft.helpers.get? (Bus.helperWish pin) with
  | some known =>
    have hk : pin ∈ table.keys := by
      apply Classical.byContradiction
      intro hn
      rw [(h.get?_eq_none pin).mpr hn] at hg
      cases hg
    rw [Mirrors, Draft.perform_of_known ha hg, note_of_known ha hk]
    exact h
  | none =>
    have hn := (h.get?_eq_none pin).mp hg
    obtain ⟨name, he⟩ := Draft.perform_of_new ha hg
    have hname : final.helperName pin = name := by
      have hserved : (draft.perform block).Serves pin := Draft.perform_serves ha
      rw [Draft.helperName_stable hp hserved, Draft.helperName, he, Table.get?_append, hg]
      simp [Table.get?]
    have hd : block.dataCode draft.helperName = block.dataCode final.helperName := by
      refine Block.operandCode_congr (fun child _ hw => Block.written_congr child hw) ?_ .atomic
      intro called hc
      exact (Draft.helperName_stable ((draft.perform_extends block).trans hp) (hs called hc)).symm
    rw [Mirrors, he, note_of_new ha hn, List.map_append, ← h, hd]
    simp only [List.map_cons, List.map_nil, helper, hname]

/-- That carrying out the block's plan keeps helpers and table alike, if all names are those of a
draft that comes of it sooner or later. -/
def Mirrored (final : Draft) (block : Block) : Prop :=
  block.plan.fault = none → ∀ (draft : Draft) (table : Table Block),
    Mirrors final.helperName draft table →
    (block.plan.after draft).helpers <+: final.helpers →
    Mirrors final.helperName (block.plan.after draft) (noteAll table block.evaluated)

theorem Mirrors.input {final : Draft} {block : Block} {input : String}
    (ih : ∀ child, block.input? input = some child → Mirrored final child)
    (hf : (block.inputPlan input).fault = none) {draft : Draft} {table : Table Block}
    (h : Mirrors final.helperName draft table)
    (hp : ((block.inputPlan input).after draft).helpers <+: final.helpers) :
    Mirrors final.helperName ((block.inputPlan input).after draft)
      (noteAll table (block.evaluatedAt input)) := by
  cases hi : block.input? input with
  | none =>
    have he : block.inputPlan input = .empty := by simp [Block.inputPlan, hi, Plan.ofPlugged]
    rw [he, Block.evaluatedAt, Block.atInput_of_none hi]
    exact h
  | some child =>
    unfold Plan.after at hp ⊢
    rw [Block.inputPlan_evaluations hi hf] at hp ⊢
    rw [Block.evaluatedAt, Block.atInput_of_some hi]
    exact ih child hi (Block.inputPlan_fault hi hf).1 draft table h hp

theorem mirrored_single {final : Draft} {block : Block} (hp : block.plan = .only block)
    (he : block.evaluated = [block]) (ha : block.answerPin? = none) : Mirrored final block := by
  intro _ draft table h _
  rw [hp, he, noteAll_singleton]
  exact h.perform_of_none ha

theorem mirrored_arithmetic {final : Draft} {block : Block}
    (ih : ∀ input child, block.input? input = some child → Mirrored final child)
    (hr : block.role? = some .arithmetic) : Mirrored final block := by
  intro hf draft table h hp
  have ha : block.answerPin? = none := by simp [Block.answerPin?_eq, hr]
  rw [Block.plan_eq] at hf hp ⊢
  rw [Block.evaluated_eq]
  simp only [hr] at hf hp ⊢
  cases ho : Expression.operatorOf? block.operator with
  | none => simp [ho, Plan.failing] at hf
  | some operator =>
    simp only [ho, Plan.andThen_fault_eq_none] at hf hp ⊢
    obtain ⟨hfa, hfb, -⟩ := hf
    rw [Plan.after_andThen hfa, Plan.after_andThen hfb] at hp ⊢
    rw [noteAll_append, noteAll_append]
    have hpb := (Draft.perform_extends _ block).trans hp
    have hpa := (Draft.performAll_extends _ (block.inputPlan "B").evaluations).trans hpb
    have hma := Mirrors.input (ih "A") hfa h hpa
    have hmb := Mirrors.input (ih "B") hfb hma hpb
    exact hmb.perform_of_none ha

theorem mirrored_transfer {final : Draft} {block : Block}
    (ih : ∀ input child, block.input? input = some child → Mirrored final child)
    (hr : block.role? = some .transfer) : Mirrored final block := by
  intro hf draft table h hp
  have ha : block.answerPin? = none := by simp [Block.answerPin?_eq, hr]
  rw [Block.plan_eq] at hf hp ⊢
  rw [Block.evaluated_eq]
  simp only [hr, Plan.andThen_fault_eq_none] at hf hp ⊢
  rw [Plan.after_andThen hf.1] at hp ⊢
  rw [noteAll_append]
  have hpd := (Draft.perform_extends _ block).trans hp
  have hmd := Mirrors.input (ih Block.dataInput) hf.1 h hpd
  exact hmd.perform_of_none ha

theorem mirrored_answer {final : Draft} {block : Block}
    (ih : ∀ input child, block.input? input = some child → Mirrored final child)
    (hr : block.role? = some .transferAnswer) : Mirrored final block := by
  intro hf draft table h hp
  rw [Block.plan_eq] at hf hp ⊢
  rw [Block.evaluated_eq]
  simp only [hr, Plan.andThen_fault_eq_none] at hf hp ⊢
  obtain ⟨hfd, hfo, -⟩ := hf
  rw [Plan.after_andThen hfd, Plan.after_andThen hfo] at hp ⊢
  rw [noteAll_append, noteAll_singleton]
  cases hs : Bus.selectPin? block with
  | none =>
    -- The data is evaluated once more, but all its pins are noted by then.
    have ha : block.answerPin? = none := by simp [Block.answerPin?_eq, hr, hs]
    simp only [hs, Option.isNone_none, ↓reduceIte] at hp ⊢
    have hpo := (Draft.performAll_extends _ (block.inputPlan Block.dataInput).evaluations).trans hp
    have hpd := (Draft.perform_extends _ block).trans hpo
    have hmd := Mirrors.input (ih Block.dataInput) hfd h hpd
    have hm := Mirrors.input (ih Block.dataInput) hfd (hmd.perform_of_none ha) hp
    rw [note_of_none ha, noteAll_again] at hm
    rw [note_of_none ha]
    exact hm
  | some pin =>
    have ha : block.answerPin? = some pin := by simp [Block.answerPin?_eq, hr, hs]
    simp only [hs, Option.isNone_some, Bool.false_eq_true, ↓reduceIte] at hp ⊢
    have hpd := (Draft.perform_extends _ block).trans hp
    have hmd := Mirrors.input (ih Block.dataInput) hfd h hpd
    exact hmd.perform_answer ha hp (Block.input_serves hfd draft)

theorem mirrored (final : Draft) (block : Block) : Mirrored final block := by
  induction block using Block.induct_inputs with
  | node block ih =>
    have hp := block.plan_eq
    have he := block.evaluated_eq
    cases hr : block.role? with
    | none =>
      intro hf
      simp [hp, hr, Plan.failing] at hf
    | some role =>
      simp only [hr] at hp he
      cases role with
      | arithmetic => exact mirrored_arithmetic ih hr
      | transfer => exact mirrored_transfer ih hr
      | transferAnswer => exact mirrored_answer ih hr
      | busSetup | number => exact mirrored_single hp he (by simp [Block.answerPin?_eq, hr])
      | variableRead =>
        by_cases hn : block.nameRead = ""
        · intro hf
          simp [hp, hn, Plan.failing] at hf
        · simp only [hn, ↓reduceIte] at hp
          exact mirrored_single hp he (by simp [Block.answerPin?_eq, hr])

theorem Mirrors.sequence {final : Draft} {blocks : List Block}
    (hf : (Block.sequencePlan blocks).fault = none) {draft : Draft} {table : Table Block}
    (h : Mirrors final.helperName draft table)
    (hp : ((Block.sequencePlan blocks).after draft).helpers <+: final.helpers) :
    Mirrors final.helperName ((Block.sequencePlan blocks).after draft)
      (noteAll table (blocks.flatMap Block.evaluated)) := by
  induction blocks generalizing draft table with
  | nil => exact h
  | cons block rest ih =>
    have hc : Block.sequencePlan (block :: rest) =
        block.plan.andThen (Block.sequencePlan rest) := rfl
    rw [hc, Plan.andThen_fault_eq_none] at hf
    rw [hc, Plan.after_andThen hf.1] at hp ⊢
    rw [List.flatMap_cons, noteAll_append]
    have hb := (Draft.performAll_extends _ (Block.sequencePlan rest).evaluations).trans hp
    exact ih hf.2 (mirrored final block hf.1 draft table h hb) hp

end Compiler

namespace Program

theorem firstDraft_allotted (program : Program) :
    program.firstDraft.Allotted (Block.variablesRead program.blocks) := by
  refine ⟨?_, program.firstDraft_reachable.named, ?_⟩
  · intro name
    rw [firstDraft, Draft.addVariables_variableNames]
    simp [Draft.start]
  · simp [Draft.helperNames, Table.values, Table.keys, program.firstDraft_helpers,
      Identifier.freshAll]

theorem pass_mirrors {program : Program} {loop : String} {draft : Draft}
    (h : program.pass = .ok loop draft) :
    Compiler.Mirrors draft.helperName draft (Compiler.answers program.blocks) := by
  obtain ⟨hf, rfl, -⟩ := pass_eq_ok.mp h
  refine Compiler.Mirrors.sequence hf ?_ List.prefix_rfl
  rw [Compiler.Mirrors, program.firstDraft_helpers]
  rfl

/-- The pass names the helpers as the compiler does that knows all pins before. -/
theorem pass_helperName {program : Program} {loop : String} {draft : Draft}
    (h : program.pass = .ok loop draft) :
    draft.helperName = Compiler.nameOf program.blocks := by
  have hm := pass_mirrors h
  have hv : draft.variableNames ⊆ Block.variablesRead program.blocks := by
    intro name hn
    have he := program.pass_variableNames
    rw [h, Drafting.draftLeft] at he
    exact (program.firstDraft_allotted.known name).mp (he ▸ hn)
  have hs : Draft.Steps program.firstDraft draft := by
    have hs := program.pass_steps
    rwa [h, Drafting.draftLeft] at hs
  have ha := (Draft.Allotted.steps hs hv program.firstDraft_allotted).allotted
  have hnames : draft.helperNames =
      (Compiler.answers program.blocks).keys.map draft.helperName := by
    conv => lhs; rw [Draft.helperNames, hm]
    simp only [Table.values, Table.keys, List.map_map]
    rfl
  rw [hm.keys, hnames] at ha
  have hall := List.map_inj_left.mp (ha.trans (Compiler.map_nameOf program.blocks).symm)
  funext pin
  by_cases hk : pin ∈ (Compiler.answers program.blocks).keys
  · exact hall pin hk
  · have hd : draft.helperName pin = "" := by
      rw [Draft.helperName, (hm.get?_eq_none pin).mpr hk]
      rfl
    have hz : Table.get? ((Compiler.answers program.blocks).keys.zip
        (Compiler.names program.blocks)) pin = none := by
      rw [Table.get?_eq_none_iff]
      intro hz
      apply hk
      obtain ⟨entry, he, rfl⟩ := List.mem_map.mp hz
      exact (List.of_mem_zip he).1
    rw [hd, Compiler.nameOf, hz]
    rfl

/-- A pass that comes to its end has the helpers and the loop of the compiler that knows all names
before it writes any code. Each name is the first variant that nothing else in the program has. -/
theorem pass_compiles {program : Program} {loop : String} {draft : Draft}
    (h : program.pass = .ok loop draft) :
    let names := Compiler.nameOf program.blocks
    List.Forall₂ (Compiler.Entry names) (Compiler.answers program.blocks) draft.helpers ∧
    loop = Compiler.loop program.blocks ∧
    ∀ before pin after, (Compiler.answers program.blocks).keys = before ++ pin :: after →
      Identifier.LeastFree ("spiReturnSlave" ++ pin)
        (reservedNames ++ Block.variablesRead program.blocks ++ before.map names) (names pin) := by
  intro names
  have hn : draft.helperName = names := pass_helperName h
  have hm : draft.helpers = (Compiler.answers program.blocks).map (Compiler.helper names) :=
    hn ▸ pass_mirrors h
  refine ⟨?_, ?_, fun _ _ _ => Compiler.nameOf_leastFree⟩
  · rw [hm, List.forall₂_map_right_iff, List.forall₂_same]
    exact fun answer _ => Compiler.entry_helper names answer
  · obtain ⟨-, -, hl⟩ := pass_eq_ok.mp h
    rw [hl, hn, Compiler.loop_eq]

/-- A pin whose helper needs the answer from the same pin, and a variable that has the helper's
name. -/
def nestedPin : Program where
  blocks := [
    ⟨"spi_transfer_return", "", [("SPI_SS", "8")], [("SPI_DATA", ⟨"math_arithmetic", "", [], [
      ("A", ⟨"variables_get", "", [("VAR", "spiReturnSlave8")], [], none⟩),
      ("B", ⟨"spi_transfer_return", "", [("SPI_SS", "8")], [], none⟩)], none⟩)], none⟩]
  board := .uno
  mode := .warn

theorem nestedPin_compiles : ∃ draft, nestedPin.pass = .ok "spiReturnSlave8_2();\n" draft ∧
    draft.helpers = [("spiReturnSlave8", ⟨"spiReturnSlave8_2", "\n".intercalate
      ["int spiReturnSlave8_2() \x7b",
        "  int spiReturn = 0;",
        "  digitalWrite(8, HIGH);",
        "  spiReturn = SPI.transfer(0);",
        "  digitalWrite(8, LOW);",
        "  return spiReturn;",
        "\x7d"]⟩)] := by
  have hf : nestedPin.plan.fault = none := by decide +kernel
  have hl : Compiler.loop nestedPin.blocks = "spiReturnSlave8_2();\n" := by decide +kernel
  have hname : Compiler.nameOf nestedPin.blocks "8" = "spiReturnSlave8_2" := by decide +kernel
  have hne : ("%%FUNCTION_NAME%%" : String) ≠ "" := by decide
  have hp := pass_eq_ok.mpr ⟨hf, rfl, rfl⟩
  obtain ⟨hentries, hloop, -⟩ := pass_compiles hp
  rw [hloop, hl] at hp
  refine ⟨_, hp, ?_⟩
  obtain ⟨inner, ha, hd⟩ : ∃ inner, Compiler.answers nestedPin.blocks = [("8", inner)] ∧
      inner.input? "SPI_DATA" = none := ⟨_, rfl, rfl⟩
  rw [ha] at hentries
  obtain ⟨⟨wish, name, body⟩, rest, ⟨hwish, hnamed, pieces, hs, hbody⟩, hrest, he⟩ :=
    List.forall₂_cons_left_iff.mp hentries
  obtain rfl := List.forall₂_nil_left_iff.mp hrest
  rw [he]
  dsimp only at hwish hnamed hbody hs
  rw [hname] at hnamed hbody
  rw [hwish, hnamed, hbody, ← hs.substitute hne, Compiler.dataCode, hd]
  decide +kernel

end Program

end BlockSketch
