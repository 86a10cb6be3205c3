import BlockSketch.Proofs.Draft.Moved
import BlockSketch.Proofs.Draft.SameCode
import BlockSketch.Proofs.Findings.Modes

namespace BlockSketch

/-- Of a block's id, findings show no more than where they belong. -/
theorem Block.doubts_anonymous (board : Board) (block : Block) :
    (block.anonymous.doubts board).map (·.moved "") = (block.doubts board).map (·.moved "") := by
  have hpin : block.anonymous.switchedPin? = block.switchedPin? := by
    rw [switchedPin?_eq, role?_anonymous, selectPin?_anonymous, switchedPin?_eq]
  have hmoved (location there pin : String) :
      (board.doubts location pin).map (·.moved "") = (board.doubts there pin).map (·.moved "") := by
    unfold Board.doubts
    split <;> split <;> rfl
  rw [doubts, doubts, hpin]
  cases block.switchedPin? with
  | none => rfl
  | some pin => exact hmoved _ _ pin

namespace Program

/-- The programs have the same blocks, apart from their ids. -/
def SameButIds (program other : Program) : Prop :=
  program.blocks.map Block.anonymous = other.blocks.map Block.anonymous

/-- The text of a program's sketch, which it has unless a block has a fault. -/
def text (program : Program) : String :=
  let draft := program.plan.after program.firstDraft
  draft.layout (Block.loopText draft.helperName program.blocks)

/-- What a pass over the program finds. -/
def findings (program : Program) : List Finding := (Drafting.draftLeft program.pass).findings

/-- The program with its findings taken as warnings. -/
def leniently (program : Program) : Program := { program with mode := .warn }

theorem sketch_leniently (program : Program) :
    program.leniently.sketch Registry.standard =
      match program.plan.fault with
      | some fault => .error (.fault fault)
      | none => .ok ⟨program.text, program.findings.map Finding.text⟩ := by
  have hp := program.pass_eq
  unfold findings
  unfold Plan.outcome at hp
  cases hf : program.plan.fault with
  | some fault =>
    rw [hf] at hp
    exact sketch_of_fault hp
  | none =>
    rw [hf] at hp
    rw [hp]
    exact sketch_of_warn rfl hp

theorem accepted_iff_nothing_found {program : Program} :
    program.Accepted ↔ program.plan.fault = none ∧ program.findings = [] := by
  rw [accepted_iff_no_doubts, findings, pass_findings, List.flatMap_eq_nil_iff]

namespace SameButIds

variable {program other : Program}

theorem fault (h : program.SameButIds other) :
    program.plan.fault.map Fault.category = other.plan.fault.map Fault.category := by
  have hprogram := (Block.programPlan_anonymous program.blocks).fault
  have hother := (Block.programPlan_anonymous other.blocks).fault
  rw [h] at hprogram
  exact hprogram.symm.trans hother

theorem evaluations (h : program.SameButIds other) :
    program.plan.evaluations.map Block.anonymous = other.plan.evaluations.map Block.anonymous := by
  have hprogram := (Block.programPlan_anonymous program.blocks).evaluations
  have hother := (Block.programPlan_anonymous other.blocks).evaluations
  rw [h] at hprogram
  exact hprogram.symm.trans hother

theorem variablesRead (h : program.SameButIds other) :
    Block.variablesRead program.blocks = Block.variablesRead other.blocks := by
  rw [← Block.variablesRead_anonymous, h, Block.variablesRead_anonymous]

/-- Neither ids nor boards flow into the code of a draft. -/
theorem sameCode (h : program.SameButIds other) :
    (program.plan.after program.firstDraft).SameCode (other.plan.after other.firstDraft) := by
  have hfirst : program.firstDraft.SameCode other.firstDraft :=
    (Draft.SameCode.of_start program.board other.board).addVariables h.variablesRead
  have hprogram := hfirst.performAll program.plan.evaluations
  have hother := (Draft.SameCode.refl other.firstDraft).performAll other.plan.evaluations
  rw [← h.evaluations] at hother
  exact hprogram.trans hother.symm

theorem text (h : program.SameButIds other) : program.text = other.text := by
  have hloop (names : String → String) :
      Block.loopText names program.blocks = Block.loopText names other.blocks := by
    rw [← Block.loopText_anonymous, h, Block.loopText_anonymous]
  rw [Program.text, Program.text, hloop, Draft.helperName_congr h.sameCode.helpers]
  exact h.sameCode.layout _

theorem findings (h : program.SameButIds other) (hb : program.board = other.board) :
    program.findings.map (·.moved "") = other.findings.map (·.moved "") := by
  have hcanon (program : Program) : program.findings.map (·.moved "") =
      (program.plan.evaluations.map Block.anonymous).flatMap fun block =>
        (block.doubts program.board).map (·.moved "") := by
    rw [Program.findings, pass_findings, List.map_flatMap, List.flatMap_map]
    congr 1
    funext block
    exact (block.doubts_anonymous program.board).symm
  rw [hcanon, hcanon, h.evaluations, hb]

end SameButIds

/-- Boards and the ids of blocks decide what is found and what findings say, but no code. As long as
findings count as errors, other ids do not change whether a program is accepted. -/
theorem diagnostics_do_not_interfere (program : Program) :
    (∀ board, ({ program with board }.leniently.sketch Registry.standard).map Sketch.text =
      (program.leniently.sketch Registry.standard).map Sketch.text) ∧
    ∀ other : Program, other.board = program.board → other.SameButIds program →
      (match program.leniently.sketch Registry.standard,
          other.leniently.sketch Registry.standard with
        | .ok sketch, .ok twin =>
          sketch.text = twin.text ∧
          sketch.warnings = program.findings.map Finding.text ∧
          twin.warnings = other.findings.map Finding.text ∧
          program.findings.map (·.moved "") = other.findings.map (·.moved "")
        | .error (.fault fault), .error (.fault slip) => fault.category = slip.category
        | _, _ => False) ∧
      (program.Accepted ↔ other.Accepted) := by
  refine ⟨?_, ?_⟩
  · intro board
    have htext : { program with board }.text = program.text := by
      apply SameButIds.text
      exact rfl
    rw [sketch_leniently, sketch_leniently, htext]
    have hplan : { program with board }.plan = program.plan := rfl
    rw [hplan]
    cases program.plan.fault with
    | none => rfl
    | some fault => rfl
  · intro other hb hs
    have hfault := hs.fault
    have hfindings := hs.findings hb
    refine ⟨?_, ?_⟩
    · rw [sketch_leniently, sketch_leniently]
      cases hf : program.plan.fault with
      | none =>
        cases hg : other.plan.fault with
        | none => exact ⟨hs.text.symm, rfl, rfl, hfindings.symm⟩
        | some slip => simp [hf, hg] at hfault
      | some fault =>
        cases hg : other.plan.fault with
        | none => simp [hf, hg] at hfault
        | some slip =>
          rw [hf, hg] at hfault
          exact (Option.some.inj hfault).symm
    · have hnone : other.plan.fault = none ↔ program.plan.fault = none := by
        rw [← Option.map_eq_none_iff (f := Fault.category), hfault, Option.map_eq_none_iff]
      have hempty : other.findings = [] ↔ program.findings = [] := by
        rw [← List.map_eq_nil_iff (f := (·.moved "")), hfindings, List.map_eq_nil_iff]
      rw [accepted_iff_nothing_found, accepted_iff_nothing_found, hnone, hempty]

/-- A device is selected by a pin that belongs to the bus. -/
def sharedPin (id : String) : Program where
  blocks := [⟨"spi_transfer", id, [("SPI_SS", "13")], [], none⟩]
  board := .uno
  mode := .warn

/-- The id shows in the warning, but not in the sketch. -/
theorem sharedPin_independent :
    ∃ sketch twin, (sharedPin "").leniently.sketch Registry.standard = .ok sketch ∧
      (sharedPin "x").leniently.sketch Registry.standard = .ok twin ∧
      sketch.text = twin.text ∧ sketch.warnings ≠ twin.warnings := by
  have hs : (sharedPin "x").SameButIds (sharedPin "") := rfl
  obtain ⟨hwarned, -⟩ := (diagnostics_do_not_interfere (sharedPin "")).2 (sharedPin "x") rfl hs
  have hleft : (sharedPin "").plan.fault = none := by decide +kernel
  have hright : (sharedPin "x").plan.fault = none := by decide +kernel
  have hsketch := (sharedPin "").sketch_leniently
  have htwin := (sharedPin "x").sketch_leniently
  rw [hleft] at hsketch
  rw [hright] at htwin
  rw [hsketch, htwin] at hwarned
  exact ⟨_, _, hsketch, htwin, hwarned.1, by decide +kernel⟩

end Program

end BlockSketch
