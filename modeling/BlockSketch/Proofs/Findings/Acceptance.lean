import BlockSketch.Proofs.Calls.Order
import BlockSketch.Proofs.Draft.Replay
import BlockSketch.Proofs.Findings.Doubts

namespace BlockSketch

namespace Plan

theorem inOrder_of_faultless {plans : List Plan} (h : ∀ plan ∈ plans, plan.fault = none) :
    (inOrder plans).fault = none ∧
      (inOrder plans).evaluations = plans.flatMap Plan.evaluations := by
  induction plans with
  | nil => exact ⟨rfl, rfl⟩
  | cons plan rest ih =>
    have hplan := h plan List.mem_cons_self
    obtain ⟨hfault, hevaluations⟩ := ih fun other hm => h other (List.mem_cons_of_mem _ hm)
    rw [inOrder, andThen_fault_eq_none, andThen_evaluations hplan, hevaluations]
    exact ⟨⟨hplan, hfault⟩, rfl⟩

end Plan

namespace Board

end Board

namespace Block

end Block

namespace Draft

end Draft

namespace Program

/-- All that a pass registers, the variables of the program first. -/
def log (program : Program) : List Registration :=
  (Block.variablesRead program.blocks).map .addVariable ++
    program.firstDraft.logOf program.plan.evaluations

/-- The pass comes by this draft. -/
def Passes (program : Program) (draft : Draft) : Prop :=
  ∃ done, done <+: program.log ∧ draft = (Draft.start program.board).registerAll done

theorem pass_eq_log (program : Program) :
    Drafting.draftLeft program.pass = (Draft.start program.board).registerAll program.log := by
  rw [pass_eq, Plan.draftLeft_outcome, Plan.after, Draft.performAll_eq, log,
    Draft.registerAll_append, ← Draft.addVariables_eq, firstDraft]

theorem Passes.extends {program : Program} {draft : Draft} (h : program.Passes draft) :
    draft.Extends (Drafting.draftLeft program.pass) := by
  obtain ⟨done, ⟨rest, hl⟩, rfl⟩ := h
  rw [pass_eq_log, ← hl, Draft.registerAll_append]
  exact Draft.Extends.registerAll _ rest

/-- A reservation stands to the end of the pass, where each is for the use of transfers. -/
theorem Passes.consistent {program : Program} {draft : Draft} (h : program.Passes draft) :
    draft.Consistent := by
  intro pin standing hg
  rw [← h.extends.board]
  exact program.pass_finds.consistent pin standing (Table.get?_extends h.extends.pins hg)

theorem Passes.board {program : Program} {draft : Draft} (h : program.Passes draft) :
    draft.board = program.board := by
  obtain ⟨done, -, rfl⟩ := h
  exact Draft.registerAll_board _ done

theorem Passes.filed {program : Program} {draft : Draft} (h : program.Passes draft) :
    draft.Filed := by
  obtain ⟨done, -, rfl⟩ := h
  exact (Draft.Filed.start program.board).registerAll done

/-- The program with its findings taken as errors. -/
def strictly (program : Program) : Program := { program with mode := .strict }

/-- There is a sketch, although findings count as errors. -/
def Accepted (program : Program) : Prop :=
  ∃ sketch, program.strictly.sketch Registry.standard = .ok sketch

theorem accepted_iff_no_findings {program : Program} :
    program.Accepted ↔ ∃ loop draft, program.pass = .ok loop draft ∧ draft.findings = [] := by
  have hpass : program.strictly.pass = program.pass := rfl
  unfold Accepted
  rw [sketch_eq, hpass]
  cases program.pass with
  | error fault draft => simp
  | ok loop draft =>
    cases hf : draft.findings with
    | nil =>
      simp only [strictly, Draft.report, Report.of, hf]
      exact ⟨fun _ => ⟨loop, draft, rfl, hf⟩, fun _ => ⟨_, rfl⟩⟩
    | cons finding rest => simp [strictly, Draft.report, Report.of, Report.settle, hf]

theorem accepted_iff_no_doubts {program : Program} :
    program.Accepted ↔ program.plan.fault = none ∧
      ∀ block ∈ program.plan.evaluations, block.doubts program.board = [] := by
  have hfindings := program.pass_findings
  rw [accepted_iff_no_findings]
  constructor
  · rintro ⟨loop, draft, hok, hnone⟩
    rw [hok] at hfindings
    exact ⟨(pass_eq_ok.mp hok).1, List.flatMap_eq_nil_iff.mp (hfindings.symm.trans hnone)⟩
  · rintro ⟨hf, hnone⟩
    have hok := pass_eq_ok.mpr ⟨hf, rfl, rfl⟩
    rw [hok] at hfindings
    exact ⟨_, _, hok, hfindings.trans (List.flatMap_eq_nil_iff.mpr hnone)⟩

/-- Only which blocks there are matters, not in which order they stand. -/
theorem Accepted.of_perm {program other : Program} (hb : other.board = program.board)
    (hp : other.blocks.Perm program.blocks) (h : program.Accepted) : other.Accepted := by
  obtain ⟨hf, hnone⟩ := accepted_iff_no_doubts.mp h
  have hplans : ((Block.statements other.blocks).map Block.plan).Perm
      ((Block.statements program.blocks).map Block.plan) := (hp.flatMap_right _).map _
  have hall := Plan.fault_of_inOrder hf
  obtain ⟨-, hevaluations⟩ := Plan.inOrder_of_faultless hall
  obtain ⟨hfault, hothers⟩ :=
    Plan.inOrder_of_faultless fun plan hm => hall plan (hplans.mem_iff.mp hm)
  refine accepted_iff_no_doubts.mpr ⟨hfault, ?_⟩
  intro block hm
  have hm : block ∈ program.plan.evaluations := by
    have hsame := (hplans.flatMap_right Plan.evaluations).mem_iff (a := block)
    rw [← hothers, ← hevaluations] at hsame
    exact hsame.mp hm
  rw [hb]
  exact hnone block hm

end Program

end BlockSketch
