import BlockSketch.Proofs.Draft.Columns
import BlockSketch.Proofs.Draft.Replay
import BlockSketch.Proofs.Evaluation.Faults
import BlockSketch.Sketch.Layout

namespace BlockSketch

/-- Entries keep their places and more come behind them. Only the code of a setup step may change,
so of the steps just the keys are kept. -/
structure Columns.Extends (columns after : Columns) : Prop where
  board : after.board = columns.board
  includes : columns.includes <+: after.includes
  steps : columns.steps.keys <+: after.steps.keys
  promoted : columns.promoted <+: after.promoted
  bodies : columns.bodies <+: after.bodies
  names : columns.names <+: after.names
  variableNames : columns.variableNames ⊆ after.variableNames
  pins : columns.pins <+: after.pins
  findings : columns.findings <+: after.findings
  taken : columns.taken ⊆ after.taken

namespace Columns.Extends

theorem refl (columns : Columns) : columns.Extends columns where
  board := rfl
  includes := List.prefix_rfl
  steps := List.prefix_rfl
  promoted := List.prefix_rfl
  bodies := List.prefix_rfl
  names := List.prefix_rfl
  variableNames := List.Subset.refl _
  pins := List.prefix_rfl
  findings := List.prefix_rfl
  taken := List.Subset.refl _

theorem trans {a b c : Columns} (hab : a.Extends b) (hbc : b.Extends c) : a.Extends c where
  board := hbc.board.trans hab.board
  includes := hab.includes.trans hbc.includes
  steps := hab.steps.trans hbc.steps
  promoted := hab.promoted.trans hbc.promoted
  bodies := hab.bodies.trans hbc.bodies
  names := hab.names.trans hbc.names
  variableNames := List.Subset.trans hab.variableNames hbc.variableNames
  pins := hab.pins.trans hbc.pins
  findings := hab.findings.trans hbc.findings
  taken := List.Subset.trans hab.taken hbc.taken

end Columns.Extends

namespace Draft

/-- The columns of a table grow with the table. -/
theorem Extends.columns {draft after : Draft} (h : draft.Extends after)
    (hf : draft.findings <+: after.findings) : draft.columns.Extends after.columns where
  board := h.board
  includes := h.includes
  steps := by
    have hkeys : draft.promotions.keys <+: after.promotions.keys := h.promotions.map Prod.fst
    rw [← keys_stepCodes, ← keys_stepCodes] at hkeys
    exact hkeys
  promoted := h.promotions
  bodies := h.helpers.map _
  names := h.helpers.map _
  variableNames := h.variableNames
  pins := h.pins
  findings := hf
  taken := h.taken

theorem columns_registerAll_extends (draft : Draft) (log : List Registration) :
    draft.columns.Extends (draft.registerAll log).columns := by
  refine (Extends.registerAll draft log).columns ?_
  rw [findings_registerAll]
  exact List.prefix_append _ _

theorem columns_operate_extends {operation : Operation} (h : operation ≠ .restart) (draft : Draft) :
    draft.columns.Extends (draft.operate operation).columns := by
  rw [operate_eq h, performAll_eq]
  exact (columns_registerAll_extends draft _).trans (columns_registerAll_extends _ _)

end Draft

/-- What a draft is used for: it is worked on, or it is looked at while a sketch is made from it. -/
inductive Use
  | operation (operation : Operation)
  | orderedSetups
  | report (mode : Mode)
  | layout (loopCode : String)

namespace Draft

/-- The draft that a use leaves, with or without a fault. -/
def left (draft : Draft) : Use → Draft
  | .operation operation => draft.operate operation
  | .orderedSetups => Drafting.draftLeft ((orderedSetups <$> get : Drafting _) draft)
  | .report mode => Drafting.draftLeft (((·.report mode) <$> get : Drafting _) draft)
  | .layout loopCode => Drafting.draftLeft (((·.layout loopCode) <$> get : Drafting _) draft)

def leftByAll (draft : Draft) (uses : List Use) : Draft := uses.foldl left draft

theorem columns_left_extends {use : Use} (h : use ≠ .operation .restart) (draft : Draft) :
    draft.columns.Extends (draft.left use).columns := by
  cases use with
  | operation operation => exact columns_operate_extends (fun he => h (congrArg _ he)) draft
  | orderedSetups | report | layout => exact .refl draft.columns

/-- However a draft is used, short of starting it anew, it keeps its board, and each of its tables
is a prefix of what that table becomes; the code of setup steps apart, no entry is changed. It does
not matter which of the uses end in faults, nor how far they have come by then. -/
theorem columns_only_grow (draft : Draft) {uses : List Use}
    (h : ∀ use ∈ uses, use ≠ .operation .restart) :
    draft.columns.Extends (draft.leftByAll uses).columns := by
  induction uses generalizing draft with
  | nil => exact .refl draft.columns
  | cons use rest ih =>
    have hfirst := columns_left_extends (h use List.mem_cons_self) draft
    exact hfirst.trans (ih (draft.left use) fun other hm => h other (List.mem_cons_of_mem _ hm))

/-- A transfer is no data for another, but it has made its registrations by the time that this is
found. -/
def misplaced : Block :=
  ⟨"spi_transfer", "outer", [],
    [("SPI_DATA", ⟨"spi_transfer", "inner", [("SPI_SS", "11")], [], none⟩)], none⟩

theorem misplaced_grows :
    let draft := (start .uno).addVariable "counter"
    let uses := [.operation (.code misplaced), .report .strict, .operation (.transfer misplaced)]
    Drafting.faultOf (misplaced.code Registry.standard draft) =
        some (.notAValue "spi_transfer#inner" "SPI_DATA" "spi_transfer#outer") ∧
      (draft.leftByAll uses).setups.keys = ["spi_begin", "io_11"] ∧
      (draft.leftByAll uses).findings.length = 2 ∧
      draft.columns.Extends (draft.leftByAll uses).columns :=
  ⟨by decide +kernel, by decide +kernel, by decide +kernel, columns_only_grow _ (by simp)⟩

end Draft

end BlockSketch
