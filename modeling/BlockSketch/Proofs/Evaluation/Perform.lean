import BlockSketch.Proofs.Evaluation.Plan
import BlockSketch.Proofs.Evaluation.Written

namespace BlockSketch

namespace Draft

/-- The helper that answers for a pin; no name if there is none. -/
def helperName (draft : Draft) (pin : String) : String :=
  ((draft.helpers.get? (Bus.helperWish pin)).map Helper.name).getD ""

theorem helperName_congr {draft other : Draft} (h : draft.helpers = other.helpers) :
    draft.helperName = other.helperName := by
  funext pin
  rw [helperName, helperName, h]

/-- A helper's data is written with the names that are known by then. -/
def perform (draft : Draft) (block : Block) : Draft :=
  match block.role? with
  | some .busSetup => Bus.configure block draft
  | some .variableRead => draft.addVariable block.nameRead
  | some .transfer => Bus.prepare block.location (Bus.selectPin? block) draft
  | some .transferAnswer =>
    let prepared := Bus.prepare block.location (Bus.selectPin? block) draft
    match Bus.selectPin? block with
    | none => prepared
    | some pin =>
      (prepared.addHelper (Bus.helperWish pin)
        (Bus.helperCode pin (block.dataCode draft.helperName))).2
  | _ => draft

def performAll (draft : Draft) (blocks : List Block) : Draft := blocks.foldl perform draft

@[simp] theorem performAll_nil (draft : Draft) : draft.performAll [] = draft := rfl

@[simp] theorem performAll_cons (draft : Draft) (block : Block) (rest : List Block) :
    draft.performAll (block :: rest) = (draft.perform block).performAll rest := rfl

theorem performAll_append (draft : Draft) (blocks more : List Block) :
    draft.performAll (blocks ++ more) = (draft.performAll blocks).performAll more :=
  List.foldl_append

/-- Every property that single evaluations keep holds after any number of them. -/
theorem performAll_induct {motive : Draft → Prop} {draft : Draft} {blocks : List Block}
    (start : motive draft)
    (step : ∀ before, ∀ block ∈ blocks, motive before → motive (before.perform block)) :
    motive (draft.performAll blocks) := by
  induction blocks generalizing draft with
  | nil => exact start
  | cons block rest ih =>
    rw [performAll_cons]
    apply ih (step draft block List.mem_cons_self start)
    intro before b hb
    exact step before b (List.mem_cons_of_mem _ hb)

theorem reserve_frame (draft : Draft) (location pin : String) (use : PinUse) (label : String) :
    ∃ pins findings, draft.reserve location pin use label = { draft with pins, findings } := by
  unfold reserve
  split
  · exact ⟨_, draft.findings, rfl⟩
  · split
    · exact ⟨draft.pins, draft.findings, rfl⟩
    · exact ⟨draft.pins, _, rfl⟩

theorem checkPin_frame (draft : Draft) (location pin label : String) :
    ∃ findings, draft.checkPin location pin label = { draft with findings } := by
  unfold checkPin
  split
  · exact ⟨draft.findings, rfl⟩
  · exact ⟨_, rfl⟩

theorem addHelper_frame (draft : Draft) (wanted code : String) :
    ∃ helpers taken, (draft.addHelper wanted code).2 = { draft with helpers, taken } := by
  unfold addHelper
  split
  · exact ⟨draft.helpers, draft.taken, rfl⟩
  · exact ⟨_, _, rfl⟩

theorem reserveBus_frame (draft : Draft) (location : String) (spiPins : List (String × String)) :
    ∃ pins findings, spiPins.foldl
      (fun draft (part, pin) => draft.reserve location pin .spi ("SPI " ++ part)) draft =
        { draft with pins, findings } := by
  induction spiPins generalizing draft with
  | nil => exact ⟨draft.pins, draft.findings, rfl⟩
  | cons entry rest ih =>
    obtain ⟨part, pin⟩ := entry
    obtain ⟨pins, findings, he⟩ := draft.reserve_frame location pin .spi ("SPI " ++ part)
    simp only [List.foldl_cons, he]
    exact ih _

/-- Preparing a transfer names nothing. -/
theorem prepare_frame (draft : Draft) (location : String) (pin? : Option String) :
    ∃ includes setups pins findings, Bus.prepare location pin? draft =
      { draft with includes, setups, pins, findings } := by
  have hb : ∃ includes setups pins findings, Bus.reservePins location draft =
      { draft with includes, setups, pins, findings } := by
    obtain ⟨pins, findings, he⟩ :=
      reserveBus_frame (Bus.begin (Bus.includeLibrary draft) true) location draft.board.spiPins
    exact ⟨_, _, pins, findings, he⟩
  obtain ⟨includes, setups, pins, findings, he⟩ := hb
  cases pin? with
  | none => exact ⟨includes, setups, pins, findings, he⟩
  | some pin =>
    simp only [Bus.prepare, Bus.reserveSelect, he]
    obtain ⟨checked, hc⟩ := checkPin_frame
      { draft with includes, setups, pins, findings } location pin Bus.selectLabel
    rw [hc]
    obtain ⟨reserved, found, hr⟩ := reserve_frame
      { draft with includes, setups, pins, findings := checked } location pin .output
      Bus.selectLabel
    rw [hr]
    exact ⟨_, _, _, _, rfl⟩

@[simp] theorem prepare_helpers (draft : Draft) (location : String) (pin? : Option String) :
    (Bus.prepare location pin? draft).helpers = draft.helpers := by
  obtain ⟨_, _, _, _, he⟩ := draft.prepare_frame location pin?
  rw [he]

@[simp] theorem prepare_variableNames (draft : Draft) (location : String) (pin? : Option String) :
    (Bus.prepare location pin? draft).variableNames = draft.variableNames := by
  obtain ⟨_, _, _, _, he⟩ := draft.prepare_frame location pin?
  rw [he]

theorem addHelper_of_known {draft : Draft} (h : draft.helpers.get? wanted = some helper)
    (code : String) : draft.addHelper wanted code = (helper.name, draft) := by
  simp only [addHelper, h]

/-- A new helper stands last. -/
theorem addHelper_of_new {draft : Draft} (h : draft.helpers.get? wanted = none) (code : String) :
    (draft.addHelper wanted code).2.helpers =
      draft.helpers ++ [(wanted, ⟨Identifier.fresh wanted draft.taken,
        Text.substitute namePlaceholder (Identifier.fresh wanted draft.taken) code⟩)] := by
  simp only [addHelper, h]
  exact Table.put_of_missing h _

/-- A helper is added at the end, or not at all. -/
theorem helpers_addHelper (draft : Draft) (wanted code : String) :
    if wanted ∈ draft.helpers.keys then (draft.addHelper wanted code).2.helpers = draft.helpers
    else
      ∃ helper, (draft.addHelper wanted code).2.helpers = draft.helpers ++ [(wanted, helper)] := by
  split
  · rename_i hm
    obtain ⟨helper, hg⟩ := Table.get?_of_mem_keys hm
    rw [addHelper_of_known hg]
  · rename_i hm
    exact ⟨_, addHelper_of_new (Table.get?_eq_none_iff.mpr hm) code⟩

theorem addHelper_extends (draft : Draft) (wanted code : String) :
    draft.helpers <+: (draft.addHelper wanted code).2.helpers := by
  cases h : draft.helpers.get? wanted with
  | none =>
    rw [addHelper_of_new h]
    exact List.prefix_append _ _
  | some helper => simp [addHelper_of_known h]

/-- The name by which a helper is called from then on. -/
theorem addHelper_name (draft : Draft) (wanted code : String) :
    ∃ helper, (draft.addHelper wanted code).2.helpers.get? wanted = some helper ∧
      (draft.addHelper wanted code).1 = helper.name := by
  cases h : draft.helpers.get? wanted with
  | none =>
    rw [addHelper_of_new h]
    exact ⟨_, by simp [Table.get?_append, h, Table.get?]; rfl, by simp only [addHelper, h]⟩
  | some helper =>
    rw [addHelper_of_known h]
    exact ⟨helper, h, rfl⟩

theorem perform_of_none {block : Block} (h : block.answerPin? = none) (draft : Draft) :
    (draft.perform block).helpers = draft.helpers := by
  unfold perform
  cases hr : block.role? with
  | none => rfl
  | some role =>
    cases role with
    | busSetup | number | variableRead | arithmetic => rfl
    | transfer => exact draft.prepare_helpers _ _
    | transferAnswer =>
      simp only [Block.answerPin?_eq, hr, ↓reduceIte] at h
      simp only [h, prepare_helpers]

/-- An answer from a pin asks for the helper of the pin, and what was prepared does not matter. -/
theorem perform_answer {block : Block} (h : block.answerPin? = some pin) (draft : Draft) :
    ∃ prepared : Draft, prepared.helpers = draft.helpers ∧
      draft.perform block = (prepared.addHelper (Bus.helperWish pin)
        (Bus.helperCode pin (block.dataCode draft.helperName))).2 := by
  rw [Block.answerPin?_eq] at h
  split at h
  · rename_i hr
    refine ⟨Bus.prepare block.location (some pin) draft, draft.prepare_helpers _ _, ?_⟩
    simp only [perform, hr, h]
  · cases h

theorem perform_of_known {draft : Draft} {block : Block} (h : block.answerPin? = some pin)
    (hk : draft.helpers.get? (Bus.helperWish pin) = some helper) :
    (draft.perform block).helpers = draft.helpers := by
  obtain ⟨prepared, hp, he⟩ := perform_answer h draft
  rw [he, addHelper_of_known (hp ▸ hk), hp]

theorem perform_of_new {draft : Draft} {block : Block} (h : block.answerPin? = some pin)
    (hn : draft.helpers.get? (Bus.helperWish pin) = none) :
    ∃ name, (draft.perform block).helpers = draft.helpers ++ [(Bus.helperWish pin,
      ⟨name, Text.substitute namePlaceholder name
        (Bus.helperCode pin (block.dataCode draft.helperName))⟩)] := by
  obtain ⟨prepared, hp, he⟩ := perform_answer h draft
  refine ⟨Identifier.fresh (Bus.helperWish pin) prepared.taken, ?_⟩
  rw [he, addHelper_of_new (hp ▸ hn), hp]

theorem perform_extends (draft : Draft) (block : Block) :
    draft.helpers <+: (draft.perform block).helpers := by
  cases h : block.answerPin? with
  | none => simp [perform_of_none h]
  | some pin =>
    obtain ⟨prepared, hp, he⟩ := perform_answer h draft
    rw [he, ← hp]
    exact prepared.addHelper_extends _ _

theorem performAll_extends (draft : Draft) (blocks : List Block) :
    draft.helpers <+: (draft.performAll blocks).helpers :=
  performAll_induct (motive := fun after => draft.helpers <+: after.helpers) List.prefix_rfl
    fun before block _ h => h.trans (before.perform_extends block)

/-- There is a helper for the pin. -/
def Serves (draft : Draft) (pin : String) : Prop :=
  ∃ helper, draft.helpers.get? (Bus.helperWish pin) = some helper

theorem Serves.mono {draft after : Draft} (hp : draft.helpers <+: after.helpers)
    (h : draft.Serves pin) : after.Serves pin := by
  obtain ⟨helper, hg⟩ := h
  exact ⟨helper, Table.get?_extends hp hg⟩

theorem helperName_stable {draft after : Draft} (hp : draft.helpers <+: after.helpers)
    (h : draft.Serves pin) : after.helperName pin = draft.helperName pin := by
  obtain ⟨helper, hg⟩ := h
  simp only [helperName, hg, Table.get?_extends hp hg]

theorem perform_serves {draft : Draft} {block : Block} (h : block.answerPin? = some pin) :
    (draft.perform block).Serves pin := by
  obtain ⟨prepared, _, he⟩ := perform_answer h draft
  obtain ⟨helper, hg, _⟩ := prepared.addHelper_name (Bus.helperWish pin)
    (Bus.helperCode pin (block.dataCode draft.helperName))
  exact ⟨helper, he ▸ hg⟩

theorem performAll_serves {draft : Draft} {blocks : List Block} {block : Block}
    (hm : block ∈ blocks) (h : block.answerPin? = some pin) :
    (draft.performAll blocks).Serves pin := by
  obtain ⟨before, after, rfl⟩ := List.append_of_mem hm
  rw [performAll_append, performAll_cons]
  exact (perform_serves h).mono (performAll_extends _ _)

end Draft

end BlockSketch
