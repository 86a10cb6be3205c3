import BlockSketch.Proofs.Block.Anonymous
import BlockSketch.Proofs.Draft.Log
import BlockSketch.Sketch.Layout

namespace BlockSketch

/-- Whether a registration is for the text of the sketch. The others are for its pins. -/
def Registration.isCode : Registration → Bool
  | reserve _ _ _ _ | checkPin _ _ _ => false
  | _ => true

namespace Bus

theorem filter_busLog (board : Board) (location : String) :
    (busLog board location).filter Registration.isCode =
      [.addInclude "spi" "#include <SPI.h>", .addSetup "spi_begin" "SPI.begin();" true] := by
  unfold busLog
  rw [List.filter_append]
  refine congrArg (_ ++ ·) (List.filter_eq_nil_iff.mpr ?_)
  intro registration hm
  obtain ⟨entry, -, rfl⟩ := List.mem_map.mp hm
  simp [Registration.isCode]

/-- For the text of a sketch, neither the board nor the location of a transfer matters. -/
theorem filter_prepareLog (board : Board) (location : String) (pin? : Option String) :
    (prepareLog board location pin?).filter Registration.isCode =
      [.addInclude "spi" "#include <SPI.h>", .addSetup "spi_begin" "SPI.begin();" true] ++
        pin?.toList.map fun pin =>
          .addSetup ("io_" ++ pin) ("pinMode(" ++ pin ++ ", OUTPUT);") false := by
  rw [prepareLog, List.filter_append, filter_busLog]
  cases pin? with
  | none => rfl
  | some pin => rfl

end Bus

theorem Block.filter_log (names : String → String) (board other : Board) (block : Block) :
    (block.anonymous.log names other).filter Registration.isCode =
      (block.log names board).filter Registration.isCode := by
  have hconfigure : Bus.configureLog block.anonymous = Bus.configureLog block := by
    rw [Block.anonymous_eq]
    rfl
  unfold log
  rw [role?_anonymous, hconfigure, nameRead_anonymous, selectPin?_anonymous, dataCode_anonymous]
  cases block.role? with
  | none => rfl
  | some role =>
    cases role with
    | busSetup | number | variableRead | arithmetic => rfl
    | transfer =>
      dsimp only
      rw [Bus.filter_prepareLog, Bus.filter_prepareLog]
    | transferAnswer =>
      dsimp only
      rw [List.filter_append, List.filter_append, Bus.filter_prepareLog, Bus.filter_prepareLog]

namespace Draft

/-- The drafts differ in nothing but the board, the pins and the findings. -/
structure SameCode (draft other : Draft) : Prop where
  includes : draft.includes = other.includes
  setups : draft.setups = other.setups
  helpers : draft.helpers = other.helpers
  variableNames : draft.variableNames = other.variableNames
  taken : draft.taken = other.taken

namespace SameCode

theorem refl (draft : Draft) : draft.SameCode draft := ⟨rfl, rfl, rfl, rfl, rfl⟩

theorem symm {draft other : Draft} (h : draft.SameCode other) : other.SameCode draft :=
  ⟨h.includes.symm, h.setups.symm, h.helpers.symm, h.variableNames.symm, h.taken.symm⟩

theorem trans {a b c : Draft} (hab : a.SameCode b) (hbc : b.SameCode c) : a.SameCode c where
  includes := hab.includes.trans hbc.includes
  setups := hab.setups.trans hbc.setups
  helpers := hab.helpers.trans hbc.helpers
  variableNames := hab.variableNames.trans hbc.variableNames
  taken := hab.taken.trans hbc.taken

theorem of_start (board other : Board) : (Draft.start board).SameCode (Draft.start other) :=
  ⟨rfl, rfl, rfl, rfl, rfl⟩

/-- What is registered for pins alone leaves the code as it was. -/
theorem register_left {draft other : Draft} (h : draft.SameCode other)
    {registration : Registration} (hc : registration.isCode = false) :
    (draft.register registration).SameCode other := by
  cases registration with
  | addInclude | addSetup | addVariable | addHelper => cases hc
  | reserve location pin use label =>
    obtain ⟨pins, findings, he⟩ := draft.reserve_frame location pin use label
    rw [register, he]
    exact { h with }
  | checkPin location pin label =>
    obtain ⟨findings, he⟩ := draft.checkPin_frame location pin label
    rw [register, he]
    exact { h with }

theorem register {draft other : Draft} (h : draft.SameCode other) (registration : Registration) :
    (draft.register registration).SameCode (other.register registration) := by
  cases registration with
  | addInclude key code =>
    exact { h with includes := congrArg (Table.putNew · key code) h.includes }
  | addSetup key code runFirst =>
    exact { h with setups := congrArg (Table.alter _ · key) h.setups }
  | addVariable name =>
    exact { h with
      variableNames := congrArg (addName name) h.variableNames
      taken := congrArg (addName name) h.taken }
  | addHelper wanted code =>
    simp only [Draft.register, addHelper, ← h.helpers, ← h.taken]
    split
    · exact h
    · exact { h with helpers := rfl, taken := rfl }
  | reserve | checkPin => exact ((h.register_left rfl).symm.register_left rfl).symm

theorem registerAll_filter {draft other : Draft} (h : draft.SameCode other)
    (log : List Registration) :
    (draft.registerAll log).SameCode (other.registerAll (log.filter Registration.isCode)) := by
  induction log generalizing draft other with
  | nil => exact h
  | cons first rest ih =>
    cases hc : first.isCode with
    | true =>
      rw [List.filter_cons_of_pos hc]
      exact ih (h.register first)
    | false =>
      rw [List.filter_cons_of_neg (by simp [hc])]
      exact ih (h.register_left hc)

theorem registerAll {draft other : Draft} (h : draft.SameCode other) {log more : List Registration}
    (hl : log.filter Registration.isCode = more.filter Registration.isCode) :
    (draft.registerAll log).SameCode (other.registerAll more) := by
  have hother := (refl other).registerAll_filter more
  rw [← hl] at hother
  exact (h.registerAll_filter log).trans hother.symm

/-- For its code, a draft can do without what an evaluation registers for pins. -/
theorem of_perform (draft : Draft) (block : Block) :
    (draft.perform block).SameCode (draft.registerAll
      ((block.log draft.helperName draft.board).filter Registration.isCode)) := by
  rw [perform_eq]
  exact (refl draft).registerAll_filter _

theorem perform {draft other : Draft} (h : draft.SameCode other) (block : Block) :
    (draft.perform block).SameCode (other.perform block.anonymous) := by
  rw [perform_eq, perform_eq, ← helperName_congr h.helpers]
  exact h.registerAll (block.filter_log _ _ _).symm

theorem performAll {draft other : Draft} (h : draft.SameCode other) (blocks : List Block) :
    (draft.performAll blocks).SameCode (other.performAll (blocks.map Block.anonymous)) := by
  induction blocks generalizing draft other with
  | nil => exact h
  | cons block rest ih => exact ih (h.perform block)

theorem addVariables {draft other : Draft} (h : draft.SameCode other) {blocks more : List Block}
    (hb : Block.variablesRead blocks = Block.variablesRead more) :
    (draft.addVariables blocks).SameCode (other.addVariables more) := by
  rw [addVariables_eq, addVariables_eq, hb]
  exact h.registerAll rfl

theorem layout {draft other : Draft} (h : draft.SameCode other) (loop : String) :
    draft.layout loop = other.layout loop := by
  simp only [Draft.layout, includeLines, helperLines, Draft.setupLines, orderedSetups, h.includes,
    h.helpers, h.setups]

end SameCode

end Draft

end BlockSketch
