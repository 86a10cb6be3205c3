import BlockSketch.Proofs.Draft.Log
import BlockSketch.Proofs.Evaluation.Tidy
import BlockSketch.Proofs.Names.Fresh

namespace BlockSketch

open Text (OneLine IsCode IsCodeText IsIndented)

/-- An include begins with a mark that begins no other line of a sketch. -/
def Text.IsInclude (line : String) : Prop := OneLine line ∧ line.toList.head? = some '#'

namespace Helper

/-- The first line of a helper. -/
def header (name : String) : String := "int " ++ name ++ "() \x7b"

def bodyText (name : String) (inner : List String) : String :=
  "\n".intercalate (header name :: inner ++ ["\x7d"])

structure Tidy (helper : Helper) : Prop where
  name : OneLine helper.name
  body : ∃ inner, helper.body = bodyText helper.name inner ∧ ∀ line ∈ inner, IsIndented line

theorem substitute_header (name : String) :
    Text.substitute Draft.namePlaceholder name (header Draft.namePlaceholder) = header name := by
  apply String.toList_injective
  simp [Text.substitute, Text.substituteFrom, header, Draft.namePlaceholder]

theorem substitute_bodyText (name : String) (inner : List String) :
    Text.substitute Draft.namePlaceholder name (bodyText Draft.namePlaceholder inner) =
      bodyText name (inner.map (Text.substitute Draft.namePlaceholder name)) := by
  have hphrase : OneLine Draft.namePlaceholder := by decide
  have hclose : Text.substitute Draft.namePlaceholder name "\x7d" = "\x7d" := by
    simp [Text.substitute, Text.substituteFrom, Draft.namePlaceholder]
  rw [bodyText, Text.substitute_intercalate hphrase (by decide), List.map_append, List.map_cons,
    substitute_header, List.map_singleton, hclose, bodyText]

end Helper

/-- The placeholder begins with no blank, so a line that is indented stays so. -/
theorem Text.IsIndented.substitute {line name : String} (h : IsIndented line) (hn : OneLine name) :
    IsIndented (Text.substitute Draft.namePlaceholder name line) := by
  refine ⟨h.1.substitute hn _, ?_⟩
  obtain ⟨rest, hl⟩ : ∃ rest, line.toList = ' ' :: rest := by
    cases hc : line.toList with
    | nil => simp [IsIndented, hc] at h
    | cons c rest => exact ⟨rest, by simpa [hc] using h.2⟩
  rw [Text.substitute, String.toList_ofList, hl]
  rfl

theorem Identifier.IsValid.oneLine {name : String} (h : IsValid name) : OneLine name :=
  fun hm => absurd (List.all_eq_true.mp h.1 _ hm) (by decide)

theorem Helper.tidy_of_named {name : String} {inner : List String} (hn : Identifier.IsValid name)
    (hi : ∀ line ∈ inner, IsIndented line) :
    Tidy ⟨name, Text.substitute Draft.namePlaceholder name
      (bodyText Draft.namePlaceholder inner)⟩ := by
  refine ⟨hn.oneLine, _, substitute_bodyText name inner, ?_⟩
  intro line hm
  obtain ⟨code, hc, rfl⟩ := List.mem_map.mp hm
  exact (hi code hc).substitute hn.oneLine

/-- What is filed for blocks without line feeds in their fields. -/
def Registration.IsTidy : Registration → Prop
  | addInclude _ code => Text.IsInclude code
  | addSetup _ code _ => IsCode code
  | addHelper _ code => ∃ inner, code = Helper.bodyText Draft.namePlaceholder inner ∧
    ∀ line ∈ inner, IsIndented line
  | addVariable _ | reserve _ _ _ _ | checkPin _ _ _ => True

namespace Bus

theorem configureLog_tidy {block : Block} (h : block.OneLined) :
    ∀ registration ∈ configureLog block, registration.IsTidy := by
  have hbitOrder : OneLine (block.fieldOr "SPI_SHIFT_ORDER" "MSBFIRST") := h.fieldOr _ (by decide)
  have hmode : OneLine (block.fieldOr "SPI_MODE" "SPI_MODE0") := h.fieldOr _ (by decide)
  have hdivider : OneLine (block.fieldOr "SPI_CLOCK_DIVIDE" "SPI_CLOCK_DIV4") :=
    h.fieldOr _ (by decide)
  simp +decide [configureLog, Registration.IsTidy, Text.IsInclude, IsCode, hbitOrder, hmode,
    hdivider]

theorem busLog_tidy (board : Board) (location : String) :
    ∀ registration ∈ busLog board location, registration.IsTidy := by
  intro registration hm
  rcases List.mem_append.mp hm with hm | hm
  · simp only [List.mem_cons, List.not_mem_nil, or_false] at hm
    rcases hm with rfl | rfl
    · exact ⟨by decide, by decide⟩
    · exact ⟨by decide, by decide⟩
  · obtain ⟨entry, -, rfl⟩ := List.mem_map.mp hm
    trivial

theorem selectLog_tidy (location : String) {pin? : Option String} (h : ∀ pin ∈ pin?, OneLine pin) :
    ∀ registration ∈ selectLog location pin?, registration.IsTidy := by
  cases pin? with
  | none => simp [selectLog]
  | some pin => simp +decide [selectLog, Registration.IsTidy, IsCode, h pin rfl]

theorem prepareLog_tidy (board : Board) (location : String) {pin? : Option String}
    (h : ∀ pin ∈ pin?, OneLine pin) :
    ∀ registration ∈ prepareLog board location pin?, registration.IsTidy := by
  intro registration hm
  exact (List.mem_append.mp hm).elim (busLog_tidy board location registration)
    (selectLog_tidy location h registration)

/-- The statements of a helper are indented. -/
theorem helperCode_tidy {pin data : String} (hp : OneLine pin) (hd : OneLine data) :
    (Registration.addHelper (helperWish pin) (helperCode pin data)).IsTidy := by
  refine ⟨_, rfl, Text.isIndented_indent ?_ (by decide)⟩
  intro code hc
  obtain ⟨statement, hs, rfl⟩ := List.mem_map.mp hc
  have hanswer := isCode_answerSequence hp hd
  rcases List.mem_cons.mp hs with rfl | hs
  · decide
  · rcases List.mem_append.mp hs with hs | hs
    · exact hanswer statement hs
    · obtain rfl := List.mem_singleton.mp hs
      decide

end Bus

theorem Block.log_tidy {names : String → String} (hn : ∀ pin, OneLine (names pin)) (board : Board)
    {block : Block} (h : block.OneLined) :
    ∀ registration ∈ block.log names board, registration.IsTidy := by
  have hprepare := Bus.prepareLog_tidy board block.location fun pin hp => h.selectPin hp
  unfold log
  cases block.role? with
  | none => simp
  | some role =>
    cases role with
    | busSetup => exact Bus.configureLog_tidy h
    | number | arithmetic => simp
    | variableRead => simp [Registration.IsTidy]
    | transfer => exact hprepare
    | transferAnswer =>
      intro registration hm
      rcases List.mem_append.mp hm with hm | hm
      · exact hprepare registration hm
      · cases hs : Bus.selectPin? block with
        | none => simp [hs] at hm
        | some pin =>
          rw [hs, List.mem_singleton] at hm
          exact hm ▸ Bus.helperCode_tidy (h.selectPin hs) (dataCode_oneLine hn h)

namespace Draft

/-- All lines of a draft can be told apart by how they begin. -/
structure Tidy (draft : Draft) : Prop where
  includes : ∀ line ∈ draft.includes.values, Text.IsInclude line
  setups : ∀ step ∈ draft.setups.values, IsCode step.code
  helpers : ∀ helper ∈ draft.helpers.values, helper.Tidy

namespace Tidy

theorem start (board : Board) : (Draft.start board).Tidy where
  includes := by simp [Draft.start, Table.values]
  setups := by simp [Draft.start, Table.values]
  helpers := by simp [Draft.start, Table.values]

theorem register {draft : Draft} {registration : Registration} (h : draft.Tidy)
    (hr : registration.IsTidy) : (draft.register registration).Tidy := by
  cases registration with
  | addInclude key code =>
    refine { h with includes := Table.forall_values_alter ?_ ?_ ?_ key }
    · exact h.includes
    · exact hr
    · exact h.includes
  | addSetup key code runFirst =>
    refine { h with setups := Table.forall_values_alter ?_ ?_ ?_ key }
    · exact h.setups
    · exact hr
    · exact fun _ _ => hr
  | addVariable name => exact { h with }
  | addHelper wanted code =>
    obtain ⟨inner, rfl, hinner⟩ := hr
    simp only [Draft.register, addHelper]
    split
    · exact h
    · have hname := (Identifier.fresh_leastFree wanted draft.taken).isValid
      have hnew := Helper.tidy_of_named hname hinner
      exact { h with
        helpers := Table.forall_values_alter h.helpers hnew (fun _ _ => hnew) wanted }
  | reserve location pin use label =>
    simp only [Draft.register, reserve]
    split
    · exact { h with }
    · split <;> exact { h with }
  | checkPin location pin label =>
    simp only [Draft.register, checkPin]
    split <;> exact { h with }

theorem registerAll {draft : Draft} (h : draft.Tidy) {log : List Registration}
    (hl : ∀ registration ∈ log, registration.IsTidy) : (draft.registerAll log).Tidy := by
  induction log generalizing draft with
  | nil => exact h
  | cons registration rest ih =>
    exact ih (h.register (hl registration List.mem_cons_self))
      fun other hm => hl other (List.mem_cons_of_mem _ hm)

theorem helperName {draft : Draft} (h : draft.Tidy) (pin : String) :
    OneLine (draft.helperName pin) := by
  unfold Draft.helperName
  cases hg : draft.helpers.get? (Bus.helperWish pin) with
  | none => exact (by decide : OneLine "")
  | some helper =>
    exact (h.helpers helper (List.mem_map_of_mem (Table.mem_of_get? hg))).name

theorem perform {draft : Draft} (h : draft.Tidy) {block : Block} (hb : block.OneLined) :
    (draft.perform block).Tidy := by
  rw [perform_eq]
  exact h.registerAll (Block.log_tidy h.helperName draft.board hb)

theorem performAll {draft : Draft} (h : draft.Tidy) {blocks : List Block}
    (hb : ∀ block ∈ blocks, block.OneLined) : (draft.performAll blocks).Tidy := by
  induction blocks generalizing draft with
  | nil => exact h
  | cons block rest ih =>
    exact ih (h.perform (hb block List.mem_cons_self))
      fun other hm => hb other (List.mem_cons_of_mem _ hm)

end Tidy

end Draft

namespace Program

/-- No block of the program has a line feed in a field. -/
def OneLined (program : Program) : Prop :=
  ∀ block, Block.InProgram block program.blocks → ∀ entry ∈ block.fields, OneLine entry.2

theorem OneLined.block {program : Program} (h : program.OneLined) {block : Block}
    (hb : Block.InProgram block program.blocks) : block.OneLined := by
  obtain ⟨top, ht, hw⟩ := hb
  exact fun inner hi => h inner ⟨top, ht, hi.trans hw⟩

theorem OneLined.evaluated {program : Program} (h : program.OneLined) {inner : Block}
    (hm : inner ∈ program.plan.evaluations) : inner.OneLined := by
  obtain ⟨block, hb, rfl | rfl⟩ := Block.exists_of_evaluated hm
  · exact h.block hb
  · exact (h.block hb).withoutNext

theorem OneLined.statement {program : Program} (h : program.OneLined) {statement : Block}
    (hm : statement ∈ Block.statements program.blocks) : statement.OneLined := by
  obtain ⟨top, ht, hs⟩ := List.mem_flatMap.mp hm
  obtain ⟨block, hb, rfl⟩ := Block.exists_of_mem_stack hs
  exact (h.block ⟨top, ht, hb⟩).withoutNext

theorem firstDraft_tidy (program : Program) : program.firstDraft.Tidy := by
  rw [firstDraft, Draft.addVariables_eq]
  refine (Draft.Tidy.start program.board).registerAll ?_
  intro registration hm
  obtain ⟨name, -, rfl⟩ := List.mem_map.mp hm
  trivial

/-- After a pass over a program without line feeds in its fields, each line of the draft and of the
loop can be told by how it begins. -/
theorem pass_tidy {program : Program} (h : program.OneLined) (hp : program.pass = .ok loop draft) :
    draft.Tidy ∧ IsCodeText loop := by
  obtain ⟨-, rfl, rfl⟩ := pass_eq_ok.mp hp
  have hdraft : (program.plan.after program.firstDraft).Tidy :=
    program.firstDraft_tidy.performAll fun _ hm => h.evaluated hm
  exact ⟨hdraft, Block.sequenceText_tidy hdraft.helperName fun _ hm => h.statement hm⟩

end Program

end BlockSketch
