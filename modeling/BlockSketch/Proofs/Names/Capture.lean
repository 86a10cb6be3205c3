import BlockSketch.Proofs.Compiler.Simulation
import BlockSketch.Proofs.Formula.Meaning

namespace BlockSketch

namespace Formula

def readNames : Formula → List String
  | number _ | call _ => []
  | read name => [name]
  | transfer data => data.readNames
  | negate operand => operand.readNames
  | binary _ left right => left.readNames ++ right.readNames

theorem readNames_ofNumeral (text : String) : (ofNumeral text).readNames = [] := by
  unfold ofNumeral
  split <;> rfl

end Formula

namespace Block

def readersNode (block : Block) (plugged : String → Option (Block × List Block)) : List Block :=
  let input (name : String) : List Block := ((plugged name).map Prod.snd).getD []
  match block.role? with
  | some .variableRead => [block]
  | some .arithmetic =>
    match Expression.operatorOf? block.operator with
    | none => []
    | some _ => input "A" ++ input "B"
  | some .transferAnswer =>
    match Bus.selectPin? block with
    | none => input dataInput
    | some _ => []
  | _ => []

/-- The reads of variables whose code stands in the code of a value. What a helper reads stands in
the code of the helper and not where the helper is called. -/
def readers (block : Block) : List Block := block.fold readersNode

def readersAt (block : Block) (input : String) : List Block := atInput [] readers block input

theorem readers_eq (block : Block) :
    block.readers =
      match block.role? with
      | some .variableRead => [block]
      | some .arithmetic =>
        match Expression.operatorOf? block.operator with
        | none => []
        | some _ => block.readersAt "A" ++ block.readersAt "B"
      | some .transferAnswer =>
        match Bus.selectPin? block with
        | none => block.readersAt dataInput
        | some _ => []
      | _ => [] := by
  rw [readers, fold_eq]
  simp only [readersNode, map_snd_plugged]
  rfl

/-- The name of a reader stands in the code. -/
def Shows (code : String) (reader : Block) : Prop := reader.nameRead.toList <:+: code.toList

theorem Shows.append_left {code : String} {reader : Block} (h : Shows code reader)
    (before : String) : Shows (before ++ code) reader := by
  unfold Shows
  rw [String.toList_append]
  exact h.trans (List.suffix_append _ _).isInfix

theorem Shows.append_right {code : String} {reader : Block} (h : Shows code reader)
    (after : String) : Shows (code ++ after) reader := by
  unfold Shows
  rw [String.toList_append]
  exact h.trans (List.prefix_append _ _).isInfix

theorem Shows.of_empty {reader : Block} (h : Shows "" reader) (code : String) :
    Shows code reader := by
  unfold Shows at h ⊢
  rw [List.infix_nil.mp h]
  exact List.nil_infix

theorem Shows.fitted {code : String} {reader : Block} (h : Shows code reader)
    (inner outer : Order) : Shows (orZero (fitted code inner outer)) reader := by
  unfold BlockSketch.fitted
  split
  · rename_i he
    exact (he ▸ h).of_empty _
  · rename_i hn
    cases outer.needsParens inner with
    | false => simpa [orZero, hn] using h
    | true =>
      have hne : inParens code ≠ "" := by
        intro he
        have hl := congrArg String.toList he
        simp [inParens] at hl
      simp only [orZero, ↓reduceIte, hne]
      exact (h.append_left "(").append_right ")"

theorem readersAt_shown {names : String → String} {block : Block} {input : String}
    (ih : ∀ child, block.input? input = some child → ∀ reader ∈ child.readers,
      ∃ code order, child.written names = .value code order ∧ Shows code reader)
    (outer : Order) :
    ∀ reader ∈ block.readersAt input, Shows (block.operandCode names input outer) reader := by
  intro reader hm
  rw [readersAt] at hm
  cases hi : block.input? input with
  | none => simp [atInput_of_none hi] at hm
  | some child =>
    rw [atInput_of_some hi] at hm
    obtain ⟨code, order, hw, hs⟩ := ih child hi reader hm
    simp only [operandCode, inputCode, hi, Option.map_some, hw, fittedCode]
    exact hs.fitted order outer

theorem readers_shown (names : String → String) (block : Block) :
    ∀ reader ∈ block.readers,
      ∃ code order, block.written names = .value code order ∧ Shows code reader := by
  induction block using induct_inputs with
  | node block ih =>
    intro reader hm
    rw [readers_eq] at hm
    rw [written_eq]
    cases hr : block.role? with
    | none => simp [hr] at hm
    | some role =>
      cases role with
      | busSetup | number | transfer => simp [hr] at hm
      | variableRead =>
        simp only [hr, List.mem_singleton] at hm
        subst hm
        exact ⟨_, _, rfl, List.infix_rfl⟩
      | arithmetic =>
        simp only [hr] at hm
        cases ho : Expression.operatorOf? block.operator with
        | none => simp [ho] at hm
        | some operator =>
          simp only [ho, List.mem_append] at hm
          refine ⟨_, _, rfl, ?_⟩
          rcases hm with hm | hm
          · exact ((readersAt_shown (ih "A") operator.2 reader hm).append_right _).append_right _
          · exact (readersAt_shown (ih "B") operator.2 reader hm).append_left _
      | transferAnswer =>
        simp only [hr] at hm
        cases hp : Bus.selectPin? block with
        | some pin => simp [hp] at hm
        | none =>
          simp only [hp] at hm
          refine ⟨_, _, rfl, ?_⟩
          have hs := readersAt_shown (ih dataInput) .atomic reader hm
          exact ((hs.append_left "SPI.transfer(").append_right ")")

theorem dataCode_shows (names : String → String) (block : Block) :
    ∀ reader ∈ block.readersAt dataInput, Shows (block.dataCode names) reader :=
  readersAt_shown (fun child _ => readers_shown names child) .atomic

theorem readNames_denotedAt {names : String → String} {block : Block} {input : String}
    (ih : ∀ child, block.input? input = some child →
      (child.denoted names).readNames = child.readers.map nameRead) :
    (block.denotedAt names input).readNames = (block.readersAt input).map nameRead := by
  rw [denotedAt, readersAt]
  cases hc : block.input? input with
  | none =>
    rw [atInput_of_none hc, atInput_of_none hc]
    rfl
  | some child =>
    rw [atInput_of_some hc, atInput_of_some hc]
    exact ih child hc

/-- The variables that a value means to read are those of the readers, one by one. -/
theorem readNames_denoted (names : String → String) (block : Block) :
    (block.denoted names).readNames = block.readers.map nameRead := by
  induction block using induct_inputs with
  | node block ih =>
    have hi (input : String) : (block.denotedAt names input).readNames =
        (block.readersAt input).map nameRead := readNames_denotedAt (ih input)
    rw [denoted_eq, readers_eq]
    cases hr : block.role? with
    | none => rfl
    | some role =>
      cases role with
      | busSetup | variableRead | transfer => rfl
      | number => exact Formula.readNames_ofNumeral _
      | arithmetic =>
        simp only [Formula.Operator.operatorOf?_eq]
        cases Formula.Operator.picked? block.operator with
        | none => rfl
        | some operator =>
          simp only [Formula.readNames, Option.map_some, List.map_append, hi]
      | transferAnswer =>
        cases Bus.selectPin? block with
        | none => exact hi dataInput
        | some pin => rfl

end Block

/-- The variable that a statement makes. -/
def Statement.declared? : Statement → Option String
  | .declare _ name _ => some name
  | _ => none

namespace Sequence

def locals (statements : Sequence) : List String := statements.filterMap Statement.declared?

end Sequence

namespace Bus

/-- All statements of a helper. -/
def helperBody (pin data : String) : Sequence :=
  .declare "int" answerName "0" :: answerSequence pin data ++ [.giveBack answerName]

theorem helperCode_eq (pin data : String) :
    helperCode pin data = "\n".intercalate
      (["int " ++ Draft.namePlaceholder ++ "() \x7b"] ++ (helperBody pin data).lines 2 ++
        ["\x7d"]) := rfl

theorem locals_helperBody (pin data : String) : (helperBody pin data).locals = ["spiReturn"] := rfl

end Bus

namespace Program

/-- Every helper that a pass leaves is the one of a pin and of the first block that wants an answer
from it; the variables that its data reads stand in its data; and one of them has the name of a
variable that the helper declares just if one of them is called `spiReturn`. -/
theorem helper_captures_iff {program : Program} {loop : String} {draft : Draft}
    (h : program.pass = .ok loop draft) :
    ∀ entry ∈ draft.helpers, ∃ pin block,
      (pin, block) ∈ Compiler.answers program.blocks ∧
      entry = (Bus.helperWish pin, ⟨draft.helperName pin, Text.substitute Draft.namePlaceholder
        (draft.helperName pin) ("\n".intercalate (["int " ++ Draft.namePlaceholder ++ "() \x7b"] ++
          (Bus.helperBody pin (block.dataCode draft.helperName)).lines 2 ++ ["\x7d"]))⟩) ∧
      (block.denotedAt draft.helperName "SPI_DATA").readNames =
        (block.readersAt "SPI_DATA").map Block.nameRead ∧
      (∀ reader ∈ block.readersAt "SPI_DATA",
        Block.Shows (block.dataCode draft.helperName) reader) ∧
      ((∃ reader ∈ block.readersAt "SPI_DATA",
          reader.nameRead ∈ (Bus.helperBody pin (block.dataCode draft.helperName)).locals) ↔
        ∃ reader ∈ block.readersAt "SPI_DATA", reader.nameRead = "spiReturn") := by
  intro entry hm
  rw [pass_mirrors h, List.mem_map] at hm
  obtain ⟨⟨pin, block⟩, ha, rfl⟩ := hm
  refine ⟨pin, block, ha, ?_, ?_, Block.dataCode_shows _ block, ?_⟩
  · rw [← Bus.helperCode_eq]
    rfl
  · exact Block.readNames_denotedAt fun child _ => child.readNames_denoted draft.helperName
  · simp only [Bus.locals_helperBody, List.mem_singleton]

def resultRead : Block := ⟨"variables_get", "", [("VAR", "spiReturn")], [], none⟩

def echoedAnswer : Block :=
  ⟨"spi_transfer_return", "", [("SPI_SS", "8")], [("SPI_DATA", resultRead)], none⟩

/-- The data of a helper that reads a variable called like the one that keeps the answer. -/
def echo : Program := ⟨[echoedAnswer], .uno, .warn⟩

theorem echo_answers : Compiler.answers echo.blocks = [("8", echoedAnswer)] := rfl

theorem echo_pass : echo.pass = .ok "spiReturnSlave8();\n" (echo.plan.after echo.firstDraft) :=
  pass_eq_ok.mpr ⟨by decide +kernel, rfl, by decide +kernel⟩

theorem echo_helper : ∃ entry ∈ (echo.plan.after echo.firstDraft).helpers,
    ∃ pin block, (pin, block) ∈ Compiler.answers echo.blocks ∧ entry.1 = Bus.helperWish pin ∧
      ∃ reader ∈ block.readersAt "SPI_DATA", reader.nameRead ∈
        (Bus.helperBody pin (block.dataCode (echo.plan.after echo.firstDraft).helperName)).locals := by
  have hm : (echo.plan.after echo.firstDraft).helpers ≠ [] := by decide +kernel
  obtain ⟨entry, rest, he⟩ := List.exists_cons_of_ne_nil hm
  have hmem : entry ∈ (echo.plan.after echo.firstDraft).helpers := he ▸ List.mem_cons_self
  obtain ⟨pin, block, ha, rfl, -, -, hiff⟩ := helper_captures_iff echo_pass entry hmem
  refine ⟨_, hmem, pin, block, ha, rfl, hiff.mpr ⟨resultRead, ?_, rfl⟩⟩
  rw [echo_answers, List.mem_singleton, Prod.mk.injEq] at ha
  rw [ha.2]
  exact List.mem_singleton_self _

/-- The helper sends its own zero and not the program's variable. -/
theorem echo_captured :
    ∃ loop draft, echo.pass = .ok loop draft ∧
      draft.helpers = [("spiReturnSlave8", ⟨"spiReturnSlave8", "\n".intercalate
        ["int spiReturnSlave8() \x7b",
          "  int spiReturn = 0;",
          "  digitalWrite(8, HIGH);",
          "  spiReturn = SPI.transfer(spiReturn);",
          "  digitalWrite(8, LOW);",
          "  return spiReturn;",
          "\x7d"]⟩)] ∧
      ("8", echoedAnswer) ∈ Compiler.answers echo.blocks ∧
      resultRead ∈ echoedAnswer.readersAt "SPI_DATA" ∧ Identifier.IsValid resultRead.nameRead ∧
      resultRead.nameRead ∈ (Bus.helperBody "8" (echoedAnswer.dataCode draft.helperName)).locals := by
  refine ⟨_, _, echo_pass, by decide +kernel, ?_, ?_, ?_, ?_⟩
  · rw [echo_answers]
    exact List.mem_singleton_self _
  · exact List.mem_singleton_self _
  · exact ⟨by decide, 's', by decide, by decide⟩
  · exact List.mem_singleton_self _

end Program

end BlockSketch
