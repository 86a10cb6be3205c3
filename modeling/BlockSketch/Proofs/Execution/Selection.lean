import BlockSketch.Proofs.Execution.Trace
import BlockSketch.Proofs.Formula.Reading
import BlockSketch.Proofs.Calls.Order

namespace BlockSketch

namespace Block

theorem isValue_of_evaluated {block inner : Block} (hf : block.plan.fault = none)
    (hv : block.isValue = true) (h : inner ∈ block.evaluated) : inner.isValue = true := by
  induction block using induct_inputs with
  | node block ih =>
    rcases mem_evaluated h with rfl | ⟨input, child, hi, hm, -, hc⟩
    · exact hv
    · exact ih input child hi (hc hf).1 (hc hf).2 hm

theorem quiet_denotedAt_iff {names : String → String} {block : Block} {input : String}
    (ih : ∀ child, block.input? input = some child → child.plan.fault = none →
      child.isValue = true → ((child.denoted names).Quiet ↔
        ∀ inner ∈ child.evaluated, inner.role? ≠ some .transferAnswer))
    (hf : (block.inputPlan input).fault = none) :
    (block.denotedAt names input).Quiet ↔
      ∀ inner ∈ block.evaluatedAt input, inner.role? ≠ some .transferAnswer := by
  rw [denotedAt, evaluatedAt]
  cases hc : block.input? input with
  | none =>
    rw [atInput_of_none hc, atInput_of_none hc]
    simp [zero, Formula.Quiet]
  | some child =>
    obtain ⟨hcf, hcv⟩ := inputPlan_fault hc hf
    rw [atInput_of_some hc, atInput_of_some hc]
    exact ih child hc hcf hcv

/-- Of the values only answers, wherever they stand in an expression, have something to send. -/
theorem quiet_denoted_iff {block : Block} (hf : block.plan.fault = none)
    (hv : block.isValue = true) (names : String → String) :
    (block.denoted names).Quiet ↔
      ∀ inner ∈ block.evaluated, inner.role? ≠ some .transferAnswer := by
  induction block using induct_inputs with
  | node block ih =>
    rw [plan_eq] at hf
    rw [denoted_eq, evaluated_eq]
    cases hr : block.role? with
    | none => simp [hr, Plan.failing] at hf
    | some role =>
      cases role with
      | busSetup | transfer => simp [isValue, hr, Role.isValue] at hv
      | number => simp [Formula.quiet_ofNumeral, hr]
      | variableRead => simp [Formula.Quiet, hr]
      | arithmetic =>
        cases ho : Expression.operatorOf? block.operator with
        | none => simp [hr, ho, Plan.failing] at hf
        | some known =>
          simp only [hr, ho, Plan.andThen_fault_eq_none] at hf
          obtain ⟨operator, hp⟩ := Formula.Operator.picked?_of_known ho
          simp only [hp, Formula.Quiet, quiet_denotedAt_iff (ih "A") hf.1,
            quiet_denotedAt_iff (ih "B") hf.2.1, List.forall_mem_append, List.forall_mem_singleton,
            hr]
          simp
      | transferAnswer =>
        have hself : ¬ ∀ inner ∈ block.evaluatedAt dataInput ++ [block],
            inner.role? ≠ some .transferAnswer := fun h => h block (by simp) hr
        cases hp : Bus.selectPin? block with
        | none => simpa only [hp, Formula.Quiet, false_iff] using hself
        | some pin => simpa only [hp, Formula.Quiet, false_iff] using hself

theorem quiet_data_iff {block : Block} (hf : (block.inputPlan dataInput).fault = none)
    (names : String → String) :
    (block.denotedAt names dataInput).Quiet ↔
      ∀ inner ∈ block.evaluatedAt dataInput, inner.role? ≠ some .transferAnswer :=
  quiet_denotedAt_iff (fun _ _ hcf hcv => quiet_denoted_iff hcf hcv names) hf

/-- Every statement's code stands in the loop. -/
theorem exists_sequenceText {blocks : List Block} {block : Block} (hm : block ∈ blocks)
    (names : String → String) :
    ∃ before after, sequenceText names blocks =
      before ++ (block.written names).asStatement ++ after := by
  induction blocks with
  | nil => cases hm
  | cons first rest ih =>
    rcases List.mem_cons.mp hm with rfl | hm
    · exact ⟨"", sequenceText names rest, by rw [String.empty_append]; rfl⟩
    · obtain ⟨before, after, he⟩ := ih hm
      refine ⟨(first.written names).asStatement ++ before, after, ?_⟩
      rw [sequenceText, he]
      simp only [String.append_assoc]

end Block

namespace Compiler

/-- The function that answers for a pin. -/
def routine (names : String → String) (answer : String × Block) : Routine :=
  ⟨names answer.1, Bus.helperBody answer.1 (answer.2.dataCode names),
    answer.2.denotedAt names Block.dataInput⟩

theorem helper_eq (names : String → String) (answer : String × Block) :
    helper names answer = (Bus.helperWish answer.1, (routine names answer).helper) := rfl

def routines (names : String → String) (program : List Block) : List Routine :=
  (answers program).map (routine names)

theorem routines_exchange {names : String → String} {program : List Block} :
    ∀ routine ∈ routines names program, ∀ sent, Event.exchanged ∈ routine.body.caused sent := by
  intro called hm sent
  obtain ⟨answer, -, rfl⟩ := List.mem_map.mp hm
  simp [routine, Bus.caused_helperBody]

end Compiler

namespace Program

variable {program : Program} {loop : String} {draft : Draft}

/-- Data can be evaluated if all helpers that it calls can. -/
theorem exists_causes_of_called (h : program.plan.fault = none)
    {block : Block} (hm : block ∈ program.evaluated)
    (hr : block.role? = some .transfer ∨ block.role? = some .transferAnswer)
    {names : String → String}
    (hall : ∀ called ∈ block.calledAt Block.dataInput, ∀ answer,
      (called, answer) ∈ Compiler.answers program.blocks →
      ∃ sent, Formula.Causes (Compiler.routines names program.blocks)
        (answer.denotedAt names Block.dataInput) sent) :
    ∃ sent, Formula.Causes (Compiler.routines names program.blocks)
      (block.denotedAt names Block.dataInput) sent := by
  apply Formula.exists_causes
  rw [Block.calledNames_data (fault_of_evaluated h hm) hr]
  intro name hn
  obtain ⟨called, hc, rfl⟩ := List.mem_map.mp hn
  obtain ⟨⟨pin, answer⟩, ha, rfl⟩ := List.mem_map.mp (known_of_called hm hr called hc)
  exact ⟨_, List.mem_map_of_mem ha, rfl, hall pin hc answer ha⟩

/-- A helper can be run to its end, since those that it calls stand before it. -/
theorem exists_causes_of_answer (h : program.plan.fault = none)
    (names : String → String) :
    ∀ pin block, (pin, block) ∈ Compiler.answers program.blocks →
      ∃ sent, Formula.Causes (Compiler.routines names program.blocks)
        (block.denotedAt names Block.dataInput) sent := by
  have main : ∀ n pin block, (pin, block) ∈ Compiler.answers program.blocks →
      (Compiler.answers program.blocks).keys.idxOf pin = n →
      ∃ sent, Formula.Causes (Compiler.routines names program.blocks)
        (block.denotedAt names Block.dataInput) sent := by
    intro n
    induction n using Nat.strongRecOn with
    | ind n ih =>
      rintro pin block hm rfl
      obtain ⟨he, hr⟩ := evaluated_of_answer hm
      apply exists_causes_of_called h he (Or.inr hr)
      intro called hc answer ha
      exact ih _ (Compiler.called_before hm hc).2 called answer ha rfl
  exact fun pin block hm => main _ pin block hm rfl

theorem exists_causes (h : program.plan.fault = none) {block : Block}
    (hm : block ∈ program.evaluated)
    (hr : block.role? = some .transfer ∨ block.role? = some .transferAnswer)
    (names : String → String) :
    ∃ sent, Formula.Causes (Compiler.routines names program.blocks)
      (block.denotedAt names Block.dataInput) sent :=
  exists_causes_of_called h hm hr fun called _ answer ha =>
    exists_causes_of_answer h names called answer ha

/-- A transfer without an answer is no value, so it is plugged in nowhere. -/
theorem statement_of_transfer (h : program.plan.fault = none) {block : Block}
    (hm : block ∈ program.evaluated) (hr : block.role? = some .transfer) :
    block ∈ Block.statements program.blocks := by
  obtain ⟨statement, hs, he⟩ := List.mem_flatMap.mp hm
  rcases Block.mem_evaluated he with rfl | ⟨input, child, -, hin, -, hc⟩
  · exact hs
  · obtain ⟨hcf, hcv⟩ := hc (fault_of_statement h hs)
    have hv := Block.isValue_of_evaluated hcf hcv hin
    simp [Block.isValue, hr, Role.isValue] at hv

/-- The statements are the code for a transfer with the device at the pin selected: they stand in
the loop, or they are the helper of the pin. -/
inductive Stands (program : Program) (loop : String) (draft : Draft) (pin : String)
    (block : Block) : Sequence → Prop
  | loop {before after : String} : block.role? = some .transfer →
    loop = before ++
      (Bus.transferSequence (some pin) (block.dataCode draft.helperName)).render 0 ++ after →
    Stands program loop draft pin block
      (Bus.transferSequence (some pin) (block.dataCode draft.helperName))
  | helper : (pin, block) ∈ Compiler.answers program.blocks →
    (Bus.helperWish pin, (Compiler.routine draft.helperName (pin, block)).helper) ∈
      draft.helpers →
    Stands program loop draft pin block (Compiler.routine draft.helperName (pin, block)).body

/-- The helpers of a draft are the functions that its code can call. -/
theorem pass_routines (h : program.pass = .ok loop draft) :
    draft.helpers.values =
      (Compiler.routines draft.helperName program.blocks).map Routine.helper := by
  simp only [pass_helpers h, Table.values, Compiler.routines, List.map_map, Function.comp_def,
    Compiler.helper_eq]

theorem exists_stands
    (h : program.pass = .ok loop draft) {block : Block} (hm : block ∈ program.evaluated)
    (hp : Bus.selectPin? block = some pin)
    (hr : block.role? = some .transfer ∨ (pin, block) ∈ Compiler.answers program.blocks) :
    ∃ statements, program.Stands loop draft pin block statements := by
  rcases hr with hr | ha
  · obtain ⟨hf, -, hl⟩ := pass_eq_ok.mp h
    obtain ⟨before, after, he⟩ :=
      Block.exists_sequenceText (statement_of_transfer hf hm hr) draft.helperName
    rw [Block.written_eq, hr, hp] at he
    exact ⟨_, .loop hr (hl.trans he)⟩
  · exact ⟨_, .helper ha (mem_helpers_of_answer h ha)⟩

/-- The pin is switched on first and off last, and in between the data is evaluated and sent. -/
theorem Stands.caused {block : Block}
    {statements : Sequence} (h : program.Stands loop draft pin block statements)
    (sent : List Event) :
    statements.caused sent =
      .switched pin "HIGH" :: (sent ++ [.exchanged] ++ [.switched pin "LOW"]) := by
  cases h with
  | loop => exact Bus.caused_transferSequence _ _ _
  | helper => exact Bus.caused_helperBody _ _ _

theorem data_reads
    (h : program.pass = .ok loop draft) {block : Block} (hm : block ∈ program.evaluated)
    (hr : block.role? = some .transfer ∨ block.role? = some .transferAnswer)
    (he : ∀ child, block.input? "SPI_DATA" = some child → child.IsExpression) :
    ∃ row, Formula.tokens (block.dataCode draft.helperName) = some row ∧
      ∀ formula, Formula.Derives .sum row formula ↔
        formula = block.denotedAt draft.helperName "SPI_DATA" := by
  have hplugged (child : Block) (hc : block.input? Block.dataInput = some child)
      (hn : ∀ pin ∈ child.calledPins, Identifier.IsValid (draft.helperName pin)) :
      child.Reads draft.helperName := (he child hc).reads hn
  have hnames (pin : String) (hp : pin ∈ block.calledAt Block.dataInput) :
      Identifier.IsValid (draft.helperName pin) :=
    isValid_helperName h (known_of_called hm hr pin hp)
  obtain ⟨row, ht, hd⟩ := Block.operand_reads hplugged hnames .atomic
  have hs : Formula.Derives .sum row (block.denotedAt draft.helperName "SPI_DATA") :=
    hd.loosen (by decide)
  refine ⟨row, ht, fun formula => ⟨fun h => h.unique hs, ?_⟩⟩
  rintro rfl
  exact hs

/-- While the device at a transfer's pin is selected there is one exchange and no pin is switched,
just if nothing in the data is a transfer or a call. That is so just if no block that wants an
answer is evaluated for the data. -/
theorem one_exchange_iff_quiet
    (h : program.pass = .ok loop draft) {block : Block} (hm : block ∈ program.evaluated)
    {pin : String} (hp : Bus.selectPin? block = some pin)
    (hr : block.role? = some .transfer ∨ (pin, block) ∈ Compiler.answers program.blocks) :
    let data := block.denotedAt draft.helperName "SPI_DATA"
    let routines := Compiler.routines draft.helperName program.blocks
    draft.helpers.values = routines.map Routine.helper ∧
    (∃ statements, program.Stands loop draft pin block statements ∧
      (∃ sent, data.Causes routines sent) ∧
      ∀ sent, data.Causes routines sent → ∃ between,
        statements.caused sent.flatten =
          .switched pin "HIGH" :: (between ++ [.switched pin "LOW"]) ∧
        ((between.count .exchanged = 1 ∧ ∀ other level, .switched other level ∉ between) ↔
          data.Quiet)) ∧
    (data.Quiet ↔ ∀ inner ∈ block.evaluatedAt "SPI_DATA", inner.role? ≠ some .transferAnswer) ∧
    ((∀ child, block.input? "SPI_DATA" = some child → child.IsExpression) →
      ∃ row, Formula.tokens (block.dataCode draft.helperName) = some row ∧
        ∀ formula, Formula.Derives .sum row formula ↔ formula = data) := by
  have hf := (pass_eq_ok.mp h).1
  have hrole : block.role? = some .transfer ∨ block.role? = some .transferAnswer :=
    hr.imp_right fun ha => (evaluated_of_answer ha).2
  refine ⟨pass_routines h, ?_, ?_, data_reads h hm hrole⟩
  · obtain ⟨statements, hs⟩ := exists_stands h hm hp hr
    refine ⟨statements, hs, exists_causes hf hm hrole _, ?_⟩
    intro sent hc
    refine ⟨sent.flatten ++ [.exchanged], hs.caused _, ?_⟩
    constructor
    · rintro ⟨hone, -⟩
      -- The data would make an exchange besides the transfer's own.
      refine Classical.byContradiction fun hq => ?_
      have he := List.count_pos_iff.mpr (hc.exchanges Compiler.routines_exchange hq)
      rw [List.count_append, List.count_singleton_self] at hone
      omega
    · intro hq
      rw [hc.of_quiet hq]
      simp
  · exact Block.quiet_data_iff (Block.dataPlan_fault (fault_of_evaluated hf hm) hrole) _

def answerOfNine : Block := ⟨"spi_transfer_return", "", [("SPI_SS", "9")], [], none⟩

def sendToTen : Block :=
  ⟨"spi_transfer", "", [("SPI_SS", "10")], [("SPI_DATA", answerOfNine)], none⟩

/-- What one device answers is sent to another. -/
def crossed : Program := ⟨[sendToTen], .uno, .warn⟩

theorem crossed_answers : Compiler.answers crossed.blocks = [("9", answerOfNine)] := rfl

theorem crossed_pass : crossed.pass =
    .ok "digitalWrite(10, HIGH);\nSPI.transfer((spiReturnSlave9()));\ndigitalWrite(10, LOW);\n"
      (crossed.plan.after crossed.firstDraft) :=
  pass_eq_ok.mpr ⟨by decide +kernel, rfl, by decide +kernel⟩

theorem crossed_evaluated : crossed.evaluated = [answerOfNine, sendToTen] := rfl

/-- The helper is alone with its device, and the loop is not. -/
theorem crossed_exchanges :
    let names := (crossed.plan.after crossed.firstDraft).helperName
    let routines := Compiler.routines names crossed.blocks
    (∀ sent, (answerOfNine.denotedAt names "SPI_DATA").Causes routines sent →
      ∃ between, (Bus.helperBody "9" (answerOfNine.dataCode names)).caused sent.flatten =
          .switched "9" "HIGH" :: (between ++ [.switched "9" "LOW"]) ∧
        between.count .exchanged = 1) ∧
    ∃ sent, (sendToTen.denotedAt names "SPI_DATA").Causes routines sent ∧
      ∃ between, (Bus.transferSequence (some "10") (sendToTen.dataCode names)).caused
          sent.flatten = .switched "10" "HIGH" :: (between ++ [.switched "10" "LOW"]) ∧
        ¬ (between.count .exchanged = 1 ∧ ∀ other level, .switched other level ∉ between) := by
  have hm : answerOfNine ∈ crossed.evaluated ∧ sendToTen ∈ crossed.evaluated := by
    rw [crossed_evaluated]
    simp
  have ha : ("9", answerOfNine) ∈ Compiler.answers crossed.blocks := by
    rw [crossed_answers]
    exact List.mem_singleton_self _
  constructor
  · obtain ⟨-, ⟨statements, hs, -, hall⟩, hquiet, -⟩ :=
      one_exchange_iff_quiet crossed_pass hm.1 rfl (Or.inr ha)
    intro sent hc
    obtain ⟨between, he, hiff⟩ := hall sent hc
    rw [hs.caused, ← Bus.caused_helperBody] at he
    exact ⟨between, he, (hiff.mpr (hquiet.mpr (by decide +kernel))).1⟩
  · obtain ⟨-, ⟨statements, hs, ⟨sent, hc⟩, hall⟩, hquiet, -⟩ :=
      one_exchange_iff_quiet crossed_pass hm.2 rfl (Or.inl rfl)
    obtain ⟨between, he, hiff⟩ := hall sent hc
    rw [hs.caused, ← Bus.caused_transferSequence] at he
    refine ⟨sent, hc, between, he, fun hone => ?_⟩
    exact hquiet.mp (hiff.mp hone) answerOfNine (List.mem_singleton_self _) rfl

/-- While the device at pin 10 is selected, the one at pin 9 is too, and two bytes go over the
bus. -/
theorem crossed_selects_both :
    ∃ loop draft, crossed.pass = .ok loop draft ∧ sendToTen ∈ crossed.evaluated ∧
      sendToTen.role? = some .transfer ∧ Bus.selectPin? sendToTen = some "10" ∧
      ∃ sent, (sendToTen.denotedAt draft.helperName "SPI_DATA").Causes
          (Compiler.routines draft.helperName crossed.blocks) sent ∧
        (Bus.transferSequence (some "10") (sendToTen.dataCode draft.helperName)).caused
          sent.flatten =
            [.switched "10" "HIGH", .switched "9" "HIGH", .exchanged, .switched "9" "LOW",
              .exchanged, .switched "10" "LOW"] := by
  have hm : sendToTen ∈ crossed.evaluated := by
    rw [crossed_evaluated]
    simp
  refine ⟨_, _, crossed_pass, hm, rfl, rfl, ?_⟩
  generalize (crossed.plan.after crossed.firstDraft).helperName = names
  have hr : Compiler.routine names ("9", answerOfNine) ∈
      Compiler.routines names crossed.blocks := by
    rw [Compiler.routines, crossed_answers]
    exact List.mem_singleton_self _
  -- The helper has nothing to send, which is a zero.
  have hc : (sendToTen.denotedAt names "SPI_DATA").Causes
      (Compiler.routines names crossed.blocks)
      [(Compiler.routine names ("9", answerOfNine)).body.caused []] := .call hr .number
  refine ⟨_, hc, ?_⟩
  rw [Bus.caused_transferSequence, Compiler.routine, Bus.caused_helperBody]
  rfl

end Program

end BlockSketch
