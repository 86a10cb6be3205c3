import BlockSketch.Proofs.Evaluation.Role

namespace BlockSketch

/-- An input without code counts as zero. -/
def orZero (code : String) : String := if code = "" then "0" else code

/-- The code of what is plugged in, if anything is, in a place of the given order. -/
def fittedCode (outer : Order) : Option Fragment → String
  | some (.value code inner) => fitted code inner outer
  | _ => ""

namespace Bus

/-- The statements of a helper around its one transfer, with the answer kept. -/
def answerSequence (pin data : String) : Sequence :=
  [switchPin pin "HIGH", .assign answerName (.call (transferCall data)), switchPin pin "LOW"]

theorem render_transferCall (data : String) :
    (transferCall data).render = "SPI.transfer(" ++ data ++ ")" := by
  apply String.toList_injective
  simp [transferCall, transferCallee, Call.render]

theorem render_switchPin (pin level : String) :
    (switchPin pin level).render = "digitalWrite(" ++ pin ++ ", " ++ level ++ ");" := by
  apply String.toList_injective
  simp [switchPin, Statement.render, Call.render]

/-- A helper's code, as it is before the helper has a name. -/
def helperCode (pin data : String) : String :=
  "\n".intercalate (helperLines (answerSequence pin data))

end Bus

namespace Block

def writtenNode (names : String → String) (block : Block)
    (plugged : String → Option (Block × Fragment)) : Fragment :=
  let operand (input : String) (outer : Order) : String :=
    orZero (fittedCode outer ((plugged input).map Prod.snd))
  match block.role? with
  | none | some .busSetup => .statement ""
  | some .number => Expression.number block
  | some .variableRead => .value block.nameRead .atomic
  | some .arithmetic =>
    match Expression.operatorOf? block.operator with
    | none => .statement ""
    | some (symbol, order) => .value (operand "A" order ++ symbol ++ operand "B" order) order
  | some .transfer =>
    .statement ((Bus.transferSequence (Bus.selectPin? block) (operand dataInput .atomic)).render 0)
  | some .transferAnswer =>
    match Bus.selectPin? block with
    | none => .value (Bus.transferCall (operand dataInput .atomic)).render .postfixUnary
    | some pin => .value (names pin ++ "()") .postfixUnary

/-- The code of a block that has no fault, where `names` gives the helper of each pin. -/
def written (names : String → String) (block : Block) : Fragment := block.fold (writtenNode names)

def inputCode (names : String → String) (block : Block) (input : String) (outer : Order) : String :=
  fittedCode outer ((block.input? input).map (written names))

def operandCode (names : String → String) (block : Block) (input : String) (outer : Order) :
    String :=
  orZero (block.inputCode names input outer)

/-- The code of a transfer's data. -/
def dataCode (names : String → String) (block : Block) : String :=
  block.operandCode names dataInput .atomic

theorem written_eq (names : String → String) (block : Block) :
    block.written names =
      match block.role? with
      | none | some .busSetup => .statement ""
      | some .number => Expression.number block
      | some .variableRead => .value block.nameRead .atomic
      | some .arithmetic =>
        match Expression.operatorOf? block.operator with
        | none => .statement ""
        | some (symbol, order) =>
          .value (block.operandCode names "A" order ++ symbol ++ block.operandCode names "B" order)
            order
      | some .transfer =>
        .statement ((Bus.transferSequence (Bus.selectPin? block) (block.dataCode names)).render 0)
      | some .transferAnswer =>
        match Bus.selectPin? block with
        | none => .value (Bus.transferCall (block.dataCode names)).render .postfixUnary
        | some pin => .value (names pin ++ "()") .postfixUnary := by
  rw [written, fold_eq]
  simp only [writtenNode, map_snd_plugged]
  rfl

def calledPinsNode (block : Block) (plugged : String → Option (Block × List String)) :
    List String :=
  let input (name : String) : List String := ((plugged name).map Prod.snd).getD []
  match block.role? with
  | some .arithmetic => input "A" ++ input "B"
  | some .transfer => input dataInput
  | some .transferAnswer =>
    match Bus.selectPin? block with
    | none => input dataInput
    | some pin => [pin]
  | _ => []

/-- The pins whose helpers the code of a block calls. What such a helper calls in turn is not
among them. -/
def calledPins (block : Block) : List String := block.fold calledPinsNode

def calledAt (block : Block) (input : String) : List String := atInput [] calledPins block input

theorem calledPins_eq (block : Block) :
    block.calledPins =
      match block.role? with
      | some .arithmetic => block.calledAt "A" ++ block.calledAt "B"
      | some .transfer => block.calledAt dataInput
      | some .transferAnswer =>
        match Bus.selectPin? block with
        | none => block.calledAt dataInput
        | some pin => [pin]
      | _ => [] := by
  rw [calledPins, fold_eq]
  simp only [calledPinsNode, map_snd_plugged]
  rfl

/-- What is known of the pins that a block's code calls holds for those of an input that the code
contains. -/
theorem operandCode_congr {names other : String → String} {block : Block} {input : String}
    (ih : ∀ child, block.input? input = some child →
      (∀ pin ∈ child.calledPins, names pin = other pin) → child.written names = child.written other)
    (h : ∀ pin ∈ block.calledAt input, names pin = other pin) (outer : Order) :
    block.operandCode names input outer = block.operandCode other input outer := by
  unfold operandCode inputCode
  cases hc : block.input? input with
  | none => rfl
  | some child =>
    rw [calledAt, atInput_of_some hc] at h
    rw [Option.map_some, ih child hc h, Option.map_some]

theorem written_congr {names other : String → String} (block : Block)
    (h : ∀ pin ∈ block.calledPins, names pin = other pin) :
    block.written names = block.written other := by
  induction block using induct_inputs with
  | node block ih =>
    rw [calledPins_eq] at h
    rw [written_eq, written_eq]
    cases hr : block.role? with
    | none => rfl
    | some role =>
      cases role with
      | busSetup | number | variableRead => rfl
      | arithmetic =>
        simp only [hr, List.mem_append] at h
        have ha := operandCode_congr (ih "A") fun pin hp => h pin (Or.inl hp)
        have hb := operandCode_congr (ih "B") fun pin hp => h pin (Or.inr hp)
        simp only [ha, hb]
      | transfer =>
        simp only [hr] at h
        simp only [dataCode, operandCode_congr (ih dataInput) h]
      | transferAnswer =>
        cases hp : Bus.selectPin? block with
        | none =>
          simp only [hr, hp] at h
          simp only [dataCode, operandCode_congr (ih dataInput) h]
        | some pin =>
          simp only [hr, hp, List.mem_singleton, forall_eq] at h
          simp only [h]

end Block

end BlockSketch
