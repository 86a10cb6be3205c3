import BlockSketch.Proofs.Evaluation.Program
import BlockSketch.Proofs.Formula.Meaning
import BlockSketch.Proofs.Helpers.Synthesis
import BlockSketch.Proofs.Text.Scan

namespace BlockSketch.Compiler

/-- Only an atom, or code that holds together more tightly than its place, stands bare. Where there
is no code, there is a zero. -/
def placed (outer : Order) : Option Fragment → String
  | some (.value code inner) =>
    if code = "" then "0"
    else if inner = .atomic ∨ inner.rank < outer.rank then code
    else "(" ++ code ++ ")"
  | _ => "0"

def codeNode (names : String → String) (block : Block)
    (plugged : String → Option (Block × Fragment)) : Fragment :=
  let operand (input : String) (outer : Order) : String :=
    placed outer ((plugged input).map Prod.snd)
  let pin? := (block.field? "SPI_SS").filter (· ≠ "none")
  match block.role? with
  | none | some .busSetup => .statement ""
  | some .number =>
    .value block.numberText
      (if block.numberText.toList.head? = some '-' then .prefixUnary else .atomic)
  | some .variableRead => .value ((block.field? "VAR").getD "") .atomic
  | some .arithmetic =>
    match Formula.Operator.picked? block.operator with
    | none => .statement ""
    | some operator =>
      .value (operand "A" operator.order ++ operator.symbol ++ operand "B" operator.order)
        operator.order
  | some .transfer =>
    let transfer := "SPI.transfer(" ++ operand "SPI_DATA" .atomic ++ ");\n"
    match pin? with
    | none => .statement transfer
    | some pin =>
      .statement ("digitalWrite(" ++ pin ++ ", HIGH);\n" ++ transfer ++
        "digitalWrite(" ++ pin ++ ", LOW);\n")
  | some .transferAnswer =>
    match pin? with
    | none => .value ("SPI.transfer(" ++ operand "SPI_DATA" .atomic ++ ")") .postfixUnary
    | some pin => .value (names pin ++ "()") .postfixUnary

/-- The code of a block once all helpers have names. -/
def code (names : String → String) (block : Block) : Fragment := block.fold (codeNode names)

def dataCode (names : String → String) (block : Block) : String :=
  placed .atomic ((block.input? "SPI_DATA").map (code names))

/-- A value that stands in the loop on its own ends with a semicolon. -/
def loopCode : Fragment → String
  | .value code _ => if code = "" then "" else code ++ ";\n"
  | .statement code => code

theorem rank_eq_zero {order : Order} : order.rank = 0 ↔ order = .atomic := by
  cases order <;> simp [Order.rank]

theorem needsParens_eq_false {outer : Order} (h : outer ≠ .none) (inner : Order) :
    outer.needsParens inner = false ↔ inner = .atomic ∨ inner.rank < outer.rank := by
  unfold Order.needsParens
  by_cases hr : inner.rank < outer.rank
  · simp [hr]
  · -- An atom is nowhere else looser than its place than where only atoms stand bare.
    have hatom : inner = .atomic ↔ outer = inner ∧ outer = .atomic := by
      constructor
      · rintro rfl
        have hz : outer = .atomic := rank_eq_zero.mp (Nat.eq_zero_of_not_pos hr)
        exact ⟨hz, hz⟩
      · rintro ⟨rfl, ho⟩
        exact ho
    simp [hr, h, hatom]

theorem placed_eq {outer : Order} (h : outer ≠ .none) (fragment : Option Fragment) :
    placed outer fragment = orZero (fittedCode outer fragment) := by
  cases fragment with
  | none => rfl
  | some fragment =>
    cases fragment with
    | statement => rfl
    | value code inner =>
      simp only [placed, fittedCode, fitted, ← needsParens_eq_false h]
      by_cases hc : code = ""
      · simp only [hc, ↓reduceIte, orZero]
      · cases outer.needsParens inner with
        | false => simp [orZero, hc]
        | true => simp [orZero, hc, inParens]

theorem render_transferSequence (pin? : Option String) (data : String) :
    (Bus.transferSequence pin? data).render 0 =
      match pin? with
      | none => "SPI.transfer(" ++ data ++ ");\n"
      | some pin =>
        "digitalWrite(" ++ pin ++ ", HIGH);\n" ++ ("SPI.transfer(" ++ data ++ ");\n") ++
          "digitalWrite(" ++ pin ++ ", LOW);\n" := by
  have hcall : (Statement.call (Bus.transferCall data)).render =
      "SPI.transfer(" ++ data ++ ")" ++ ";" := by
    rw [Statement.render, Bus.render_transferCall]
  have hswitch (pin level : String) : (Bus.switchPin pin level).render =
      "digitalWrite(" ++ pin ++ ", " ++ level ++ ");" := Bus.render_switchPin pin level
  apply String.toList_injective
  rw [Sequence.render, Sequence.lines, Text.indent_zero]
  cases pin? with
  | none => simp [Bus.transferSequence, Text.endLines, hcall]
  | some pin => simp [Bus.transferSequence, Text.endLines, hcall, hswitch]

theorem codeNode_eq (names : String → String) : codeNode names = Block.writtenNode names := by
  have hatomic (fragment : Option Fragment) :
      placed .atomic fragment = orZero (fittedCode .atomic fragment) :=
    placed_eq (by decide) fragment
  funext block plugged
  have hpin : Bus.selectPin? block = (block.field? "SPI_SS").filter (· ≠ "none") := rfl
  unfold codeNode Block.writtenNode
  cases hr : block.role? with
  | none => rfl
  | some role =>
    cases role with
    | busSetup | number | variableRead => rfl
    | arithmetic =>
      simp only [Formula.Operator.operatorOf?_eq]
      cases Formula.Operator.picked? block.operator with
      | none => rfl
      | some operator =>
        have ho : operator.order ≠ .none := by cases operator <;> nofun
        simp only [Option.map_some, placed_eq ho]
    | transfer =>
      simp only [hatomic, render_transferSequence, hpin]
      cases (block.field? "SPI_SS").filter (· ≠ "none") <;> rfl
    | transferAnswer =>
      simp only [hatomic, Bus.render_transferCall, hpin]
      rfl

theorem code_eq_written (names : String → String) (block : Block) :
    code names block = block.written names := by
  rw [code, codeNode_eq, Block.written]

theorem dataCode_eq (names : String → String) (block : Block) :
    dataCode names block = block.dataCode names := by
  have hcode : code names = Block.written names := funext (code_eq_written names)
  rw [dataCode, placed_eq (by decide), hcode]
  rfl

/-- What becomes of the answering block that is the first for its pin. The name of the helper is
filled in wherever the code of the helper leaves it open. -/
structure Entry (names : String → String) (answer : String × Block) (entry : String × Helper) :
    Prop where
  wish : entry.1 = "spiReturnSlave" ++ answer.1
  name : entry.2.name = names answer.1
  body : ∃ pieces,
    Text.Scanned "%%FUNCTION_NAME%%" ("\n".intercalate
      (Bus.namedLines "%%FUNCTION_NAME%%" answer.1 (dataCode names answer.2))) pieces ∧
    entry.2.body = (names answer.1).intercalate pieces

end BlockSketch.Compiler
