import BlockSketch.Proofs.Evaluation.Program
import BlockSketch.Proofs.Text.Lines

namespace BlockSketch

open Text (OneLine IsCode IsCodeText IsIndented)

namespace Block

/-- No field has a line feed in it, neither the block's own nor those of the blocks within it. -/
def OneLined (block : Block) : Prop :=
  ∀ inner, Within inner block → ∀ entry ∈ inner.fields, OneLine entry.2

namespace OneLined

theorem field {block : Block} (h : block.OneLined) (hf : block.field? name = some value) :
    OneLine value :=
  h block .self _ (Table.mem_of_get? hf)

theorem fieldOr {block : Block} (h : block.OneLined) (name : String) {standard : String}
    (hs : OneLine standard) : OneLine (block.fieldOr name standard) := by
  unfold Block.fieldOr
  cases hf : block.field? name with
  | none => exact hs
  | some value => exact h.field hf

theorem selectPin {block : Block} (h : block.OneLined) (hp : Bus.selectPin? block = some pin) :
    OneLine pin :=
  h.field (Option.filter_eq_some_iff.mp hp).1

theorem input {block child : Block} (h : block.OneLined) (hi : block.input? name = some child) :
    child.OneLined :=
  fun inner hw => h inner (hw.trans (.of_input hi))

theorem withoutNext {block : Block} (h : block.OneLined) : (block.withNext none).OneLined := by
  intro inner hw
  rcases within_withNext hw with rfl | hw
  · exact h block .self
  · exact h inner hw

end OneLined

end Block

namespace Bus

theorem isCode_transferSequence {pin? : Option String} {data : String}
    (hp : ∀ pin ∈ pin?, OneLine pin) (hd : OneLine data) :
    ∀ statement ∈ transferSequence pin? data, IsCode statement.render := by
  cases pin? with
  | none =>
    simp +decide [transferSequence, transferCall, Statement.render, Call.render, IsCode, hd]
  | some pin =>
    simp +decide [transferSequence, switchPin, transferCall, Statement.render, Call.render,
      IsCode, hd, hp pin rfl]

theorem isCode_answerSequence {pin data : String} (hp : OneLine pin) (hd : OneLine data) :
    ∀ statement ∈ answerSequence pin data, IsCode statement.render := by
  simp +decide [answerSequence, switchPin, transferCall, Statement.render, Source.render,
    Call.render, IsCode, hd, hp]

end Bus

theorem Sequence.isCodeText {statements : Sequence}
    (h : ∀ statement ∈ statements, IsCode statement.render) : IsCodeText (statements.render 0) := by
  refine ⟨statements.map Statement.render, ?_, by simpa using h⟩
  rw [Sequence.render, Sequence.lines, Text.indent_zero]

/-- Values are on one line; statements are on lines of their own. -/
def Fragment.IsTidy : Fragment → Prop
  | value code _ => OneLine code
  | statement code => IsCodeText code

theorem Fragment.IsTidy.asStatement {fragment : Fragment} (h : fragment.IsTidy) :
    IsCodeText fragment.asStatement := by
  cases fragment with
  | statement code => exact h
  | value code order =>
    rw [Fragment.asStatement]
    split
    · exact Text.isCodeText_empty
    · have hcode : OneLine code := h
      refine ⟨[code ++ ";"], ?_, ?_⟩
      · simp [Text.endLines, String.append_assoc]
      · simpa +decide [IsCode] using hcode

namespace Block

theorem operandCode_oneLine {names : String → String} {block : Block} {input : String}
    (h : ∀ child, block.input? input = some child → (child.written names).IsTidy) (outer : Order) :
    OneLine (block.operandCode names input outer) := by
  have hcode : OneLine (block.inputCode names input outer) := by
    unfold inputCode
    cases hc : block.input? input with
    | none => exact (by decide : OneLine "")
    | some child =>
      have hchild := h child hc
      rw [Option.map_some]
      cases hw : child.written names with
      | statement code => exact (by decide : OneLine "")
      | value code inner =>
        rw [hw, Fragment.IsTidy] at hchild
        rw [fittedCode, fitted]
        split
        · decide
        · split
          · simpa +decide [inParens] using hchild
          · exact hchild
  unfold operandCode orZero
  split
  · decide
  · exact hcode

theorem symbol_oneLine {picked : String}
    (h : Expression.operatorOf? picked = some (symbol, order)) : OneLine symbol := by
  unfold Expression.operatorOf? at h
  split at h
  all_goals cases h
  all_goals decide

/-- What a block's code is made of is on one line, so the code is tidy. -/
theorem written_tidy {names : String → String} (hn : ∀ pin, OneLine (names pin)) {block : Block}
    (h : block.OneLined) : (block.written names).IsTidy := by
  induction block using induct_inputs with
  | node block ih =>
    have hoperand (input : String) (outer : Order) :
        OneLine (block.operandCode names input outer) :=
      operandCode_oneLine (fun child hc => ih input child hc (h.input hc)) outer
    rw [written_eq]
    cases hr : block.role? with
    | none => exact Text.isCodeText_empty
    | some role =>
      cases role with
      | busSetup => exact Text.isCodeText_empty
      | number =>
        have hpicked : OneLine (block.fieldOr "NUM" "") := h.fieldOr "NUM" (by decide)
        simp only [Expression.number, Fragment.IsTidy]
        split
        · decide
        · exact hpicked
      | variableRead => exact h.fieldOr "VAR" (by decide)
      | arithmetic =>
        dsimp only
        split
        · exact Text.isCodeText_empty
        · rename_i symbol order ho
          simp only [Fragment.IsTidy, Text.oneLine_append]
          exact ⟨⟨hoperand "A" order, symbol_oneLine ho⟩, hoperand "B" order⟩
      | transfer =>
        exact Sequence.isCodeText
          (Bus.isCode_transferSequence (fun pin hp => h.selectPin hp) (hoperand _ _))
      | transferAnswer =>
        dsimp only
        split
        · have hdata : OneLine (block.dataCode names) := hoperand dataInput .atomic
          simpa +decide [Fragment.IsTidy, Bus.transferCall, Call.render] using hdata
        · rename_i pin hs
          simpa +decide [Fragment.IsTidy] using hn pin

theorem dataCode_oneLine {names : String → String} (hn : ∀ pin, OneLine (names pin)) {block : Block}
    (h : block.OneLined) : OneLine (block.dataCode names) :=
  operandCode_oneLine (fun _ hc => written_tidy hn (h.input hc)) .atomic

theorem sequenceText_tidy {names : String → String} (hn : ∀ pin, OneLine (names pin))
    {blocks : List Block} (h : ∀ block ∈ blocks, block.OneLined) :
    IsCodeText (sequenceText names blocks) := by
  induction blocks with
  | nil => exact Text.isCodeText_empty
  | cons block rest ih =>
    exact (written_tidy hn (h block List.mem_cons_self)).asStatement.append
      (ih fun other hm => h other (List.mem_cons_of_mem _ hm))

end Block

end BlockSketch
