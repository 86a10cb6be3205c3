import BlockSketch.Proofs.Evaluation.Pass
import BlockSketch.Proofs.Formula.Meaning
import BlockSketch.Proofs.Names.Draft

namespace BlockSketch

namespace Formula

/-- The code is read as the formula, and as a whole at the level of its order. -/
def ReadFrom (code : String) (formula : Formula) : Prop :=
  ∃ row, tokens code = some row ∧ Derives formula.level row formula

/-- The loosest level that can stand bare in a place of the order. -/
def place : Order → Level
  | .atomic => .primary
  | .multiplicative => .unary
  | .additive => .product
  | _ => .sum

/-- What needs no parentheses binds tight enough for its place. -/
theorem level_of_bare {formula : Formula} {outer : Order}
    (h : outer.needsParens formula.order = false) : formula.level.rank ≤ (place outer).rank := by
  cases formula with
  | number | read | call | transfer =>
    exact Nat.zero_le _
  | negate operand =>
    cases outer <;> simp [Order.needsParens, Order.rank, order, level, place, Level.rank] at h ⊢
  | binary operator left right =>
    simp only [order, level] at h ⊢
    cases operator <;> revert h <;> cases outer <;> decide

theorem Derives.ne_nil {level : Level} {row : List Token} {formula : Formula}
    (h : Derives level row formula) : row ≠ [] := by
  induction h with
  | number | read | call | transfer | parens | negate | product | sum => simp
  | ofPrimary _ ih | ofUnary _ ih | ofProduct _ ih => exact ih

theorem ReadFrom.ne_empty {code : String} {formula : Formula} (h : ReadFrom code formula) :
    code ≠ "" := by
  obtain ⟨row, ht, hd⟩ := h
  rintro rfl
  exact hd.ne_nil (Option.some.inj ht).symm

theorem ReadFrom.sum {code : String} {formula : Formula} (h : ReadFrom code formula) :
    ∃ row, tokens code = some row ∧ Derives .sum row formula := by
  obtain ⟨row, ht, hd⟩ := h
  refine ⟨row, ht, hd.loosen ?_⟩
  cases formula.level <;> decide

/-- In any place, code that was fitted into it can stand for its formula. -/
theorem ReadFrom.fitted {code : String} {formula : Formula} (h : ReadFrom code formula)
    (outer : Order) :
    ∃ row, tokens (BlockSketch.fitted code formula.order outer) = some row ∧
      Derives (place outer) row formula := by
  have hne := h.ne_empty
  unfold BlockSketch.fitted
  rw [if_neg hne]
  cases hp : outer.needsParens formula.order with
  | false =>
    obtain ⟨row, ht, hd⟩ := h
    exact ⟨row, ht, hd.loosen (level_of_bare hp)⟩
  | true =>
    obtain ⟨row, ht, hd⟩ := h.sum
    refine ⟨_, tokens_inParens ht, Derives.loosen (.parens hd) (Nat.zero_le _)⟩

theorem isNameChar_of_all_isDigit {letters : List Char} (h : letters.all Char.isDigit = true) :
    letters.all Identifier.isNameChar = true := by
  rw [List.all_eq_true] at h ⊢
  intro c hc
  exact Identifier.isNameChar_of_isDigit (h c hc)

/-- Digits are one token, whatever sign is in front of them. -/
theorem readFrom_ofNumeral {text : String} (h : IsNumeral text) :
    ReadFrom text (ofNumeral text) := by
  obtain ⟨digits, hn, hd, ht⟩ := h
  have hc := isNameChar_of_all_isDigit hd
  have hw : Derives .primary [.word (String.ofList digits)] (.number (String.ofList digits)) :=
    .number (by simpa using hn) (by simpa using hd)
  rcases ht with ht | ht
  · have he : text = String.ofList digits := by rw [← ht, String.ofList_toList]
    have hf : ofNumeral text = .number text := by
      unfold ofNumeral
      split
      · rename_i rest hr
        rw [← ht, hr] at hd
        simp at hd
      · rfl
    rw [hf, he]
    exact ⟨_, tokens_name (by simpa using hc) (by simpa using hn), hw⟩
  · have hf : ofNumeral text = .negate (.number (String.ofList digits)) := by
      simp only [ofNumeral, ht]
    have hm : mark? '-' digits.head? = some [.sign .subtract] := by
      obtain ⟨first, rest, rfl⟩ := List.exists_cons_of_ne_nil hn
      have hdigit : first.isDigit = true := by
        rw [List.all_cons, Bool.and_eq_true] at hd
        exact hd.1
      have hj : joins '-' first = false := by
        cases hs : joins '-' first with
        | false => rfl
        | true =>
          simp only [joins, Bool.or_eq_true, beq_iff_eq] at hs
          rcases hs with (rfl | rfl) | rfl <;> simp at hdigit
      simp [mark?, hj, signOf?]
    rw [hf]
    refine ⟨[.sign .subtract, .word (String.ofList digits)], ?_, .negate (.ofPrimary hw)⟩
    unfold tokens
    rw [ht, scan]
    simp [Identifier.isNameChar, Char.isAlphanum, hm, scan_name hc, endWord, hn]

theorem readFrom_read {name : String} (h : Identifier.IsValid name) : ReadFrom name (.read name) :=
  ⟨_, tokens_name h.1 h.ne_empty, .read h⟩

theorem readFrom_call {name : String} (h : Identifier.IsValid name) :
    ReadFrom (name ++ "()") (.call name) := by
  have ht := tokens_name h.1 h.ne_empty
  exact ⟨_, tokens_append (by simp [Parted]) ht rfl, .call h⟩

theorem tokens_symbol (operator : Operator) {code : String} {row : List Token}
    (h : tokens code = some row) :
    tokens (operator.symbol ++ code) = some (.sign operator :: row) := by
  unfold tokens at *
  rw [String.toList_append]
  cases operator with
  | add =>
    change scan [] (' ' :: '+' :: ' ' :: code.toList) = _
    simp [scan, h, mark?, joins, signOf?, endWord, Identifier.isNameChar, Char.isAlphanum]
  | subtract =>
    change scan [] (' ' :: '-' :: ' ' :: code.toList) = _
    simp [scan, h, mark?, joins, signOf?, endWord, Identifier.isNameChar]
  | multiply =>
    change scan [] (' ' :: '*' :: ' ' :: code.toList) = _
    simp [scan, h, mark?, joins, signOf?, endWord, Identifier.isNameChar]
  | divide =>
    change scan [] (' ' :: '/' :: ' ' :: code.toList) = _
    simp [scan, h, mark?, joins, signOf?, endWord, Identifier.isNameChar]

theorem readFrom_binary (operator : Operator) {left right : Formula} {first second : String}
    {before after : List Token} (hb : tokens first = some before) (ha : tokens second = some after)
    (hl : Derives (place operator.order) before left)
    (hr : Derives (place operator.order) after right) :
    ReadFrom (first ++ operator.symbol ++ second) (.binary operator left right) := by
  have hp : Parted (operator.symbol ++ second).toList := by
    cases operator <;> simp [Parted, Operator.symbol]
  refine ⟨before ++ .sign operator :: after, ?_, ?_⟩
  · rw [String.append_assoc]
    exact tokens_append hp hb (tokens_symbol operator ha)
  · cases operator with
    | add | subtract => exact .sum rfl (hl.loosen (by decide)) hr
    | multiply | divide => exact .product rfl (hl.loosen (by decide)) hr

theorem readFrom_transfer {data : Formula} {code : String} {row : List Token}
    (ht : tokens code = some row) (hd : Derives .sum row data) :
    ReadFrom (Bus.transferCall code).render (.transfer data) := by
  refine ⟨_, ?_, .transfer hd⟩
  have hp : tokens ("SPI.transfer" ++ ("(" ++ code ++ ")")) =
      some ([.word "SPI", .point, .word "transfer"] ++ ([.opening] ++ row ++ [.closing])) := by
    have hw : tokens "SPI.transfer" = some [.word "SPI", .point, .word "transfer"] := by decide
    exact tokens_append (by simp [Parted]) hw (tokens_inParens ht)
  simp only [Call.render, Bus.transferCall, Bus.transferCallee,
    String.intercalate_singleton, String.append_assoc] at hp ⊢
  rw [hp]
  simp

end Formula

namespace Block

/-- The code of a block's written form is read as what the block means. -/
def Reads (names : String → String) (block : Block) : Prop :=
  ∃ code, block.written names = .value code (block.denoted names).order ∧
    Formula.ReadFrom code (block.denoted names)

/-- Nothing plugged in is read as zero, in any place. -/
theorem operand_reads {names : String → String} {block : Block} {input : String}
    (ih : ∀ child, block.input? input = some child →
      (∀ pin ∈ child.calledPins, Identifier.IsValid (names pin)) → child.Reads names)
    (hn : ∀ pin ∈ block.calledAt input, Identifier.IsValid (names pin)) (outer : Order) :
    ∃ row, Formula.tokens (block.operandCode names input outer) = some row ∧
      Formula.Derives (Formula.place outer) row (block.denotedAt names input) := by
  unfold operandCode inputCode
  cases hc : block.input? input with
  | none =>
    have hz : Formula.Derives .primary [.word "0"] zero := .number (by decide) (by decide)
    have ht : Formula.tokens "0" = some [.word "0"] := by decide
    rw [denotedAt, atInput_of_none hc]
    exact ⟨[.word "0"], ht, hz.loosen (Nat.zero_le _)⟩
  | some child =>
    rw [calledAt, atInput_of_some hc] at hn
    obtain ⟨code, hw, hr⟩ := ih child hc hn
    obtain ⟨row, ht, hd⟩ := hr.fitted outer
    rw [denotedAt, atInput_of_some hc]
    have hne : fitted code (child.denoted names).order outer ≠ "" := by
      intro he
      rw [he] at ht
      exact hd.ne_nil (Option.some.inj ht).symm
    refine ⟨row, ?_, hd⟩
    simp only [Option.map_some, hw, fittedCode, orZero, hne, ↓reduceIte, ht]

/-- Whatever names the helpers have: as long as each one that is called has an identifier for a
name, the written form of an expression is read as what the expression means. -/
theorem IsExpression.reads {block : Block} (h : IsExpression block) {names : String → String}
    (hn : ∀ pin ∈ block.calledPins, Identifier.IsValid (names pin)) : block.Reads names := by
  induction h with
  | @number block hk hf =>
    have hr : block.role? = some .number := role?_of_kind hk rfl
    refine ⟨block.numberText, ?_, ?_⟩
    · rw [written_eq, denoted_eq, hr]
      simp only [Formula.order_ofNumeral]
      rfl
    · rw [denoted_eq, hr]
      exact Formula.readFrom_ofNumeral (IsExpression.numeral hf)
  | @read block name hk hv hname =>
    have hr : block.role? = some .variableRead := role?_of_kind hk rfl
    refine ⟨block.nameRead, ?_, ?_⟩
    · rw [written_eq, denoted_eq, hr]
      rfl
    · rw [denoted_eq, hr, nameRead_of_field hv]
      exact Formula.readFrom_read hname
  | @arithmetic block hk ho _ _ iha ihb =>
    have hr : block.role? = some .arithmetic := role?_of_kind hk rfl
    obtain ⟨operator, hp, he⟩ := Formula.Operator.exists_of_picked (operator ho)
    rw [calledPins_eq] at hn
    simp only [hr, List.mem_append] at hn
    have hna : ∀ pin ∈ block.calledAt "A", Identifier.IsValid (names pin) :=
      fun pin hm => hn pin (Or.inl hm)
    have hnb : ∀ pin ∈ block.calledAt "B", Identifier.IsValid (names pin) :=
      fun pin hm => hn pin (Or.inr hm)
    obtain ⟨before, hb, hl⟩ := operand_reads iha hna operator.order
    obtain ⟨after, ha, hr'⟩ := operand_reads ihb hnb operator.order
    refine ⟨block.operandCode names "A" operator.order ++ operator.symbol ++
      block.operandCode names "B" operator.order, ?_, ?_⟩
    · rw [written_eq, denoted_eq, hr]
      simp only [hp, he]
      rfl
    · rw [denoted_eq, hr]
      simp only [hp]
      exact Formula.readFrom_binary operator hb ha hl hr'
  | @answer block hk _ ihd =>
    have hr : block.role? = some .transferAnswer := role?_of_kind hk rfl
    rw [calledPins_eq] at hn
    cases hp : Bus.selectPin? block with
    | none =>
      simp only [hr, hp] at hn
      obtain ⟨row, ht, hd⟩ := operand_reads ihd hn .atomic
      refine ⟨(Bus.transferCall (block.dataCode names)).render, ?_, ?_⟩
      · rw [written_eq, denoted_eq, hr]
        simp only [hp]
        rfl
      · rw [denoted_eq, hr]
        simp only [hp]
        exact Formula.readFrom_transfer ht (hd.loosen (by decide))
    | some pin =>
      simp only [hr, hp, List.mem_singleton, forall_eq] at hn
      refine ⟨names pin ++ "()", ?_, ?_⟩
      · rw [written_eq, denoted_eq, hr]
        simp only [hp]
        rfl
      · rw [denoted_eq, hr]
        simp only [hp]
        exact Formula.readFrom_call hn

theorem isValid_helperName {draft : Draft} (hd : draft.Reachable) (h : draft.Serves pin) :
    Identifier.IsValid (draft.helperName pin) := by
  obtain ⟨helper, hg⟩ := h
  apply hd.named.valid
  simp only [Draft.helperName, hg, Option.map_some, Option.getD_some]
  exact List.mem_map_of_mem (List.mem_map_of_mem (Table.mem_of_get? hg))

/-- On every draft that registrations can have made, an expression has code, the code is a row of
tokens, and the row stands for what the expression means and for nothing else. -/
theorem code_reads_as_denoted {block : Block} {draft : Draft} (hd : draft.Reachable)
    (hb : block.IsExpression) :
    ∃ code after row,
      block.code Registry.standard draft =
        .ok (.value code (block.denoted after.helperName).order) after ∧
      Formula.tokens code = some row ∧
      ∀ formula, Formula.Derives .sum row formula ↔ formula = block.denoted after.helperName := by
  have hr : (block.plan.after draft).Reachable := hd.steps (Draft.Steps.after _ _)
  have hn : ∀ pin ∈ block.calledPins,
      Identifier.IsValid ((block.plan.after draft).helperName pin) := fun pin hm =>
    isValid_helperName hr (after_serves hb.fault draft pin hm)
  obtain ⟨code, hw, hread⟩ := hb.reads hn
  obtain ⟨row, ht, hdrv⟩ := hread.sum
  refine ⟨code, block.plan.after draft, row, ?_, ht, ?_⟩
  · rw [code_eq, Plan.outcome, hb.fault]
    simp only [hw]
  · intro formula
    constructor
    · exact fun h => h.unique hdrv
    · rintro rfl
      exact hdrv

def sumWithAnswer : Block :=
  ⟨"math_arithmetic", "", [], [
    ("A", ⟨"variables_get", "", [("VAR", "gain")], [], none⟩),
    ("B", ⟨"spi_transfer_return", "", [("SPI_SS", "10")], [], none⟩)], none⟩

/-- A sum as one factor of a product, and a negative number as the other. -/
def scaledAnswer : Block :=
  ⟨"math_arithmetic", "", [("OP", "MULTIPLY")], [
    ("A", sumWithAnswer),
    ("B", ⟨"math_number", "", [("NUM", "-2")], [], none⟩)], none⟩

theorem scaledAnswer_isExpression : scaledAnswer.IsExpression := by
  have hv : Identifier.IsValid "gain" := ⟨by decide, 'g', by decide, by decide⟩
  have hs : sumWithAnswer.IsExpression := by
    refine .arithmetic rfl (by decide) ?_ ?_
    · rintro child ⟨⟩
      exact .read rfl rfl hv
    · rintro child ⟨⟩
      exact .answer rfl fun child h => by cases h
  refine .arithmetic rfl (by decide) ?_ ?_
  · rintro child ⟨⟩
    exact hs
  · rintro child ⟨⟩
    exact .number rfl (Or.inr ⟨['2'], by simp, by decide, Or.inr rfl⟩)

theorem scaledAnswer_reads : ∃ code after row,
    scaledAnswer.code Registry.standard (Draft.start .uno) =
      .ok (.value code (scaledAnswer.denoted after.helperName).order) after ∧
    Formula.tokens code = some row ∧
    ∀ formula, Formula.Derives .sum row formula ↔
      formula = scaledAnswer.denoted after.helperName :=
  code_reads_as_denoted (.start .uno) scaledAnswer_isExpression

end Block

end BlockSketch
