import BlockSketch.Proofs.Text.Lines
import BlockSketch.Statement

namespace BlockSketch

namespace Statement

theorem isCallTo_iff {callee : String} {statement : Statement} :
    statement.isCallTo callee = true ↔ ∃ arguments, statement = .call ⟨callee, arguments⟩ := by
  cases statement with
  | call call =>
    obtain ⟨name, arguments⟩ := call
    simp [isCallTo]
  | assign | declare | giveBack => simp [isCallTo]

/-- Every statement ends with a semicolon. -/
theorem render_ne_empty (statement : Statement) : statement.render ≠ "" := by
  intro h
  have hl := congrArg String.toList h
  cases statement <;> simp [render] at hl

/-- What keeps the result of a call is no call statement any more. -/
theorem isCallTo_capture {callee : String} {statement : Statement}
    (h : statement.isCallTo callee = true) (target : String) :
    (statement.capture target).isCallTo callee = false := by
  obtain ⟨arguments, rfl⟩ := isCallTo_iff.mp h
  rfl

end Statement

namespace Sequence

theorem exchange_eq (wanted : Statement → Bool) (change : Statement → Statement)
    (statements : Sequence) :
    statements.exchange wanted change =
      (statements.map fun s => if wanted s then change s else s, statements.count wanted) := by
  induction statements with
  | nil => rfl
  | cons s rest ih =>
    rw [exchange, ih, count, count, List.map_cons]
    cases hw : wanted s with
    | true => rw [List.countP_cons_of_pos hw]; rfl
    | false => rw [List.countP_cons_of_neg (by simp [hw])]; rfl

theorem exists_single {wanted : Statement → Bool} {statements : Sequence}
    (h : statements.count wanted = 1) :
    ∃ before s after, statements = before ++ s :: after ∧ wanted s = true ∧
      ∀ other ∈ before ++ after, wanted other = false := by
  rw [count] at h
  have hpos : 0 < statements.countP wanted := by omega
  obtain ⟨s, hm, hw⟩ := List.countP_pos_iff.mp hpos
  obtain ⟨before, after, rfl⟩ := List.append_of_mem hm
  refine ⟨before, s, after, rfl, hw, ?_⟩
  rw [List.countP_append, List.countP_cons_of_pos hw] at h
  have hnone : (before ++ after).countP wanted = 0 := by
    rw [List.countP_append]
    omega
  intro other ho
  simpa using List.countP_eq_zero.mp hnone other ho

theorem exchange_single {wanted : Statement → Bool} {before after : Sequence} {s : Statement}
    (hs : wanted s = true) (h : ∀ other ∈ before ++ after, wanted other = false)
    (change : Statement → Statement) :
    exchange wanted change (before ++ s :: after) = (before ++ change s :: after, 1) := by
  have hkept {part : Sequence} (hp : part ⊆ before ++ after) :
      part.map (fun other => if wanted other then change other else other) = part := by
    rw [List.map_congr_left fun other ho => if_neg (by simp [h other (hp ho)]), List.map_id']
  have hcount {part : Sequence} (hp : part ⊆ before ++ after) : part.countP wanted = 0 :=
    List.countP_eq_zero.mpr fun other ho => by simp [h other (hp ho)]
  have hbefore := List.subset_append_left before after
  have hafter := List.subset_append_right before after
  rw [exchange_eq, count, List.map_append, List.map_cons, hkept hbefore, hkept hafter, if_pos hs,
    List.countP_append, List.countP_cons_of_pos hs, hcount hbefore, hcount hafter]

/-- No statement is an empty line, so all are indented. -/
theorem lines_two (statements : Sequence) :
    statements.lines 2 = statements.map fun s => "  " ++ s.render := by
  rw [lines, Text.indent, List.map_map]
  apply List.map_congr_left
  intro s _
  exact if_neg s.render_ne_empty

/-- One statement on each line, and a line feed behind the last. Without a statement there is no
last line, and so no line feed. -/
theorem render_eq (indent : Int) (statements : Sequence) :
    statements.render indent =
      if statements = [] then "" else "\n".intercalate (statements.lines indent) ++ "\n" := by
  rcases List.eq_nil_or_concat statements with rfl | ⟨before, last, rfl⟩
  · rfl
  · rw [if_neg (by simp), render, lines, Text.indent]
    simp only [List.concat_eq_append, List.map_append, List.map_singleton, Text.intercalate_concat,
      Text.endLines_append, Text.endLines, String.append_empty, String.append_assoc]

/-- Every line is ended on its own, so none runs into the text behind it. -/
theorem render_append (indent : Int) (before after : Sequence) :
    render indent (before ++ after) = before.render indent ++ after.render indent := by
  rw [render, lines, Text.indent, List.map_append, List.map_append, Text.endLines_append]
  rfl

theorem exchange_append (wanted : Statement → Bool) (change : Statement → Statement)
    (before after : Sequence) :
    exchange wanted change (before ++ after) =
      ((before.exchange wanted change).1 ++ (after.exchange wanted change).1,
        (before.exchange wanted change).2 + (after.exchange wanted change).2) := by
  simp only [exchange_eq, count, List.map_append, List.countP_append]

/-- Nothing is left to exchange once every wanted statement has become one that is not wanted. -/
theorem exchange_again {wanted : Statement → Bool} {change : Statement → Statement}
    {statements : Sequence} (h : ∀ s ∈ statements, wanted s = true → wanted (change s) = false) :
    exchange wanted change (statements.exchange wanted change).1 =
      ((statements.exchange wanted change).1, 0) := by
  have hdone : ∀ s ∈ (statements.exchange wanted change).1, wanted s = false := by
    rw [exchange_eq]
    intro s hs
    obtain ⟨old, ho, rfl⟩ := List.mem_map.mp hs
    cases hw : wanted old with
    | true => exact h old ho hw
    | false => simpa using hw
  generalize (statements.exchange wanted change).1 = exchanged at hdone
  rw [exchange_eq, List.map_congr_left fun s hs => if_neg (by simp [hdone s hs]), List.map_id',
    count, List.countP_eq_zero.mpr fun s hs => by simp [hdone s hs]]

/-- Sequences are written and exchanged together as they are one by one. Every statement keeps its
place, and if nothing becomes wanted by the change, another time changes nothing. -/
theorem written_and_exchanged_by_parts (statements more : Sequence) (indent : Int)
    (wanted : Statement → Bool) (change : Statement → Statement) :
    (statements.render indent =
      if statements = [] then "" else "\n".intercalate (statements.lines indent) ++ "\n") ∧
    render indent (statements ++ more) = statements.render indent ++ more.render indent ∧
    exchange wanted change (statements ++ more) =
      ((statements.exchange wanted change).1 ++ (more.exchange wanted change).1,
        (statements.exchange wanted change).2 + (more.exchange wanted change).2) ∧
    (statements.exchange wanted change).2 = statements.count wanted ∧
    (statements.exchange wanted change).1.length = statements.length ∧
    (∀ (place : Nat) (s : Statement), statements[place]? = some s →
      (statements.exchange wanted change).1[place]? = some (if wanted s then change s else s)) ∧
    ((∀ s, wanted s = true → wanted (change s) = false) →
      exchange wanted change (statements.exchange wanted change).1 =
        ((statements.exchange wanted change).1, 0)) := by
  refine ⟨render_eq indent statements, render_append indent statements more,
    exchange_append wanted change statements more, ?_, ?_, ?_, ?_⟩
  · rw [exchange_eq]
  · rw [exchange_eq, List.length_map]
  · intro place s hs
    rw [exchange_eq, List.getElem?_map, hs]
    rfl
  · exact fun h => exchange_again fun s _ => h s

/-- The answer of a transfer is dropped. -/
def dropping : Sequence :=
  [.call ⟨"digitalWrite", ["8", "HIGH"]⟩, .call ⟨"SPI.transfer", ["x"]⟩,
    .call ⟨"digitalWrite", ["8", "LOW"]⟩]

/-- The answer of a transfer is kept. -/
def keeping : Sequence :=
  [.call ⟨"digitalWrite", ["8", "HIGH"]⟩, .assign "answer" (.call ⟨"SPI.transfer", ["x"]⟩),
    .call ⟨"digitalWrite", ["8", "LOW"]⟩]

theorem answer_kept_once :
    (∀ s : Statement, s.isCallTo "SPI.transfer" = true →
      (s.capture "answer").isCallTo "SPI.transfer" = false) ∧
    dropping.exchange (Statement.isCallTo "SPI.transfer") (Statement.capture "answer") =
      (keeping, 1) ∧
    keeping.exchange (Statement.isCallTo "SPI.transfer") (Statement.capture "answer") =
      (keeping, 0) := by
  have hkept (s : Statement) (h : s.isCallTo "SPI.transfer" = true) :
      (s.capture "answer").isCallTo "SPI.transfer" = false := Statement.isCallTo_capture h "answer"
  obtain ⟨-, -, -, -, -, -, hagain⟩ := written_and_exchanged_by_parts dropping [] 0
    (Statement.isCallTo "SPI.transfer") (Statement.capture "answer")
  exact ⟨hkept, rfl, hagain hkept⟩

end Sequence

end BlockSketch
