import BlockSketch.Proofs.Calls.Meaning
import BlockSketch.Proofs.Names.Fresh
import BlockSketch.Proofs.Text.Lines

namespace BlockSketch

/-- Where a text ends so, a word that follows is a word of its own. -/
def Opens (text : String) : Prop := ∀ c ∈ text.toList.getLast?, c = ' ' ∨ c = '(' ∨ c = '\n'

theorem Opens.append {text more : String} (ht : Opens text) (hm : Opens more) :
    Opens (text ++ more) := by
  intro c hc
  rw [String.toList_append, List.getLast?_append, Option.mem_def, Option.or_eq_some_iff] at hc
  rcases hc with hc | ⟨-, hc⟩
  · exact hm c hc
  · exact ht c hc

theorem opens_endLines (lines : List String) : Opens (Text.endLines lines) := by
  induction lines with
  | nil => simp [Opens, Text.endLines]
  | cons line rest ih =>
    have hl : Opens (line ++ "\n") := by simp [Opens]
    exact hl.append ih

/-- A call of the helper stands in the code, as a word of its own. -/
def Calls (code name : String) : Prop :=
  ∃ before after, code = before ++ (name ++ "()" ++ after) ∧ Opens before

namespace Calls

theorem exists_substituteFrom_call {name : String} (hv : Identifier.IsValid name)
    (own after : List Char) :
    ∃ rest, Text.substituteFrom Draft.namePlaceholder.toList own 0
      (name.toList ++ '(' :: ')' :: after) = name.toList ++ '(' :: ')' :: rest := by
  have hopen : '(' ∉ Draft.namePlaceholder.toList := by decide
  have hclose : ')' ∉ Draft.namePlaceholder.toList := by decide
  have hpercent : '%' ∈ Draft.namePlaceholder.toList := by decide
  have hne : Draft.namePlaceholder.toList ≠ [] := by decide
  have hname : '%' ∉ name.toList := by
    intro hm
    exact absurd (List.all_eq_true.mp hv.1 _ hm) (by decide)
  refine ⟨Text.substituteFrom Draft.namePlaceholder.toList own 0 after, ?_⟩
  rw [Text.substituteFrom_append_cons hopen hne _ _ _ 0 (Nat.zero_le _),
    Text.substituteFrom_of_not_mem hpercent hname]
  exact congrArg (name.toList ++ '(' :: ·)
    (Text.substituteFrom_append_cons hclose hne _ [] _ 0 (Nat.le_refl 0))

theorem self (name : String) : Calls (name ++ "()") name :=
  ⟨"", "", by simp, by simp [Opens]⟩

theorem append_right {code name : String} (h : Calls code name) (more : String) :
    Calls (code ++ more) name := by
  obtain ⟨before, after, rfl, ho⟩ := h
  exact ⟨before, after ++ more, by simp only [String.append_assoc], ho⟩

theorem append_left {code name : String} (h : Calls code name) (first : String)
    (hf : Opens first) : Calls (first ++ code) name := by
  obtain ⟨before, after, rfl, ho⟩ := h
  exact ⟨first ++ before, after, by simp only [String.append_assoc], hf.append ho⟩

theorem ne_empty {code name : String} (h : Calls code name) : code ≠ "" := by
  obtain ⟨before, after, rfl, -⟩ := h
  intro he
  have hl := congrArg String.toList he
  simp at hl

theorem isInfix {code name : String} (h : Calls code name) :
    (name ++ "()").toList <:+: code.toList := by
  obtain ⟨before, after, rfl, -⟩ := h
  exact ⟨before.toList, after.toList, by simp⟩

theorem fitted {code name : String} (h : Calls code name) (inner outer : Order) :
    Calls (orZero (BlockSketch.fitted code inner outer)) name := by
  have hp : Calls (inParens code) name :=
    (h.append_left "(" (by simp [Opens])).append_right ")"
  unfold BlockSketch.fitted orZero
  rw [if_neg h.ne_empty]
  cases outer.needsParens inner with
  | true => simpa [hp.ne_empty] using hp
  | false => simpa [h.ne_empty] using h

/-- No call of an identifier is changed where a placeholder becomes a name: the placeholder has
none of the characters around the identifier, and the identifier not all of the placeholder. -/
theorem substitute {code name : String} (h : Calls code name) (hv : Identifier.IsValid name)
    (own : String) : Calls (Text.substitute Draft.namePlaceholder own code) name := by
  obtain ⟨before, after, rfl, ho⟩ := h
  have hne : Draft.namePlaceholder.toList ≠ [] := by decide
  obtain ⟨rest, hrest⟩ := exists_substituteFrom_call hv own.toList after.toList
  have htext : (before ++ (name ++ "()" ++ after)).toList =
      before.toList ++ (name.toList ++ '(' :: ')' :: after.toList) := by simp
  rw [Text.substitute, htext]
  rcases List.eq_nil_or_concat before.toList with hb | ⟨first, c, hb⟩
  · rw [hb, List.nil_append, hrest]
    refine ⟨"", String.ofList rest, ?_, by simp [Opens]⟩
    apply String.toList_injective
    simp
  · have hc : c = ' ' ∨ c = '(' ∨ c = '\n' := ho c (by simp [hb])
    have hpart : c ∉ Draft.namePlaceholder.toList := by
      rcases hc with rfl | rfl | rfl <;> decide
    rw [hb, List.concat_eq_append, List.append_assoc, List.singleton_append,
      Text.substituteFrom_append_cons hpart hne _ _ _ 0 (Nat.zero_le _), hrest]
    generalize Text.substituteFrom _ own.toList 0 first = changed
    refine ⟨String.ofList (changed ++ [c]), String.ofList rest, ?_, ?_⟩
    · apply String.toList_injective
      simp
    · intro last hl
      simp at hl
      exact hl ▸ hc

end Calls

theorem Bus.calls_transferCall {data name : String} (h : Calls data name) :
    Calls (transferCall data).render name :=
  (h.append_left "SPI.transfer(" (by simp [Opens])).append_right ")"

namespace Block

theorem calls_at {names : String → String} {block : Block} {input : String}
    (ih : ∀ child, block.input? input = some child → child.plan.fault = none →
      child.isValue = true → ∀ pin ∈ child.calledPins,
        ∃ code order, child.written names = .value code order ∧ Calls code (names pin))
    (hf : (block.inputPlan input).fault = none) (outer : Order) :
    ∀ pin ∈ block.calledAt input, Calls (block.operandCode names input outer) (names pin) := by
  intro pin hp
  cases hc : block.input? input with
  | none => simp [calledAt, atInput_of_none hc] at hp
  | some child =>
    rw [calledAt, atInput_of_some hc] at hp
    obtain ⟨hcf, hcv⟩ := inputPlan_fault hc hf
    obtain ⟨code, order, hw, hcalls⟩ := ih child hc hcf hcv pin hp
    simp only [operandCode, inputCode, hc, Option.map_some, hw, fittedCode]
    exact hcalls.fitted order outer

/-- The calls that a value is known to make stand in its code. -/
theorem value_calls {block : Block} (hf : block.plan.fault = none) (hv : block.isValue = true)
    (names : String → String) : ∀ pin ∈ block.calledPins,
      ∃ code order, block.written names = .value code order ∧ Calls code (names pin) := by
  induction block using induct_inputs with
  | node block ih =>
    intro pin hp
    rw [plan_eq] at hf
    rw [calledPins_eq] at hp
    rw [written_eq]
    cases hr : block.role? with
    | none => simp [hr] at hp
    | some role =>
      cases role with
      | busSetup | number | variableRead => simp [hr] at hp
      | transfer => simp [isValue, hr, Role.isValue] at hv
      | arithmetic =>
        cases ho : Expression.operatorOf? block.operator with
        | none => simp [hr, ho, Plan.failing] at hf
        | some operator =>
          obtain ⟨symbol, order⟩ := operator
          simp only [hr, ho, Plan.andThen_fault_eq_none] at hf
          simp only [hr, List.mem_append] at hp
          have hsym (left : String) : Opens (left ++ symbol) := by
            unfold Expression.operatorOf? at ho
            split at ho
            all_goals cases ho
            all_goals simp [Opens]
          refine ⟨_, _, rfl, ?_⟩
          rcases hp with hp | hp
          · exact ((calls_at (ih "A") hf.1 order pin hp).append_right symbol).append_right _
          · exact (calls_at (ih "B") hf.2.1 order pin hp).append_left _ (hsym _)
      | transferAnswer =>
        simp only [hr, Plan.andThen_fault_eq_none] at hf
        cases hs : Bus.selectPin? block with
        | none =>
          simp only [hr, hs] at hp
          exact ⟨_, _, rfl, Bus.calls_transferCall (calls_at (ih dataInput) hf.1 .atomic pin hp)⟩
        | some own =>
          simp only [hr, hs, List.mem_singleton] at hp
          exact ⟨_, _, rfl, hp ▸ .self _⟩

theorem data_calls {block : Block} (hf : (block.inputPlan dataInput).fault = none)
    (names : String → String) :
    ∀ pin ∈ block.calledAt dataInput, Calls (block.dataCode names) (names pin) :=
  calls_at (fun _ _ hcf hcv => value_calls hcf hcv names) hf .atomic

end Block

namespace Calls

theorem endLines {line name : String} {lines : List String} (h : Calls line name)
    (hm : line ∈ lines) : Calls (Text.endLines lines) name := by
  induction lines with
  | nil => cases hm
  | cons first rest ih =>
    rcases List.mem_cons.mp hm with rfl | hm
    · exact (h.append_right "\n").append_right _
    · exact (ih hm).append_left (first ++ "\n") (by simp [Opens])

theorem intercalate {line name : String} {lines : List String} (h : Calls line name)
    (hm : line ∈ lines) : Calls ("\n".intercalate lines) name := by
  induction lines with
  | nil => cases hm
  | cons first rest ih =>
    cases rest with
    | nil => exact List.mem_singleton.mp hm ▸ h
    | cons second rest =>
      rw [String.intercalate_cons_cons]
      rcases List.mem_cons.mp hm with rfl | hm
      · exact (h.append_right "\n").append_right _
      · exact (ih hm).append_left (first ++ "\n") (by simp [Opens])

theorem indentLine {line name : String} (h : Calls line name) (width : Int) :
    Calls (Text.indentLine width line) name := by
  have ho : Opens (Text.spaces width) := by
    intro c hc
    rw [Text.spaces, String.toList_ofList] at hc
    exact Or.inl (List.eq_of_mem_replicate (List.mem_of_getLast? hc))
  rw [Text.indentLine, if_neg h.ne_empty]
  exact h.append_left _ ho

/-- A statement of a sequence is on a line of its own. -/
theorem exists_line {statement : Statement} {statements : Sequence} {name : String}
    (h : Calls statement.render name) (hm : statement ∈ statements) (indent : Int) :
    ∃ line ∈ statements.lines indent, Calls line name :=
  ⟨_, List.mem_map_of_mem (List.mem_map_of_mem hm), h.indentLine indent⟩

end Calls

namespace Bus

theorem calls_transferSequence {data name : String} (h : Calls data name) (pin? : Option String) :
    Calls ((transferSequence pin? data).render 0) name := by
  have hc : Calls (Statement.call (transferCall data)).render name :=
    (calls_transferCall h).append_right ";"
  have hm : Statement.call (transferCall data) ∈ transferSequence pin? data := by
    cases pin? <;> simp [transferSequence]
  obtain ⟨line, hl, hcl⟩ := hc.exists_line hm 0
  exact hcl.endLines hl

theorem calls_helperCode {data name : String} (h : Calls data name) (pin : String) :
    Calls (helperCode pin data) name := by
  have hc : Calls (Statement.assign answerName (.call (transferCall data))).render name :=
    ((calls_transferCall h).append_left (answerName ++ " = ") (by simp [Opens])).append_right
      ";"
  have hm : Statement.assign answerName (.call (transferCall data)) ∈
      .declare "int" answerName "0" :: answerSequence pin data ++ [.giveBack answerName] := by
    simp [answerSequence]
  obtain ⟨line, hl, hcl⟩ := hc.exists_line hm 2
  exact hcl.intercalate (List.mem_append_left _ (List.mem_append_right _ hl))

end Bus

namespace Block

theorem statement_calls {block : Block} (hf : block.plan.fault = none) (names : String → String) :
    ∀ pin ∈ block.calledPins, Calls (block.written names).asStatement (names pin) := by
  intro pin hp
  cases hv : block.isValue with
  | true =>
    obtain ⟨code, order, hw, hc⟩ := value_calls hf hv names pin hp
    rw [hw, Fragment.asStatement, if_neg hc.ne_empty]
    exact hc.append_right _
  | false =>
    rw [calledPins_eq] at hp
    cases hr : block.role? with
    | none => simp [hr] at hp
    | some role =>
      cases role with
      | busSetup => simp [hr] at hp
      | transfer =>
        simp only [hr] at hp
        rw [written_eq, hr]
        exact Bus.calls_transferSequence (data_calls (dataPlan_fault hf (Or.inl hr)) names pin hp) _
      | number | variableRead | arithmetic | transferAnswer =>
        simp [isValue, hr, Role.isValue] at hv

theorem opens_asStatement (names : String → String) (block : Block) :
    Opens (block.written names).asStatement := by
  have hv (code : String) (order : Order) : Opens (Fragment.value code order).asStatement := by
    rw [Fragment.asStatement]
    split <;> simp [Opens]
  have hn : Opens (Fragment.statement "").asStatement := by simp [Fragment.asStatement, Opens]
  rw [written_eq]
  cases hr : block.role? with
  | none => exact hn
  | some role =>
    cases role with
    | busSetup => exact hn
    | number | variableRead => exact hv _ _
    | arithmetic =>
      dsimp only
      split
      · exact hn
      · exact hv _ _
    | transfer => exact opens_endLines _
    | transferAnswer =>
      dsimp only
      split <;> exact hv _ _

/-- Each statement's calls stand in the loop. -/
theorem loop_calls {blocks : List Block} {block : Block} (hm : block ∈ blocks)
    (hf : block.plan.fault = none) (names : String → String) :
    ∀ pin ∈ block.calledPins, Calls (sequenceText names blocks) (names pin) := by
  intro pin hp
  induction blocks with
  | nil => cases hm
  | cons first rest ih =>
    rcases List.mem_cons.mp hm with rfl | hm
    · exact (statement_calls hf names pin hp).append_right _
    · exact (ih hm).append_left _ (opens_asStatement names first)

end Block

end BlockSketch
