import BlockSketch.Proofs.Findings.Doubts
import BlockSketch.Proofs.Calls.Order
import Mathlib.Algebra.Order.Ring.Nat
import Mathlib.Data.List.Nodup

namespace BlockSketch

/-- The weights of evaluations add up to no more than this, and to no less unless a fault ends
them. -/
def Plan.Weighs (weight : Block → Nat) (plan : Plan) (total : Nat) : Prop :=
  (plan.evaluations.map weight).sum ≤ total ∧
    (plan.fault = none → (plan.evaluations.map weight).sum = total)

namespace Plan.Weighs

theorem empty (weight : Block → Nat) : Plan.empty.Weighs weight 0 := ⟨Nat.le_refl _, fun _ => rfl⟩

theorem only (weight : Block → Nat) (block : Block) :
    (Plan.only block).Weighs weight (weight block) := by simp [Weighs, Plan.only]

theorem failing (weight : Block → Nat) (fault : Fault) (total : Nat) :
    (Plan.failing fault).Weighs weight total := by simp [Weighs, Plan.failing]

theorem andThen {weight : Block → Nat} {a b : Plan} {first second : Nat}
    (ha : a.Weighs weight first) (hb : b.Weighs weight second) :
    (a.andThen b).Weighs weight (first + second) := by
  cases hf : a.fault with
  | none =>
    unfold Weighs at *
    rw [andThen_evaluations hf, List.map_append, List.sum_append, andThen_fault_eq_none,
      ha.2 hf]
    exact ⟨Nat.add_le_add_left hb.1 _, fun h => congrArg (first + ·) (hb.2 h.2)⟩
  | some fault =>
    have he : a.andThen b = a := by simp only [Plan.andThen, hf]
    rw [he]
    exact ⟨Nat.le_trans ha.1 (Nat.le_add_right _ _), by simp [hf]⟩

theorem inputPlan {weight : Block → Nat} {block : Block} {input : String} {value : Block → Nat}
    (h : ∀ child, block.input? input = some child → child.plan.Weighs weight (value child)) :
    (block.inputPlan input).Weighs weight (Block.atInput 0 value block input) := by
  unfold Block.inputPlan
  cases hc : block.input? input with
  | none =>
    rw [Block.atInput_of_none hc]
    exact empty weight
  | some child =>
    rw [Block.atInput_of_some hc, Option.map_some, Plan.ofPlugged, ← Nat.add_zero (value child)]
    refine (h child hc).andThen ?_
    split
    · exact empty weight
    · exact failing weight _ _

theorem inOrder {weight : Block → Nat} {blocks : List Block} {value : Block → Nat}
    (h : ∀ block ∈ blocks, block.plan.Weighs weight (value block)) :
    (Plan.inOrder (blocks.map Block.plan)).Weighs weight ((blocks.map value).sum) := by
  induction blocks with
  | nil => exact empty weight
  | cons block rest ih =>
    rw [List.map_cons, List.map_cons, List.sum_cons]
    exact (h block List.mem_cons_self).andThen
      (ih fun other hm => h other (List.mem_cons_of_mem _ hm))

end Plan.Weighs

namespace Block

def nestingNode (block : Block) (plugged : String → Option (Block × List (Block × Nat))) :
    List (Block × Nat) :=
  let input (name : String) : List (Block × Nat) := ((plugged name).map Prod.snd).getD []
  match block.role? with
  | some .arithmetic => input "A" ++ (input "B" ++ [(block, 0)])
  | some .transfer => input dataInput ++ [(block, 0)]
  | some .transferAnswer =>
    (match Bus.selectPin? block with
      | none => (input dataInput).map fun (inner, depth) => (inner, depth + 1)
      | some _ => input dataInput) ++ [(block, 0)]
  | _ => [(block, 0)]

/-- The blocks that are evaluated for a block, each with the number of answers without a pin in
whose data it is. -/
def nesting (block : Block) : List (Block × Nat) := block.fold nestingNode

def nestingAt (block : Block) (input : String) : List (Block × Nat) :=
  atInput [] nesting block input

theorem nesting_eq (block : Block) :
    block.nesting =
      match block.role? with
      | some .arithmetic => block.nestingAt "A" ++ (block.nestingAt "B" ++ [(block, 0)])
      | some .transfer => block.nestingAt dataInput ++ [(block, 0)]
      | some .transferAnswer =>
        (match Bus.selectPin? block with
          | none => (block.nestingAt dataInput).map fun (inner, depth) => (inner, depth + 1)
          | some _ => block.nestingAt dataInput) ++ [(block, 0)]
      | _ => [(block, 0)] := by
  rw [nesting, fold_eq]
  simp only [nestingNode, map_snd_plugged]
  rfl

theorem map_fst_nesting (block : Block) : block.nesting.map Prod.fst = block.evaluated := by
  induction block using induct_inputs with
  | node block ih =>
    have hi (input : String) :
        (block.nestingAt input).map Prod.fst = block.evaluatedAt input := by
      unfold nestingAt evaluatedAt
      cases hc : block.input? input with
      | none => simp [atInput_of_none hc]
      | some child =>
        rw [atInput_of_some hc, atInput_of_some hc]
        exact ih input child hc
    rw [nesting_eq, evaluated_eq]
    cases hr : block.role? with
    | none => rfl
    | some role =>
      cases role with
      | busSetup | number | variableRead => rfl
      | arithmetic => simp [hi]
      | transfer => simp [hi]
      | transferAnswer =>
        cases hp : Bus.selectPin? block with
        | none => simp [← hi, Function.comp_def]
        | some pin => simp [hi]

/-- What blocks weigh that are evaluated once more for each level of nesting, each time for all that
went before. -/
def load (weight : Block → Nat) (nested : List (Block × Nat)) : Nat :=
  (nested.map fun (inner, depth) => 2 ^ depth * weight inner).sum

theorem load_append (weight : Block → Nat) (first second : List (Block × Nat)) :
    load weight (first ++ second) = load weight first + load weight second := by
  simp [load]

theorem load_deeper (weight : Block → Nat) (nested : List (Block × Nat)) :
    load weight (nested.map fun (inner, depth) => (inner, depth + 1)) =
      load weight nested + load weight nested := by
  induction nested with
  | nil => rfl
  | cons entry rest ih =>
    simp only [load, List.map_cons, List.sum_cons] at ih ⊢
    rw [ih, Nat.pow_succ, Nat.mul_two, Nat.add_mul]
    omega

theorem plan_weighs (weight : Block → Nat) (block : Block) :
    block.plan.Weighs weight (load weight block.nesting) := by
  induction block using induct_inputs with
  | node block ih =>
    have hi (input : String) :
        (block.inputPlan input).Weighs weight (load weight (block.nestingAt input)) := by
      have h : (block.inputPlan input).Weighs weight
          (atInput 0 (fun child => load weight child.nesting) block input) :=
        Plan.Weighs.inputPlan fun child hc => ih input child hc
      unfold nestingAt
      cases hc : block.input? input with
      | none =>
        rw [atInput_of_none hc] at h ⊢
        exact h
      | some child =>
        rw [atInput_of_some hc] at h ⊢
        exact h
    have hself : (Plan.only block).Weighs weight (load weight [(block, 0)]) := by
      simpa [load] using Plan.Weighs.only weight block
    rw [plan_eq, nesting_eq]
    cases hr : block.role? with
    | none => exact .failing weight _ _
    | some role =>
      cases role with
      | busSetup | number => exact hself
      | variableRead =>
        dsimp only
        split
        · exact .failing weight _ _
        · exact hself
      | arithmetic =>
        dsimp only
        split
        · exact .failing weight _ _
        · rw [load_append, load_append]
          exact (hi "A").andThen ((hi "B").andThen hself)
      | transfer =>
        dsimp only
        rw [load_append]
        exact (hi dataInput).andThen hself
      | transferAnswer =>
        dsimp only
        rw [load_append]
        cases hp : Bus.selectPin? block with
        | none =>
          -- The data is evaluated before and after.
          rw [load_deeper, Nat.add_right_comm, Nat.add_assoc]
          exact (hi dataInput).andThen (hself.andThen (hi dataInput))
        | some pin =>
          rw [← Nat.add_zero (load weight [(block, 0)])]
          exact (hi dataInput).andThen (hself.andThen (.empty weight))

/-- How many of the blocks, and of those within them, are at a location. -/
def locatedWithin (location : String) (blocks : List Block) : Nat :=
  ((everyBlock blocks).map Block.location).count location

/-- How many of the blocks that are evaluated for a block are at a location. -/
def locatedAmong (location : String) (blocks : List Block) : Nat :=
  (blocks.map Block.location).count location

theorem locatedWithin_append (location : String) (blocks more : List Block) :
    locatedWithin location (blocks ++ more) =
      locatedWithin location blocks + locatedWithin location more := by
  simp [locatedWithin, everyBlock_append]

theorem locatedWithin_singleton (location : String) (block : Block) :
    locatedWithin location [block] =
      locatedAmong location [block] + locatedWithin location block.children := by
  simp [locatedWithin, locatedAmong, everyBlock_cons, everyBlock, List.count_cons, Nat.add_comm]

theorem locatedAmong_append (location : String) (blocks more : List Block) :
    locatedAmong location (blocks ++ more) =
      locatedAmong location blocks + locatedAmong location more := by
  simp [locatedAmong]

/-- Two inputs have different blocks. -/
theorem locatedWithin_inputs (location : String) (inputs : List (String × Block))
    (first second : String) (h : first ≠ second) :
    locatedWithin location (Table.get? inputs first).toList +
        locatedWithin location (Table.get? inputs second).toList ≤
      locatedWithin location (inputs.map Prod.snd) := by
  induction inputs with
  | nil => simp [Table.get?, locatedWithin, everyBlock]
  | cons entry rest ih =>
    obtain ⟨name, block⟩ := entry
    have he : locatedWithin location (((name, block) :: rest).map Prod.snd) =
        locatedWithin location [block] + locatedWithin location (rest.map Prod.snd) :=
      locatedWithin_append location [block] (rest.map Prod.snd)
    rw [he]
    by_cases hf : name = first
    · have hs : name ≠ second := hf ▸ h
      simp only [Table.get?, hf, ↓reduceIte, h, Option.toList_some]
      omega
    · by_cases hs : name = second
      · simp only [Table.get?, hs, ↓reduceIte, Ne.symm h, Option.toList_some]
        omega
      · simp only [Table.get?, hf, hs, ↓reduceIte]
        omega

theorem locatedAmong_evaluated (location : String) (block : Block) :
    locatedAmong location block.evaluated ≤ locatedWithin location [block] := by
  induction block using induct_inputs with
  | node block ih =>
    have hi (input : String) : locatedAmong location (block.evaluatedAt input) ≤
        locatedWithin location (Table.get? block.inputs input).toList := by
      unfold evaluatedAt
      cases hc : Table.get? block.inputs input with
      | none =>
        rw [atInput_of_none hc]
        exact Nat.zero_le _
      | some child =>
        rw [atInput_of_some hc]
        exact ih input child hc
    have hchildren : locatedWithin location (block.inputs.map Prod.snd) ≤
        locatedWithin location block.children := by
      rw [children, locatedWithin_append]
      exact Nat.le_add_right _ _
    rw [locatedWithin_singleton, evaluated_eq]
    cases hr : block.role? with
    | none => exact Nat.le_add_right _ _
    | some role =>
      cases role with
      | busSetup | number | variableRead => exact Nat.le_add_right _ _
      | arithmetic =>
        have ha := hi "A"
        have hb := hi "B"
        have htwo := locatedWithin_inputs location block.inputs "A" "B" (by decide)
        simp only [locatedAmong_append]
        omega
      | transfer | transferAnswer =>
        have hd := hi dataInput
        have htwo := locatedWithin_inputs location block.inputs dataInput "A" (by decide)
        simp only [locatedAmong_append]
        omega

/-- Each block of a stack is counted once, without what follows it. -/
theorem locatedAmong_stack (location : String) :
    ∀ top : Block, locatedAmong location (top.stack.flatMap evaluated) ≤
      locatedWithin location [top]
  | ⟨kind, id, fields, inputs, none⟩ => by
    simpa [stack] using locatedAmong_evaluated location ⟨kind, id, fields, inputs, none⟩
  | ⟨kind, id, fields, inputs, some next⟩ => by
    have hself := locatedAmong_evaluated location ⟨kind, id, fields, inputs, none⟩
    have hnext := locatedAmong_stack location next
    rw [stack, List.flatMap_cons, locatedAmong_append]
    rw [locatedWithin_singleton] at hself ⊢
    have hc : locatedWithin location (children ⟨kind, id, fields, inputs, some next⟩) =
        locatedWithin location (children ⟨kind, id, fields, inputs, none⟩) +
          locatedWithin location [next] := by
      rw [← locatedWithin_append]
      simp [children]
    have hl : locatedAmong location [⟨kind, id, fields, inputs, some next⟩] =
        locatedAmong location [⟨kind, id, fields, inputs, none⟩] := rfl
    omega

theorem locatedAmong_statements (location : String) (blocks : List Block) :
    locatedAmong location ((statements blocks).flatMap evaluated) ≤
      locatedWithin location blocks := by
  induction blocks with
  | nil => exact Nat.zero_le _
  | cons top rest ih =>
    have he : (statements (top :: rest)).flatMap evaluated =
        top.stack.flatMap evaluated ++ (statements rest).flatMap evaluated :=
      List.flatMap_append
    rw [he, locatedAmong_append, ← List.singleton_append, locatedWithin_append]
    exact Nat.add_le_add (locatedAmong_stack location top) ih

/-- If just one block is at the location, all weight that is there comes from that one. -/
theorem load_of_nodup {weight : Block → Nat} {nested : List (Block × Nat)} {block : Block}
    {depth : Nat} (hd : (nested.map fun entry => entry.1.location).Nodup)
    (hm : (block, depth) ∈ nested)
    (hw : ∀ other : Block, other.location ≠ block.location → weight other = 0) :
    load weight nested = 2 ^ depth * weight block := by
  induction nested with
  | nil => cases hm
  | cons entry rest ih =>
    obtain ⟨hfirst, hrest⟩ := List.nodup_cons.mp hd
    have hload : load weight (entry :: rest) = 2 ^ entry.2 * weight entry.1 + load weight rest := by
      simp [load]
    rw [hload]
    rcases List.mem_cons.mp hm with rfl | hm
    · have hz : load weight rest = 0 := by
        rw [load, List.sum_eq_zero_iff_forall_eq_nat]
        intro n hn
        obtain ⟨other, ho, rfl⟩ := List.mem_map.mp hn
        have hne : other.1.location ≠ block.location := fun he =>
          hfirst (List.mem_map.mpr ⟨other, ho, he⟩)
        simp [hw _ hne]
      rw [hz, Nat.add_zero]
    · have hne : entry.1.location ≠ block.location := fun he =>
        hfirst (List.mem_map.mpr ⟨_, hm, he.symm⟩)
      rw [hw _ hne, Nat.mul_zero, Nat.zero_add]
      exact ih hrest hm

end Block

namespace Program

/-- The blocks that a pass evaluates, each with the number of answers without a pin in whose data it
is. -/
def nesting (program : Program) : List (Block × Nat) :=
  (Block.statements program.blocks).flatMap Block.nesting

theorem map_fst_nesting (program : Program) :
    program.nesting.map Prod.fst = program.evaluated := by
  simp only [nesting, evaluated, List.map_flatMap, Block.map_fst_nesting]

theorem plan_weighs (weight : Block → Nat) (program : Program) :
    program.plan.Weighs weight (Block.load weight program.nesting) := by
  have hs : Block.load weight program.nesting =
      ((Block.statements program.blocks).map fun block => Block.load weight block.nesting).sum := by
    unfold nesting
    induction Block.statements program.blocks with
    | nil => rfl
    | cons block rest ih =>
      rw [List.flatMap_cons, Block.load_append, ih, List.map_cons, List.sum_cons]
  rw [hs]
  exact Plan.Weighs.inOrder fun block _ => block.plan_weighs weight

/-- Of blocks that are all at different locations no two that are evaluated are at one. -/
theorem nodup_nesting {program : Program}
    (h : ((Block.everyBlock program.blocks).map Block.location).Nodup) :
    (program.nesting.map fun entry => entry.1.location).Nodup := by
  have he : (program.nesting.map fun entry => entry.1.location) =
      program.evaluated.map Block.location := by
    rw [← map_fst_nesting, List.map_map]
    rfl
  rw [he, List.nodup_iff_count_le_one]
  intro location
  exact Nat.le_trans (Block.locatedAmong_statements location program.blocks)
    (List.nodup_iff_count_le_one.mp h location)

/-- What is reported of a block is reported each time that it is evaluated. -/
theorem reports_pass {program : Program} {block : Block} {depth : Nat}
    (hd : ((Block.everyBlock program.blocks).map Block.location).Nodup)
    (hm : (block, depth) ∈ program.nesting) (code : String) :
    reports (Drafting.draftLeft program.pass).findings code block.location ≤
        2 ^ depth * reports (block.doubts program.board) code block.location ∧
      (program.plan.fault = none →
        reports (Drafting.draftLeft program.pass).findings code block.location =
          2 ^ depth * reports (block.doubts program.board) code block.location) := by
  have hw := program.plan_weighs fun other =>
    reports (other.doubts program.board) code block.location
  rw [Block.load_of_nodup (nodup_nesting hd) hm fun _ hne => Block.reports_elsewhere hne code] at hw
  rw [pass_findings, reports, List.countP_flatMap]
  exact hw

theorem length_findings (program : Program) :
    (Drafting.draftLeft program.pass).findings.length ≤
      Block.load (fun block => if block.switchedPin?.isSome then 2 else 0) program.nesting := by
  refine Nat.le_trans ?_ (program.plan_weighs _).1
  rw [pass_findings]
  induction program.plan.evaluations with
  | nil => exact Nat.le_refl 0
  | cons block rest ih =>
    rw [List.flatMap_cons, List.length_append, List.map_cons, List.sum_cons]
    exact Nat.add_le_add (block.length_doubts _) ih

/-- Where no two blocks are at one location, each finding of a block comes as often as the block is
evaluated: twice as often with each answer without a pin in whose data the block is. -/
theorem reported_per_evaluation {program : Program}
    (hd : ((Block.everyBlock program.blocks).map Block.location).Nodup) :
    (∀ block ∈ program.evaluated, ∀ pin, block.switchedPin? = some pin →
      ∃ depth, (block, depth) ∈ program.nesting ∧
        reports (Drafting.draftLeft program.pass).findings "UNKNOWN_PIN" block.location ≤
          (if pin ∈ program.board.digitalPins then 0 else 2 ^ depth) ∧
        reports (Drafting.draftLeft program.pass).findings "PIN_CONFLICT" block.location ≤
          (if pin ∈ program.board.spiPins.map Prod.snd then 2 ^ depth else 0) ∧
        ∀ loop draft, program.pass = .ok loop draft →
          reports draft.findings "UNKNOWN_PIN" block.location =
            (if pin ∈ program.board.digitalPins then 0 else 2 ^ depth) ∧
          reports draft.findings "PIN_CONFLICT" block.location =
            if pin ∈ program.board.spiPins.map Prod.snd then 2 ^ depth else 0) ∧
    (Drafting.draftLeft program.pass).findings.length ≤
      Block.load (fun block => if block.switchedPin?.isSome then 2 else 0) program.nesting := by
  refine ⟨?_, program.length_findings⟩
  intro block hm pin hp
  rw [← map_fst_nesting] at hm
  obtain ⟨⟨same, depth⟩, hn, he⟩ := List.mem_map.mp hm
  obtain rfl : block = same := he.symm
  have hdoubts : block.doubts program.board = program.board.doubts block.location pin := by
    rw [Block.doubts, hp]
    rfl
  have hunknown := reports_pass hd hn "UNKNOWN_PIN"
  have hconflict := reports_pass hd hn "PIN_CONFLICT"
  rw [hdoubts, Board.reports_unknownPin, apply_ite (2 ^ depth * ·), Nat.mul_zero, Nat.mul_one]
    at hunknown
  rw [hdoubts, Board.reports_conflict, apply_ite (2 ^ depth * ·), Nat.mul_zero, Nat.mul_one]
    at hconflict
  refine ⟨depth, hn, hunknown.1, hconflict.1, ?_⟩
  intro loop draft hok
  have hf := (pass_eq_ok.mp hok).1
  rw [hok] at hunknown hconflict
  exact ⟨hunknown.2 hf, hconflict.2 hf⟩

def answerOfBusPin : Block :=
  ⟨"spi_transfer_return", "c", [("SPI_SS", "ICSP-1")], [], none⟩

/-- An answer goes over the bus twice more. Its device is selected by a pin that is on the bus and
is none of the board's digital ones. -/
def bounced : Program where
  blocks := [⟨"spi_transfer_return", "a", [], [("SPI_DATA", ⟨"spi_transfer_return", "b", [],
    [("SPI_DATA", answerOfBusPin)], none⟩)], none⟩]
  board := .leonardo
  mode := .warn

theorem bounced_pass : bounced.pass =
    .ok "SPI.transfer((SPI.transfer((spiReturnSlaveICSP_1()))));\n"
      (bounced.plan.after bounced.firstDraft) :=
  pass_eq_ok.mpr ⟨by decide +kernel, rfl, by decide +kernel⟩

theorem bounced_locations :
    (Block.everyBlock bounced.blocks).map Block.location =
      ["spi_transfer_return#a", "spi_transfer_return#b", "spi_transfer_return#c"] := by
  simp [bounced, answerOfBusPin, Block.everyBlock, Block.children, Block.location]

theorem bounced_evaluated : answerOfBusPin ∈ bounced.evaluated := List.mem_cons_self

theorem bounced_depth {depth : Nat} (h : (answerOfBusPin, depth) ∈ bounced.nesting) :
    depth = 2 := by
  rw [show bounced.nesting = [(answerOfBusPin, 2), _, _] from rfl] at h
  simpa [answerOfBusPin] using h

theorem bounced_reports :
    let findings := (bounced.plan.after bounced.firstDraft).findings
    reports findings "UNKNOWN_PIN" answerOfBusPin.location = 2 ^ 2 ∧
      reports findings "PIN_CONFLICT" answerOfBusPin.location = 2 ^ 2 ∧ findings.length ≤ 8 := by
  have hd : ((Block.everyBlock bounced.blocks).map Block.location).Nodup := by
    rw [bounced_locations]
    decide
  obtain ⟨hreports, hlength⟩ := reported_per_evaluation hd
  obtain ⟨depth, hm, -, -, hok⟩ := hreports answerOfBusPin bounced_evaluated "ICSP-1" rfl
  obtain ⟨hunknown, hconflict⟩ := hok _ _ bounced_pass
  rw [bounced_depth hm] at hunknown hconflict
  rw [bounced_pass] at hlength
  exact ⟨hunknown, hconflict, hlength⟩

/-- Three transfers at three locations make eight findings, all of them at one of the locations. -/
theorem bounced_repeats :
    ((Block.everyBlock bounced.blocks).map Block.location).Nodup ∧
      (Block.everyBlock bounced.blocks).length = 3 ∧
      ∃ loop draft, bounced.pass = .ok loop draft ∧ answerOfBusPin ∈ bounced.evaluated ∧
        answerOfBusPin.switchedPin? = some "ICSP-1" ∧
        reports draft.findings "UNKNOWN_PIN" answerOfBusPin.location = 4 ∧
        reports draft.findings "PIN_CONFLICT" answerOfBusPin.location = 4 ∧
        draft.findings.length = 8 := by
  refine ⟨?_, ?_, _, _, bounced_pass, bounced_evaluated, rfl, ?_, ?_, ?_⟩
  · rw [bounced_locations]
    decide
  · rw [← List.length_map Block.location, bounced_locations]
    rfl
  all_goals decide +kernel

end Program

end BlockSketch
