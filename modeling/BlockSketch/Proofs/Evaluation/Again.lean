import BlockSketch.Proofs.Draft.Operations
import BlockSketch.Proofs.Draft.Replay

namespace BlockSketch

namespace Bus

/-- Wherever the bus is started, it is started in the same way. -/
theorem steady_configureLog (block : Block) :
    Steady (configureLog block) "spi_begin" "SPI.begin();" := by
  simp [Steady, configureLog, Registration.stepCode?]

theorem steady_busLog (board : Board) (location : String) :
    Steady (busLog board location) "spi_begin" "SPI.begin();" := by
  refine Steady.append (by simp [Steady, Registration.stepCode?]) ?_
  intro registration hm other ho
  obtain ⟨entry, -, rfl⟩ := List.mem_map.mp hm
  cases ho

theorem selectKey_ne_begin (pin : String) : "io_" ++ pin ≠ "spi_begin" := by
  intro h
  have hl := congrArg String.toList h
  simp at hl

theorem steady_prepareLog (board : Board) (location : String) (pin? : Option String) :
    Steady (prepareLog board location pin?) "spi_begin" "SPI.begin();" := by
  refine (steady_busLog board location).append ?_
  cases pin? with
  | none => simp [Steady, selectLog]
  | some pin => simp [Steady, selectLog, Registration.stepCode?, selectKey_ne_begin]

/-- Without a pin, only the start of the bus is written to `setup()`. -/
theorem eq_begin_of_writes (h : Writes (prepareLog board location none) key) :
    key = "spi_begin" := by
  obtain ⟨registration, hm, hw⟩ := h
  obtain ⟨code, hc⟩ := Option.isSome_iff_exists.mp hw
  simp only [prepareLog, busLog, selectLog, List.append_nil, List.cons_append, List.nil_append,
    List.mem_cons, List.mem_map] at hm
  rcases hm with rfl | rfl | ⟨entry, -, rfl⟩
  · simp [Registration.stepCode?] at hc
  · simp only [Registration.stepCode?, Option.ite_none_right_eq_some] at hc
    exact hc.1.symm
  · simp [Registration.stepCode?] at hc

end Bus

theorem Block.steady_log (names : String → String) (board : Board) (block : Block) :
    Steady (block.log names board) "spi_begin" "SPI.begin();" := by
  unfold log
  cases block.role? with
  | none => simp [Steady]
  | some role =>
    cases role with
    | busSetup => exact Bus.steady_configureLog block
    | number | arithmetic => simp [Steady]
    | variableRead => simp [Steady, Registration.stepCode?]
    | transfer => exact Bus.steady_prepareLog board block.location _
    | transferAnswer =>
      refine (Bus.steady_prepareLog board block.location _).append ?_
      cases Bus.selectPin? block with
      | none => simp [Steady]
      | some pin => simp [Steady, Registration.stepCode?]

namespace Draft

theorem steady_logOf (draft : Draft) (blocks : List Block) :
    Steady (draft.logOf blocks) "spi_begin" "SPI.begin();" := by
  induction blocks generalizing draft with
  | nil => simp [Steady, logOf]
  | cons block rest ih => exact (block.steady_log _ _).append (ih _)

/-- Evaluations can be made again, also after other registrations if these leave the code of their
setup steps as it was. -/
theorem performAll_again {draft : Draft} (hf : draft.Filed) (blocks : List Block)
    (more : List Registration)
    (hm : ∀ key, Writes (draft.logOf blocks) key →
      ((draft.performAll blocks).registerAll more).stepCodes.get? key =
        (draft.performAll blocks).stepCodes.get? key) :
    ∃ found, (draft.performAll blocks).findings = draft.findings ++ found ∧
      ((draft.performAll blocks).registerAll more).performAll blocks =
        { (draft.performAll blocks).registerAll more with
          findings := ((draft.performAll blocks).registerAll more).findings ++ found } := by
  rw [performAll_eq draft, ← registerAll_append] at hm ⊢
  have hlater : (draft.registerAll (draft.logOf blocks)).Extends
      (draft.registerAll (draft.logOf blocks ++ more)) := by
    rw [registerAll_append]
    exact Extends.registerAll _ more
  have hholds : ∀ registration ∈ draft.logOf blocks,
      (draft.registerAll (draft.logOf blocks ++ more)).Holds registration :=
    fun registration hr => (draft.holds_registerAll _ registration hr).mono hlater
  have hshapes := shapes_logOf (draft.registerAll_board (draft.logOf blocks ++ more)).symm blocks
  refine ⟨_, findings_registerAll draft _, ?_⟩
  rw [performAll_eq, ← registerAll_congr hshapes hholds]
  exact replay hf (draft.logOf blocks) more hm

/-- A transfer without a pin does not come between evaluations and their repetition. -/
theorem performAll_around {draft : Draft} (hf : draft.Filed) (blocks : List Block)
    (location : String) :
    ∃ found, (draft.performAll blocks).findings = draft.findings ++ found ∧
      (Bus.prepare location none (draft.performAll blocks)).performAll blocks =
        { Bus.prepare location none (draft.performAll blocks) with
          findings :=
            (Bus.prepare location none (draft.performAll blocks)).findings ++ found } := by
  rw [Bus.prepare_eq]
  apply performAll_again hf
  intro key hw
  by_cases hb : Writes (Bus.prepareLog (draft.performAll blocks).board location none) key
  · obtain rfl := Bus.eq_begin_of_writes hb
    rw [get?_stepCodes_of_steady (Bus.steady_prepareLog _ _ _) hb, performAll_eq,
      get?_stepCodes_of_steady (draft.steady_logOf blocks) hw]
  · exact get?_stepCodes_of_unwritten hb _

end Draft

/-- Doing the work once more has the same result, and changes nothing but that what was found is
found once more. -/
def Drafting.Repeats (work : Drafting α) (draft : Draft) : Prop :=
  ∀ result once, work draft = .ok result once →
    ∃ found, once.findings = draft.findings ++ found ∧
      work once = .ok result { once with findings := once.findings ++ found }

namespace Plan

/-- A result that does not depend on the findings is the same the second time. -/
theorem repeats {work : Drafting α} {plan : Plan} {result : Draft → α}
    (hw : ∀ draft, work draft = plan.outcome result draft)
    (hr : ∀ draft findings, result { draft with findings } = result draft)
    {draft : Draft} (hf : draft.Filed) : work.Repeats draft := by
  intro value once ho
  obtain ⟨hfault, rfl, rfl⟩ := outcome_eq_ok.mp ((hw draft).symm.trans ho)
  obtain ⟨found, hfound, hagain⟩ :=
    Draft.performAll_again hf plan.evaluations [] fun _ _ => rfl
  refine ⟨found, hfound, ?_⟩
  rw [Draft.registerAll_nil] at hagain
  rw [hw, outcome_eq_ok, after, after, hagain]
  exact ⟨hfault, (hr _ _).symm, rfl⟩

end Plan

namespace Block

/-- The data that a transfer without a pin was made with is what the data comes to afterwards. -/
theorem transferData_again {block : Block} {draft prepared : Draft} {statements : Sequence}
    (hf : draft.Filed) (hs : Bus.selectPin? block = none)
    (h : Bus.makeTransfer block (plugs Registry.standard block.inputs) draft =
      .ok statements prepared) :
    ∃ data found, statements = Bus.transferSequence none data ∧
      (∃ mid, Bus.transferData block (plugs Registry.standard block.inputs) draft = .ok data mid ∧
        mid.findings = draft.findings ++ found) ∧
      Bus.transferData block (plugs Registry.standard block.inputs) prepared =
        .ok data { prepared with findings := prepared.findings ++ found } := by
  obtain ⟨data, mid, hd, hmade⟩ := Drafting.bind_eq_ok.mp h
  obtain ⟨hfault, rfl, rfl⟩ := Plan.outcome_eq_ok.mp ((block.transferData_eq draft).symm.trans hd)
  obtain ⟨found, hfound, hagain⟩ :=
    Draft.performAll_around hf (block.inputPlan dataInput).evaluations block.location
  rw [hs] at hmade
  cases hmade
  refine ⟨_, found, rfl, ⟨_, hd, hfound⟩, ?_⟩
  rw [transferData_eq, Plan.outcome_eq_ok]
  have hnames : ((block.inputPlan dataInput).after
      (Bus.prepare block.location none ((block.inputPlan dataInput).after draft))).helperName =
        ((block.inputPlan dataInput).after draft).helperName := by
    apply Draft.helperName_congr
    rw [Plan.after, Plan.after, hagain]
    exact Draft.prepare_helpers _ _ _
  exact ⟨hfault, by rw [hnames], hagain.symm⟩

/-- The code of a stack, of a block or of an input can be made again. So can the data of a transfer
without a pin once the transfer is prepared, which is why the answer of such a transfer has the data
of the transfer. -/
theorem evaluated_again {draft : Draft} (h : draft.Reachable) (block : Block) :
    (block.stackCode Registry.standard).Repeats draft ∧
    (block.code Registry.standard).Repeats draft ∧
    (∀ input outer, (block.valueCode Registry.standard input outer).Repeats draft) ∧
    (Bus.selectPin? block = none → ∀ statements prepared,
      Bus.makeTransfer block (plugs Registry.standard block.inputs) draft =
        .ok statements prepared →
      ∃ data found, statements = Bus.transferSequence none data ∧
        (∃ mid, Bus.transferData block (plugs Registry.standard block.inputs) draft =
            .ok data mid ∧ mid.findings = draft.findings ++ found) ∧
        Bus.transferData block (plugs Registry.standard block.inputs) prepared =
          .ok data { prepared with findings := prepared.findings ++ found }) := by
  have hf := h.filed
  refine ⟨Plan.repeats (sequenceCode_eq block.stack) (fun _ _ => rfl) hf,
    Plan.repeats block.code_eq (fun _ _ => rfl) hf, ?_,
    fun hs _ _ hm => transferData_again hf hs hm⟩
  intro input outer
  exact Plan.repeats (block.valueCode_eq input outer) (fun _ _ => rfl) hf

end Block

namespace Draft

/-- A draft in which a pin of the bus is kept for a servo. -/
def occupied : Draft := (start .uno).reserve "servo#1" "11" .servo "Servo"

theorem occupied_reachable : occupied.Reachable :=
  (Reachable.start .uno).steps (Step.reserve _ _ _ _).steps

end Draft

namespace Block

/-- An answer is sent on without switching a pin. -/
def forwarded : Block :=
  ⟨"spi_transfer_return", "a", [], [("SPI_DATA",
    ⟨"spi_transfer_return", "b", [("SPI_SS", "8")], [], none⟩)], none⟩

theorem forwarded_code : forwarded.code Registry.standard Draft.occupied =
    .ok (.value "SPI.transfer((spiReturnSlave8()))" .postfixUnary)
      (forwarded.plan.after Draft.occupied) :=
  code_eq_ok.mpr ⟨by decide +kernel, by decide +kernel, rfl⟩

theorem forwarded_data : ∃ prepared, Bus.makeTransfer forwarded
    (plugs Registry.standard forwarded.inputs) Draft.occupied =
      .ok [.call (Bus.transferCall "(spiReturnSlave8())")] prepared := by
  have hmade := forwarded.makeTransfer_eq Draft.occupied
  have hf : (forwarded.inputPlan dataInput).fault = none := by decide +kernel
  have hd : forwarded.dataCode ((forwarded.inputPlan dataInput).after Draft.occupied).helperName =
      "(spiReturnSlave8())" := by decide +kernel
  simp only [hf, hd] at hmade
  exact ⟨_, hmade⟩

theorem forwarded_again :
    Draft.occupied.Reachable ∧
    (∃ found : List Finding,
      found.map Finding.location =
        ["spi_transfer_return#b", "spi_transfer_return#a", "spi_transfer_return#b"] ∧
      ∃ once, forwarded.code Registry.standard Draft.occupied =
          .ok (.value "SPI.transfer((spiReturnSlave8()))" .postfixUnary) once ∧
        once.findings = found ∧
        forwarded.code Registry.standard once =
          .ok (.value "SPI.transfer((spiReturnSlave8()))" .postfixUnary)
            { once with findings := found ++ found }) ∧
    ∃ prepared found, Bus.transferData forwarded (plugs Registry.standard forwarded.inputs)
        prepared = .ok "(spiReturnSlave8())"
          { prepared with findings := prepared.findings ++ found } := by
  obtain ⟨-, hcode, -, hdata⟩ := evaluated_again Draft.occupied_reachable forwarded
  refine ⟨Draft.occupied_reachable, ?_, ?_⟩
  · obtain ⟨found, hfound, hagain⟩ := hcode _ _ forwarded_code
    have hempty : Draft.occupied.findings = [] := rfl
    rw [hempty, List.nil_append] at hfound
    refine ⟨found, hfound ▸ by decide +kernel, _, forwarded_code, hfound, ?_⟩
    rw [hfound] at hagain
    exact hagain
  · obtain ⟨prepared, hmade⟩ := forwarded_data
    obtain ⟨data, found, hs, -, hagain⟩ := hdata rfl _ _ hmade
    obtain rfl : data = "(spiReturnSlave8())" := by
      simpa [Bus.transferSequence, Bus.transferCall] using hs.symm
    exact ⟨prepared, found, hagain⟩

end Block

end BlockSketch
