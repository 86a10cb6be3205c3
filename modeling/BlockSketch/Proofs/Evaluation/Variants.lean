import BlockSketch.Proofs.Draft.Moved
import BlockSketch.Proofs.Evaluation.Again

namespace BlockSketch

namespace Block

/-- The same content in a block of another kind. -/
def recast (block : Block) (kind : String) : Block := { block with kind }

theorem inputPlan_recast (block : Block) (kind input : String) :
    ((block.recast kind).inputPlan input).evaluations = (block.inputPlan input).evaluations ∧
      (((block.recast kind).inputPlan input).fault = none ↔
        (block.inputPlan input).fault = none) := by
  have hi : (block.recast kind).input? input = block.input? input := rfl
  unfold inputPlan
  rw [hi]
  cases block.input? input with
  | none => exact ⟨rfl, Iff.rfl⟩
  | some child =>
    simp only [Option.map_some, Plan.ofPlugged]
    cases child.isValue with
    | true => exact ⟨rfl, Iff.rfl⟩
    | false =>
      simp only [Bool.false_eq_true, ↓reduceIte, Plan.andThen_fault_eq_none, Plan.failing]
      unfold Plan.andThen
      cases child.plan.fault <;> simp

theorem after_recast (block : Block) (kind input : String) (draft : Draft) :
    ((block.recast kind).inputPlan input).after draft = (block.inputPlan input).after draft := by
  rw [Plan.after, Plan.after, (block.inputPlan_recast kind input).1]

theorem role?_transfer (block : Block) :
    (block.recast "spi_transfer").role? = some .transfer :=
  role?_of_kind rfl rfl

theorem role?_answer (block : Block) :
    (block.recast "spi_transfer_return").role? = some .transferAnswer :=
  role?_of_kind rfl rfl

theorem transfer_fault (block : Block) :
    (block.recast "spi_transfer").plan.fault = none ↔ (block.inputPlan dataInput).fault = none := by
  rw [plan_eq]
  simp only [role?_transfer, Plan.andThen_fault_eq_none, (inputPlan_recast _ _ _).2]
  exact and_iff_left rfl

theorem answer_fault (block : Block) :
    (block.recast "spi_transfer_return").plan.fault = none ↔
      (block.inputPlan dataInput).fault = none := by
  rw [plan_eq]
  simp only [role?_answer, Plan.andThen_fault_eq_none, (inputPlan_recast _ _ _).2]
  cases Bus.selectPin? (block.recast "spi_transfer_return") with
  | none => simp [Plan.only, (inputPlan_recast _ _ _).2]
  | some pin => simp [Plan.only, Plan.empty]

theorem transfer_after {block : Block} (h : (block.inputPlan dataInput).fault = none)
    (draft : Draft) :
    (block.recast "spi_transfer").plan.after draft =
      Bus.prepare (block.recast "spi_transfer").location (Bus.selectPin? block)
        ((block.inputPlan dataInput).after draft) := by
  rw [plan_eq]
  simp only [role?_transfer]
  rw [Plan.after_andThen ((inputPlan_recast _ _ _).2.mpr h), after_recast]
  simp only [Plan.after, Plan.only, Draft.performAll_cons, Draft.performAll_nil, Draft.perform,
    role?_transfer]
  rfl

/-- What evaluating the answer does once its data is there. -/
theorem answer_after {block : Block} (h : (block.inputPlan dataInput).fault = none)
    (draft : Draft) :
    (block.recast "spi_transfer_return").plan.after draft =
      ((Plan.only (block.recast "spi_transfer_return")).andThen
        (if (Bus.selectPin? block).isNone then
          (block.recast "spi_transfer_return").inputPlan dataInput else .empty)).after
        ((block.inputPlan dataInput).after draft) := by
  rw [plan_eq]
  simp only [role?_answer]
  rw [Plan.after_andThen ((inputPlan_recast _ _ _).2.mpr h), after_recast]
  rfl

/-- The helper of an answer is all that a switched pin adds to a transfer. -/
theorem answer_after_of_pin {block : Block} (h : (block.inputPlan dataInput).fault = none)
    (hs : Bus.selectPin? block = some pin) (draft : Draft) :
    ∃ helpers taken,
      (block.recast "spi_transfer_return").plan.after draft =
        { Bus.prepare (block.recast "spi_transfer_return").location (some pin)
            ((block.inputPlan dataInput).after draft) with helpers, taken } ∧
      if Bus.helperWish pin ∈ ((block.inputPlan dataInput).after draft).helpers.keys then
        helpers = ((block.inputPlan dataInput).after draft).helpers
      else
        ∃ helper, helpers =
          ((block.inputPlan dataInput).after draft).helpers ++ [(Bus.helperWish pin, helper)] := by
  have hpin : Bus.selectPin? (block.recast "spi_transfer_return") = some pin := hs
  rw [answer_after h]
  generalize (block.inputPlan dataInput).after draft = mid
  have hperform : mid.perform (block.recast "spi_transfer_return") =
      ((Bus.prepare (block.recast "spi_transfer_return").location (some pin) mid).addHelper
        (Bus.helperWish pin) (Bus.helperCode pin
          ((block.recast "spi_transfer_return").dataCode mid.helperName))).2 := by
    simp only [Draft.perform, role?_answer, hpin]
  simp only [hs, Option.isNone_some, Bool.false_eq_true, ↓reduceIte, Plan.andThen_empty, Plan.after,
    Plan.only, Draft.performAll_cons, Draft.performAll_nil, hperform]
  generalize (block.recast "spi_transfer_return").dataCode mid.helperName = data
  have hh := Draft.helpers_addHelper
    (Bus.prepare (block.recast "spi_transfer_return").location (some pin) mid)
    (Bus.helperWish pin) (Bus.helperCode pin data)
  obtain ⟨helpers, taken, he⟩ := Draft.addHelper_frame
    (Bus.prepare (block.recast "spi_transfer_return").location (some pin) mid)
    (Bus.helperWish pin) (Bus.helperCode pin data)
  rw [he, Draft.prepare_helpers] at hh
  exact ⟨helpers, taken, he, hh⟩

/-- Without a pin, the findings of the data are all that an answer adds to a transfer. -/
theorem answer_after_of_bare {block : Block} (h : (block.inputPlan dataInput).fault = none)
    (hs : Bus.selectPin? block = none) {draft : Draft} (hf : draft.Filed) :
    ∃ found,
      ((block.inputPlan dataInput).after draft).findings = draft.findings ++ found ∧
      (block.recast "spi_transfer_return").plan.after draft =
        { Bus.prepare (block.recast "spi_transfer_return").location none
            ((block.inputPlan dataInput).after draft) with
          findings := (Bus.prepare (block.recast "spi_transfer_return").location none
            ((block.inputPlan dataInput).after draft)).findings ++ found } := by
  have hpin : Bus.selectPin? (block.recast "spi_transfer_return") = none := hs
  have hperform (mid : Draft) : mid.perform (block.recast "spi_transfer_return") =
      Bus.prepare (block.recast "spi_transfer_return").location none mid := by
    simp only [Draft.perform, role?_answer, hpin]
  obtain ⟨found, hfound, haround⟩ := Draft.performAll_around hf
    (block.inputPlan dataInput).evaluations (block.recast "spi_transfer_return").location
  refine ⟨found, hfound, ?_⟩
  rw [answer_after h, hs, Plan.after_andThen rfl]
  simp only [Option.isNone_none, ↓reduceIte, after_recast]
  simp only [Plan.after, Plan.only, Draft.performAll_cons, Draft.performAll_nil, hperform]
  exact haround

theorem location_recast_ne (block : Block) :
    (block.recast "spi_transfer").location ≠ (block.recast "spi_transfer_return").location := by
  unfold location recast
  split
  · change "spi_transfer" ≠ "spi_transfer_return"
    decide
  · intro h
    have hl := congrArg String.length h
    simp only [String.length_append] at hl
    have hkinds : "spi_transfer".length ≠ "spi_transfer_return".length := by decide
    omega

end Block

theorem Finding.map_moved_eq_self {findings : List Finding} {here there : String}
    (hl : ∀ finding ∈ findings, finding.location = here) (hne : here ≠ there) :
    findings.map (·.moved there) = findings ↔ findings = [] := by
  constructor
  · intro hm
    cases findings with
    | nil => rfl
    | cons first rest =>
      have hfirst : first.moved there = first := (List.cons.inj hm).1
      have hthere : there = first.location := congrArg Finding.location hfirst
      exact absurd ((hl first List.mem_cons_self).symm.trans hthere.symm) hne
  · rintro rfl
    rfl

/-- Nothing is found of a transfer without a pin if the pins of the bus are kept for the bus. -/
theorem Bus.remarks_eq_nil_iff (location : String) (draft : Draft) :
    remarks location none draft = [] ↔
      ∀ entry ∈ draft.board.spiPins, ∀ standing,
        (prepare location none draft).pins.get? entry.2 = some standing → standing.use = .spi := by
  have hreserve (pin label : String) :
      (prepare location none draft).remarks (.reserve location pin .spi label) = [] ↔
        ∀ standing, (prepare location none draft).pins.get? pin = some standing →
          standing.use = .spi := by
    rw [Draft.remarks]
    cases (prepare location none draft).pins.get? pin with
    | none => simp
    | some standing => simp
  rw [remarks, prepareLog, busLog, selectLog, List.append_nil, List.flatMap_append,
    List.append_eq_nil_iff, List.flatMap_eq_nil_iff, List.flatMap_eq_nil_iff, List.forall_mem_map]
  simp only [hreserve]
  refine and_iff_right ?_
  simp [Draft.remarks]

namespace Block

/-- A transfer and an answer of the same content fail alike, or else register alike but for the
helper of the answer. Without a pin, the answer finds what its data finds once more. -/
theorem answer_registers_as_transfer {draft : Draft} (h : draft.Reachable) (block : Block) :
    ((∃ fault left,
        (block.recast "spi_transfer").code Registry.standard draft = .error fault left) ↔
      ∃ fault left,
        (block.recast "spi_transfer_return").code Registry.standard draft = .error fault left) ∧
    ∀ statement value transferred answered,
      (block.recast "spi_transfer").code Registry.standard draft = .ok statement transferred →
      (block.recast "spi_transfer_return").code Registry.standard draft = .ok value answered →
      answered.includes = transferred.includes ∧ answered.setups = transferred.setups ∧
      answered.variableNames = transferred.variableNames ∧ answered.uses = transferred.uses ∧
      (match Bus.selectPin? block with
        | none => answered.helpers = transferred.helpers
        | some pin =>
          if Bus.helperWish pin ∈ transferred.helpers.keys then
            answered.helpers = transferred.helpers
          else ∃ helper, answered.helpers = transferred.helpers ++ [(Bus.helperWish pin, helper)]) ∧
      ∃ data mid found own,
        block.valueCode Registry.standard "SPI_DATA" .atomic draft = .ok data mid ∧
        mid.findings = draft.findings ++ found ∧
        (∀ finding ∈ own, finding.location = (block.recast "spi_transfer").location) ∧
        transferred.findings = draft.findings ++ found ++ own ∧
        match Bus.selectPin? block with
        | some _ =>
          answered.findings = draft.findings ++ found ++
            own.map (·.moved (block.recast "spi_transfer_return").location)
        | none =>
          answered.findings = draft.findings ++ found ++
            own.map (·.moved (block.recast "spi_transfer_return").location) ++ found ∧
          (answered.findings = transferred.findings ++ found ↔
            ∀ entry ∈ draft.board.spiPins, ∀ standing,
              transferred.pins.get? entry.2 = some standing → standing.use = .spi) := by
  have hfault : (block.recast "spi_transfer").plan.fault = none ↔
      (block.recast "spi_transfer_return").plan.fault = none :=
    block.transfer_fault.trans block.answer_fault.symm
  simp only [code_eq, Plan.exists_outcome_eq_error, Plan.outcome_eq_ok]
  refine ⟨not_congr hfault, ?_⟩
  rintro statement value transferred answered ⟨hf, -, rfl⟩ ⟨-, -, rfl⟩
  rw [transfer_fault] at hf
  rw [transfer_after hf]
  have hvalue : block.valueCode Registry.standard "SPI_DATA" .atomic draft =
      .ok (block.inputCode ((block.inputPlan dataInput).after draft).helperName "SPI_DATA" .atomic)
        ((block.inputPlan dataInput).after draft) := by
    rw [valueCode_eq, Plan.outcome_eq_ok]
    exact ⟨hf, rfl, rfl⟩
  obtain ⟨hmatch, hmoved⟩ := Bus.prepare_moved (block.recast "spi_transfer").location
    (block.recast "spi_transfer_return").location (Bus.selectPin? block)
    ((block.inputPlan dataInput).after draft)
  have hleft := Bus.findings_prepare (block.recast "spi_transfer").location
    (Bus.selectPin? block) ((block.inputPlan dataInput).after draft)
  have hright := Bus.findings_prepare (block.recast "spi_transfer_return").location
    (Bus.selectPin? block) ((block.inputPlan dataInput).after draft)
  rw [hmoved] at hright
  have hlocated : ∀ finding ∈ Bus.remarks (block.recast "spi_transfer").location
      (Bus.selectPin? block) ((block.inputPlan dataInput).after draft),
      finding.location = (block.recast "spi_transfer").location :=
    fun _ hm => Bus.location_of_remark hm
  cases hs : Bus.selectPin? block with
  | some pin =>
    rw [hs] at hmatch hleft hright hlocated
    obtain ⟨helpers, taken, he, hh⟩ := answer_after_of_pin hf hs draft
    obtain ⟨found, hfound⟩ : ∃ found,
        ((block.inputPlan dataInput).after draft).findings = draft.findings ++ found := by
      rw [Plan.after, Draft.performAll_eq]
      exact ⟨_, draft.findings_registerAll _⟩
    rw [hfound] at hleft hright
    rw [he]
    dsimp only
    rw [Draft.prepare_helpers]
    exact ⟨hmatch.includes.symm, hmatch.setups.symm, hmatch.variableNames.symm,
      hmatch.uses.symm, hh, _, _, found, _, hvalue, hfound, hlocated, hleft, hright⟩
  | none =>
    rw [hs] at hmatch hleft hright hlocated
    obtain ⟨found, hfound, he⟩ := answer_after_of_bare hf hs h.filed
    rw [hfound] at hleft hright
    rw [he]
    refine ⟨hmatch.includes.symm, hmatch.setups.symm, hmatch.variableNames.symm,
      hmatch.uses.symm, hmatch.helpers.symm, _, _, found, _, hvalue, hfound, hlocated, hleft,
      ?_, ?_⟩
    · dsimp only
      rw [hright]
    · have hboard : ((block.inputPlan dataInput).after draft).board = draft.board :=
        draft.performAll_board _
      dsimp only
      rw [hright, hleft, List.append_cancel_right_eq, List.append_cancel_left_eq,
        Finding.map_moved_eq_self hlocated block.location_recast_ne, Bus.remarks_eq_nil_iff, hboard]

/-- What is sent comes from one device and goes to another. -/
def switched : Block :=
  ⟨"", "x", [("SPI_SS", "10")], [("SPI_DATA",
    ⟨"spi_transfer_return", "b", [("SPI_SS", "8")], [], none⟩)], none⟩

theorem switched_registers_alike :
    Draft.occupied.Reachable ∧ ∃ transferred answered,
      (switched.recast "spi_transfer").code Registry.standard Draft.occupied =
        .ok (.statement
          "digitalWrite(10, HIGH);\nSPI.transfer((spiReturnSlave8()));\ndigitalWrite(10, LOW);\n")
          transferred ∧
      (switched.recast "spi_transfer_return").code Registry.standard Draft.occupied =
        .ok (.value "spiReturnSlave10()" .postfixUnary) answered ∧
      answered.setups = transferred.setups ∧ answered.uses = transferred.uses ∧
      (∃ helper, answered.helpers = transferred.helpers ++ [("spiReturnSlave10", helper)]) ∧
      transferred.findings.map Finding.location = ["spi_transfer_return#b", "spi_transfer#x"] ∧
      ∃ found own : List Finding,
        transferred.findings = found ++ own ∧
        answered.findings = found ++ own.map (·.moved "spi_transfer_return#x") := by
  obtain ⟨-, hall⟩ := answer_registers_as_transfer Draft.occupied_reachable switched
  have hleft : (switched.recast "spi_transfer").code Registry.standard Draft.occupied =
      .ok (.statement
        "digitalWrite(10, HIGH);\nSPI.transfer((spiReturnSlave8()));\ndigitalWrite(10, LOW);\n")
        ((switched.recast "spi_transfer").plan.after Draft.occupied) :=
    code_eq_ok.mpr ⟨by decide +kernel, by decide +kernel, rfl⟩
  have hright : (switched.recast "spi_transfer_return").code Registry.standard Draft.occupied =
      .ok (.value "spiReturnSlave10()" .postfixUnary)
        ((switched.recast "spi_transfer_return").plan.after Draft.occupied) :=
    code_eq_ok.mpr ⟨by decide +kernel, by decide +kernel, rfl⟩
  obtain ⟨-, hsetups, -, huses, hhelpers, _, _, found, own, -, -, -, hfindings, hmoved⟩ :=
    hall _ _ _ _ hleft hright
  have hpin : Bus.selectPin? switched = some "10" := rfl
  have hnew : Bus.helperWish "10" ∉
      ((switched.recast "spi_transfer").plan.after Draft.occupied).helpers.keys := by
    decide +kernel
  have hempty : Draft.occupied.findings = [] := rfl
  rw [hpin] at hhelpers hmoved
  simp only [hnew, ↓reduceIte] at hhelpers
  rw [hempty, List.nil_append] at hfindings
  dsimp only at hmoved
  rw [hempty, List.nil_append] at hmoved
  exact ⟨Draft.occupied_reachable, _, _, hleft, hright, hsetups, huses, hhelpers,
    by decide +kernel, found, own, hfindings, hmoved⟩

/-- Nothing is plugged in and no pin is picked. -/
def bare : Block := ⟨"", "x", [], [], none⟩

/-- A pin of the bus that is kept for a servo is reported by the transfer and by the answer, each
at its own location, although the data finds nothing. -/
theorem bare_reports_itself :
    Draft.occupied.Reachable ∧ Bus.selectPin? bare = none ∧
    bare.valueCode Registry.standard "SPI_DATA" .atomic Draft.occupied = .ok "" Draft.occupied ∧
    ∃ statement value transferred answered,
      (bare.recast "spi_transfer").code Registry.standard Draft.occupied = .ok statement transferred ∧
      (bare.recast "spi_transfer_return").code Registry.standard Draft.occupied = .ok value answered ∧
      transferred.findings.map Finding.location = ["spi_transfer#x"] ∧
      answered.findings.map Finding.location = ["spi_transfer_return#x"] ∧
      answered.findings ≠ transferred.findings ++ [] := by
  have hleft : (bare.recast "spi_transfer").code Registry.standard Draft.occupied =
      .ok (.statement "SPI.transfer(0);\n") ((bare.recast "spi_transfer").plan.after Draft.occupied) :=
    code_eq_ok.mpr ⟨by decide +kernel, by decide +kernel, rfl⟩
  have hright : (bare.recast "spi_transfer_return").code Registry.standard Draft.occupied =
      .ok (.value "SPI.transfer(0)" .postfixUnary)
        ((bare.recast "spi_transfer_return").plan.after Draft.occupied) :=
    code_eq_ok.mpr ⟨by decide +kernel, by decide +kernel, rfl⟩
  exact ⟨Draft.occupied_reachable, rfl, rfl, _, _, _, _, hleft, hright, by decide +kernel,
    by decide +kernel, by decide +kernel⟩

end Block

end BlockSketch
