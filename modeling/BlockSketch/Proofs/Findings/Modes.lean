import BlockSketch.Proofs.Findings.Acceptance

namespace BlockSketch

/-- The same finding, taken as seriously as this. -/
def Finding.rated (severity : Severity) (finding : Finding) : Finding := { finding with severity }

/-- How serious a finding is shows nowhere in its text. -/
theorem Finding.text_rated (severity : Severity) (finding : Finding) :
    (finding.rated severity).text = finding.text := rfl

namespace Report

theorem map_text_rated (severity : Severity) (findings : List Finding) :
    (findings.map (Finding.rated severity)).map Finding.text = findings.map Finding.text := by
  rw [List.map_map]
  apply List.map_congr_left
  intro finding _
  exact finding.text_rated severity

theorem of_warn (findings : List Finding) :
    Report.of findings .warn = ⟨[], findings.map (Finding.rated .warning)⟩ := rfl

theorem of_strict (findings : List Finding) :
    Report.of findings .strict = ⟨findings.map (Finding.rated .error), []⟩ := rfl

theorem settle_of_warn (findings : List Finding) :
    (Report.of findings .warn).settle = .ok (findings.map Finding.text) := by
  rw [of_warn, settle, List.isEmpty_nil, if_pos rfl, map_text_rated]

theorem settle_of_strict (findings : List Finding) :
    (Report.of findings .strict).settle =
      if findings = [] then .ok [] else .error (findings.map (Finding.rated .error)) := by
  rw [of_strict, settle]
  cases findings with
  | nil => rfl
  | cons first rest => rfl

theorem refusal_rated (severity : Severity) (findings : List Finding) :
    refusal (findings.map (Finding.rated severity)) = refusal findings := by
  rw [refusal, refusal, map_text_rated, List.length_map]

end Report

namespace Program

variable {registry : Registry} {program : Program}

theorem sketch_of_fault {left : Draft}
    (h : Block.stacksCode registry program.blocks program.firstDraft = .error fault left) :
    program.sketch registry = .error (.fault fault) := by
  rw [firstDraft] at h
  simp only [sketch, h]

theorem sketch_of_warn (hw : program.mode = .warn)
    (h : Block.stacksCode registry program.blocks program.firstDraft = .ok loop draft) :
    program.sketch registry = .ok ⟨draft.layout loop, draft.findings.map Finding.text⟩ := by
  rw [firstDraft] at h
  simp only [sketch, h, hw, Draft.report, Report.settle_of_warn]

theorem sketch_of_strict (hs : program.mode = .strict)
    (h : Block.stacksCode registry program.blocks program.firstDraft = .ok loop draft) :
    program.sketch registry =
      if draft.findings = [] then .ok ⟨draft.layout loop, []⟩
      else .error (.findings (draft.findings.map (Finding.rated .error))) := by
  rw [firstDraft] at h
  simp only [sketch, h, hs, Draft.report, Report.settle_of_strict]
  by_cases hf : draft.findings = []
  · simp only [hf, ↓reduceIte]
  · simp only [hf, ↓reduceIte]

end Program

namespace Request

/-- The mode is looked at last, and both modes are known. -/
theorem check_modes (blocks : Arrived (List (Arrived Block))) (board : Arrived BoardChoice) :
    (∃ refusal, check ⟨blocks, board, .wanted "warn"⟩ = .error refusal ∧
      check ⟨blocks, board, .wanted "strict"⟩ = .error refusal) ∨
    ∃ program, check ⟨blocks, board, .wanted "warn"⟩ = .ok program ∧ program.mode = .warn ∧
      check ⟨blocks, board, .wanted "strict"⟩ = .ok program.strictly := by
  unfold check
  cases blocks with
  | other arrived => exact Or.inl ⟨_, rfl, rfl⟩
  | wanted items =>
    dsimp only
    cases blocksOf items with
    | error refusal => exact Or.inl ⟨refusal, rfl, rfl⟩
    | ok blocks =>
      cases board with
      | other arrived => exact Or.inl ⟨_, rfl, rfl⟩
      | wanted choice =>
        dsimp only [bind, Except.bind]
        cases choice.board with
        | error refusal => exact Or.inl ⟨refusal, rfl, rfl⟩
        | ok board => exact Or.inr ⟨⟨blocks, board, .warn⟩, rfl, rfl, rfl⟩

/-- Both modes refuse for the same reason, or come to the same findings. These are the warnings of
one mode, and what the other one refuses for if there are any. -/
theorem modes_agree (registry : Registry) (blocks : Arrived (List (Arrived Block)))
    (board : Arrived BoardChoice) :
    match check ⟨blocks, board, .wanted "warn"⟩ with
    | .error refusal => check ⟨blocks, board, .wanted "strict"⟩ = .error refusal
    | .ok program =>
      check ⟨blocks, board, .wanted "strict"⟩ = .ok program.strictly ∧
      match Block.stacksCode registry program.blocks program.firstDraft with
      | .error fault _ =>
        program.sketch registry = .error (.fault fault) ∧
        program.strictly.sketch registry = .error (.fault fault)
      | .ok loop draft =>
        let warnings := draft.findings.map Finding.text
        program.sketch registry = .ok ⟨draft.layout loop, warnings⟩ ∧
        (if warnings = [] then
          program.strictly.sketch registry = .ok ⟨draft.layout loop, []⟩
        else
          ∃ refusal, program.strictly.sketch registry = .error refusal ∧
            refusal.isBadValue = true ∧
            refusal.message =
              "\n".intercalate ((toString warnings.length ++ " error(s).") :: warnings)) ∧
        draft.report .warn = ⟨[], draft.findings.map (Finding.rated .warning)⟩ ∧
        draft.report .strict = ⟨draft.findings.map (Finding.rated .error), []⟩ := by
  obtain ⟨refusal, hwarn, hstrict⟩ | ⟨program, hwarn, hmode, hstrict⟩ := check_modes blocks board
  · rw [hwarn]
    exact hstrict
  · rw [hwarn]
    refine ⟨hstrict, ?_⟩
    cases hp : Block.stacksCode registry program.blocks program.firstDraft with
    | error fault left => exact ⟨Program.sketch_of_fault hp, Program.sketch_of_fault hp⟩
    | ok loop draft =>
      have hs : program.strictly.sketch registry = _ := Program.sketch_of_strict rfl hp
      refine ⟨Program.sketch_of_warn hmode hp, ?_, Report.of_warn _, Report.of_strict _⟩
      by_cases hf : draft.findings = []
      · rw [if_pos (by rw [hf, List.map_nil]), hs, if_pos hf]
      · rw [if_neg (by rwa [List.map_eq_nil_iff]), hs, if_neg hf]
        have hmessage (errors : List Finding) :
            (Refusal.findings errors).message = Report.refusal errors := rfl
        refine ⟨_, rfl, rfl, ?_⟩
        rw [hmessage, Report.refusal_rated, Report.refusal, List.length_map]

end Request

end BlockSketch
