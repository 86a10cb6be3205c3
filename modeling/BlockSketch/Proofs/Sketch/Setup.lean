import BlockSketch.Proofs.Draft.Setups

namespace BlockSketch

namespace Bus

/-- The lines by which a block that sets up the bus configures it. -/
def configuration (setup : Block) : List String :=
  ["SPI.setBitOrder(" ++ setup.fieldOr "SPI_SHIFT_ORDER" "MSBFIRST" ++ ");",
    "SPI.setDataMode(" ++ setup.fieldOr "SPI_MODE" "SPI_MODE0" ++ ");",
    "SPI.setClockDivider(" ++ setup.fieldOr "SPI_CLOCK_DIVIDE" "SPI_CLOCK_DIV4" ++ ");"]

def startLine : String := "SPI.begin();"

def selectLine (pin : String) : String := "pinMode(" ++ pin ++ ", OUTPUT);"

namespace SetupLine

def pin? : SetupLine → Option String
  | select pin => some pin
  | _ => none

theorem pin?_injective (line other : SetupLine) (pin : String) (h : line.pin? = some pin)
    (ho : other.pin? = some pin) : line = other := by
  cases line with
  | bitOrder | dataMode | clockDivider | start => cases h
  | select first =>
    cases other with
    | bitOrder | dataMode | clockDivider | start => cases ho
    | select second =>
      cases h
      cases ho
      rfl

theorem map_code_configuration (setup : Block) :
    [bitOrder, dataMode, clockDivider].map (code (some setup)) = configuration setup := rfl

/-- The lines for pins stand among the lines in their order. -/
theorem sublist_map_code (setup? : Option Block) (lines : List SetupLine) :
    ((lines.filterMap pin?).map selectLine).Sublist (lines.map (code setup?)) := by
  induction lines with
  | nil => exact List.Sublist.refl _
  | cons line rest ih =>
    cases line with
    | bitOrder | dataMode | clockDivider | start => exact ih.cons _
    | select pin => exact ih.cons_cons _

theorem map_code_of_select {lines : List SetupLine} (h : ∀ line ∈ lines, ∃ pin, line = .select pin)
    (setup? : Option Block) : lines.map (code setup?) = (lines.filterMap pin?).map selectLine := by
  induction lines with
  | nil => rfl
  | cons line rest ih =>
    obtain ⟨pin, rfl⟩ := h line List.mem_cons_self
    rw [List.map_cons, ih fun other hm => h other (List.mem_cons_of_mem _ hm)]
    rfl

end SetupLine

end Bus

namespace Block

theorem filterMap_setupLines (evaluated : List Block) :
    (evaluated.flatMap setupLines).filterMap Bus.SetupLine.pin? =
      evaluated.filterMap switchedPin? := by
  induction evaluated with
  | nil => rfl
  | cons block rest ih =>
    have hblock : block.setupLines.filterMap Bus.SetupLine.pin? = block.switchedPin?.toList := by
      by_cases hk : block.kind = "spi_setup"
      · rw [setupLines_of_setup hk, switchedPin?_of_setup hk]
        rfl
      · rw [setupLines_of_ne hk]
        cases hs : block.switchedPin? with
        | none => cases block.usesBus <;> rfl
        | some pin =>
          rw [usesBus_of_switchedPin? hs]
          rfl
    rw [List.flatMap_cons, List.filterMap_append, hblock, ih, List.filterMap_cons]
    cases block.switchedPin? <;> rfl

theorem setupLines_of_idle {evaluated : List Block} (h : ∀ block ∈ evaluated, ¬block.usesBus) :
    evaluated.flatMap setupLines = [] := by
  rw [List.flatMap_eq_nil_iff]
  intro block hm
  rw [List.eq_nil_iff_forall_not_mem]
  intro line hl
  exact h block hm (usesBus_of_asksFor (mem_setupLines.mp hl))

/-- If the bus is used, but not set up, its start is asked for before anything else. -/
theorem setupLines_of_transfers {evaluated : List Block}
    (h : ∀ block ∈ evaluated, block.kind ≠ "spi_setup") (hu : evaluated.any usesBus) :
    ∃ rest, evaluated.flatMap setupLines = .start :: rest := by
  induction evaluated with
  | nil => cases hu
  | cons block more ih =>
    rw [List.flatMap_cons, setupLines_of_ne (h block List.mem_cons_self)]
    cases hb : block.usesBus with
    | true => exact ⟨_, rfl⟩
    | false =>
      apply ih fun other hm => h other (List.mem_cons_of_mem _ hm)
      rwa [List.any_cons, hb, Bool.false_or] at hu

/-- What transfers bring to `setup()` that are evaluated before the bus is set up. -/
def opening (evaluated : List Block) : List String :=
  if evaluated.any usesBus then
    Bus.startLine :: (evaluated.filterMap switchedPin?).eraseDups.map Bus.selectLine
  else []

theorem opening_eq {evaluated : List Block} (h : ∀ block ∈ evaluated, block.kind ≠ "spi_setup")
    (setup? : Option Block) :
    (evaluated.flatMap setupLines).eraseDups.map (Bus.SetupLine.code setup?) =
      opening evaluated := by
  unfold opening
  cases hu : evaluated.any usesBus with
  | false =>
    rw [setupLines_of_idle (by simpa using hu)]
    rfl
  | true =>
    obtain ⟨rest, he⟩ := setupLines_of_transfers h hu
    obtain ⟨later, hl⟩ : ∃ later, (evaluated.flatMap setupLines).eraseDups = .start :: later := by
      rw [he, List.eraseDups_cons]
      exact ⟨_, rfl⟩
    have hnew : .start ∉ later := by
      have hn := nodup_eraseDups (evaluated.flatMap setupLines)
      rw [hl] at hn
      exact (List.nodup_cons.mp hn).1
    have hpins : later.filterMap Bus.SetupLine.pin? =
        (evaluated.filterMap switchedPin?).eraseDups := by
      rw [← filterMap_setupLines, eraseDups_filterMap Bus.SetupLine.pin?_injective, hl]
      rfl
    have hselect : ∀ line ∈ later, ∃ pin, line = .select pin := by
      intro line hm
      have hall : line ∈ evaluated.flatMap setupLines := by
        rw [← List.mem_eraseDups, hl]
        exact List.mem_cons_of_mem _ hm
      obtain ⟨block, hb, hasked⟩ := List.mem_flatMap.mp hall
      rw [mem_setupLines] at hasked
      cases line with
      | bitOrder | dataMode | clockDivider => exact absurd hasked (h block hb)
      | start => exact absurd hm hnew
      | select pin => exact ⟨pin, rfl⟩
    rw [hl, if_pos rfl, ← hpins, List.map_cons, Bus.SetupLine.map_code_of_select hselect]
    rfl

end Block

namespace Block

theorem exists_lastSetup? {evaluated : List Block} :
    (∃ setup, lastSetup? evaluated = some setup) ↔
      ∃ block ∈ evaluated, block.kind = "spi_setup" := by
  rw [← Option.ne_none_iff_exists', lastSetup?, ne_eq, List.getLast?_eq_none_iff,
    List.filter_eq_nil_iff]
  simp

end Block

namespace Draft

namespace SetUpBy

variable {draft : Draft} {evaluated : List Block}

theorem nodup_orderedSetups (h : draft.SetUpBy evaluated) : draft.orderedSetups.Nodup := by
  rw [h.orderedSetups]
  exact List.Nodup.map (Bus.SetupLine.code_injective _) (nodup_eraseDups _)

theorem mem_orderedSetups (h : draft.SetUpBy evaluated) (line : String) :
    line ∈ draft.orderedSetups ↔
      (line = Bus.startLine ∧ ∃ block ∈ evaluated, block.usesBus) ∨
      (∃ block ∈ evaluated, ∃ pin, block.switchedPin? = some pin ∧ line = Bus.selectLine pin) ∨
      ∃ setup, Block.lastSetup? evaluated = some setup ∧ line ∈ Bus.configuration setup := by
  simp only [h.orderedSetups, List.mem_map, List.mem_eraseDups, List.mem_flatMap,
    Block.mem_setupLines]
  constructor
  · rintro ⟨asked, ⟨block, hb, ha⟩, rfl⟩
    cases asked with
    | bitOrder | dataMode | clockDivider =>
      obtain ⟨setup, hs⟩ := Block.exists_lastSetup?.mpr ⟨block, hb, ha⟩
      refine Or.inr (Or.inr ⟨setup, hs, ?_⟩)
      rw [hs, ← Bus.SetupLine.map_code_configuration]
      exact List.mem_map_of_mem (by simp)
    | start => exact Or.inl ⟨rfl, block, hb, ha⟩
    | select pin => exact Or.inr (Or.inl ⟨block, hb, pin, ha, rfl⟩)
  · rintro (⟨rfl, block, hb, hu⟩ | ⟨block, hb, pin, hs, rfl⟩ | ⟨setup, hs, hl⟩)
    · exact ⟨.start, ⟨block, hb, hu⟩, rfl⟩
    · exact ⟨.select pin, ⟨block, hb, hs⟩, rfl⟩
    · obtain ⟨block, hb, hk⟩ := Block.exists_lastSetup?.mp ⟨setup, hs⟩
      rw [← Bus.SetupLine.map_code_configuration] at hl
      obtain ⟨asked, hm, rfl⟩ := List.mem_map.mp hl
      refine ⟨asked, ⟨block, hb, ?_⟩, by rw [hs]⟩
      simp only [List.mem_cons, List.not_mem_nil, or_false] at hm
      rcases hm with rfl | rfl | rfl
      · exact hk
      · exact hk
      · exact hk

theorem sublist_orderedSetups (h : draft.SetUpBy evaluated) :
    ((evaluated.filterMap Block.switchedPin?).eraseDups.map Bus.selectLine).Sublist
      draft.orderedSetups := by
  rw [h.orderedSetups, ← Block.filterMap_setupLines,
    eraseDups_filterMap Bus.SetupLine.pin?_injective]
  exact Bus.SetupLine.sublist_map_code _ _

/-- The lines that configure the bus stand together where it is set up for the first time. -/
theorem orderedSetups_split {before after : List Block} {setup : Block}
    (h : draft.SetUpBy (before ++ setup :: after)) (hk : setup.kind = "spi_setup")
    (hb : ∀ block ∈ before, block.kind ≠ "spi_setup") :
    ∃ last rest, Block.lastSetup? (before ++ setup :: after) = some last ∧
      draft.orderedSetups = Block.opening before ++ Bus.configuration last ++ rest ∧
      ((∀ block ∈ before, ¬block.usesBus) → rest.head? = some Bus.startLine) := by
  obtain ⟨last, hlast⟩ := Block.exists_lastSetup?.mpr
    ⟨setup, List.mem_append_right before List.mem_cons_self, hk⟩
  have hnew : ∀ line ∈ [Bus.SetupLine.bitOrder, .dataMode, .clockDivider],
      line ∉ before.flatMap Block.setupLines := by
    intro line hl hasked
    obtain ⟨block, hm, hasked⟩ := List.mem_flatMap.mp hasked
    rw [Block.mem_setupLines] at hasked
    simp only [List.mem_cons, List.not_mem_nil, or_false] at hl
    rcases hl with rfl | rfl | rfl
    · exact hb block hm hasked
    · exact hb block hm hasked
    · exact hb block hm hasked
  obtain ⟨more, hmore, hfirst⟩ : ∃ more,
      ((setup.setupLines ++ after.flatMap Block.setupLines).removeAll
        (before.flatMap Block.setupLines)).eraseDups =
          [.bitOrder, .dataMode, .clockDivider] ++ more ∧
      (before.flatMap Block.setupLines = [] → more.head? = some .start) := by
    have hsplit : setup.setupLines ++ after.flatMap Block.setupLines =
        [.bitOrder, .dataMode, .clockDivider] ++ (.start :: after.flatMap Block.setupLines) := by
      rw [Block.setupLines_of_setup hk]
      rfl
    have hkept : ([.bitOrder, .dataMode, .clockDivider] : List Bus.SetupLine).removeAll
        (before.flatMap Block.setupLines) = [.bitOrder, .dataMode, .clockDivider] := by
      rw [List.removeAll, List.filter_eq_self]
      simpa using hnew
    rw [hsplit, List.removeAll, List.filter_append, ← List.removeAll, ← List.removeAll, hkept,
      List.eraseDups_append]
    refine ⟨_, rfl, ?_⟩
    intro hnone
    rw [hnone]
    simp [List.removeAll, List.eraseDups_cons]
  refine ⟨last, more.map (Bus.SetupLine.code (some last)), hlast, ?_, ?_⟩
  · rw [h.orderedSetups, hlast, List.flatMap_append, List.flatMap_cons, List.eraseDups_append, hmore,
      List.map_append, List.map_append, Block.opening_eq hb,
      Bus.SetupLine.map_code_configuration, List.append_assoc]
  · intro hidle
    rw [List.head?_map, hfirst (Block.setupLines_of_idle hidle)]
    rfl

/-- If a transfer is the first to need the bus, the bus is started ahead of everything. -/
theorem orderedSetups_of_transfer {before after : List Block} {first : Block}
    (h : draft.SetUpBy (before ++ first :: after)) (hb : ∀ block ∈ before, ¬block.usesBus)
    (hu : first.usesBus) (hk : first.kind ≠ "spi_setup") :
    draft.orderedSetups.head? = some Bus.startLine := by
  rw [h.orderedSetups, List.flatMap_append, Block.setupLines_of_idle hb, List.nil_append,
    List.flatMap_cons, Block.setupLines_of_ne hk, if_pos hu, List.cons_append, List.eraseDups_cons]
  rfl

end SetUpBy

end Draft

namespace Program

/-- `setup()` starts the bus once, switches pins in the order of their first use, and configures the
bus as the last of its setups says. The first setup and the first transfer decide what stands
ahead. -/
theorem setup_section {program : Program} (h : program.pass = .ok loop draft) :
    draft.includes =
      (if program.plan.evaluations.any Block.usesBus then [("spi", "#include <SPI.h>")] else []) ∧
    draft.orderedSetups.Nodup ∧
    (∀ line, line ∈ draft.orderedSetups ↔
      (line = Bus.startLine ∧ ∃ block ∈ program.plan.evaluations, block.usesBus) ∨
      (∃ block ∈ program.plan.evaluations, ∃ pin,
        block.switchedPin? = some pin ∧ line = Bus.selectLine pin) ∨
      ∃ setup, Block.lastSetup? program.plan.evaluations = some setup ∧
        line ∈ Bus.configuration setup) ∧
    (((program.plan.evaluations.filterMap Block.switchedPin?).eraseDups.map Bus.selectLine).Sublist
      draft.orderedSetups) ∧
    (∀ first, program.plan.evaluations.find? Block.usesBus = some first →
      (first.kind ≠ "spi_setup" → draft.orderedSetups.head? = some Bus.startLine) ∧
      (first.kind = "spi_setup" →
        ∃ last, Block.lastSetup? program.plan.evaluations = some last ∧
          (Bus.configuration last ++ [Bus.startLine]) <+: draft.orderedSetups)) ∧
    ∀ before setup after, program.plan.evaluations = before ++ setup :: after →
      setup.kind = "spi_setup" → (∀ block ∈ before, block.kind ≠ "spi_setup") →
      ∃ last rest, Block.lastSetup? program.plan.evaluations = some last ∧
        draft.orderedSetups = Block.opening before ++ Bus.configuration last ++ rest := by
  have hset := pass_setUp h
  refine ⟨hset.includes, hset.nodup_orderedSetups, hset.mem_orderedSetups,
    hset.sublist_orderedSetups, ?_, ?_⟩
  · intro first hf
    obtain ⟨hu, before, after, he, hb⟩ := List.find?_eq_some_iff_append.mp hf
    rw [he] at hset ⊢
    have hidle : ∀ block ∈ before, ¬block.usesBus := by simpa using hb
    refine ⟨hset.orderedSetups_of_transfer hidle hu, ?_⟩
    intro hk
    have hnone : ∀ block ∈ before, block.kind ≠ "spi_setup" := by
      intro block hm hs
      exact hidle block hm (Block.usesBus_of_setup hs)
    obtain ⟨last, rest, hlast, hsplit, hhead⟩ := hset.orderedSetups_split hk hnone
    obtain ⟨more, rfl⟩ := List.head?_eq_some_iff.mp (hhead hidle)
    have hopening : Block.opening before = [] := by
      rw [Block.opening, if_neg (by simpa using hidle)]
    refine ⟨last, hlast, more, ?_⟩
    rw [hsplit, hopening, List.nil_append, List.append_assoc]
    rfl
  · intro before setup after he hk hb
    rw [he] at hset ⊢
    obtain ⟨last, rest, hlast, hsplit, -⟩ := hset.orderedSetups_split hk hb
    exact ⟨last, rest, hlast, hsplit⟩

/-- The answer of one transfer is the data of another, and the bus is set up, twice, only after
both. -/
def lateSetups : Program where
  blocks := [
    ⟨"spi_transfer_return", "", [("SPI_SS", "10")],
      [("SPI_DATA", ⟨"spi_transfer_return", "", [("SPI_SS", "9")], [], none⟩)],
      some ⟨"spi_setup", "", [("SPI_MODE", "SPI_MODE3")], [],
        some ⟨"spi_setup", "", [("SPI_CLOCK_DIVIDE", "SPI_CLOCK_DIV8")], [], none⟩⟩⟩]
  board := .uno
  mode := .warn

theorem lateSetups_section : ∃ loop draft rest, lateSetups.pass = .ok loop draft ∧
    draft.includes = [("spi", "#include <SPI.h>")] ∧
    draft.orderedSetups =
      ["SPI.begin();", "pinMode(9, OUTPUT);", "pinMode(10, OUTPUT);"] ++
      ["SPI.setBitOrder(MSBFIRST);", "SPI.setDataMode(SPI_MODE0);",
        "SPI.setClockDivider(SPI_CLOCK_DIV8);"] ++ rest := by
  have hf : lateSetups.plan.fault = none := by decide +kernel
  have he : lateSetups.plan.evaluations =
      [⟨"spi_transfer_return", "", [("SPI_SS", "9")], [], none⟩,
        ⟨"spi_transfer_return", "", [("SPI_SS", "10")],
          [("SPI_DATA", ⟨"spi_transfer_return", "", [("SPI_SS", "9")], [], none⟩)], none⟩] ++
      ⟨"spi_setup", "", [("SPI_MODE", "SPI_MODE3")], [], none⟩ ::
        [⟨"spi_setup", "", [("SPI_CLOCK_DIVIDE", "SPI_CLOCK_DIV8")], [], none⟩] := rfl
  have hp := pass_eq_ok.mpr ⟨hf, rfl, rfl⟩
  obtain ⟨hincludes, -, -, -, -, hsplit⟩ := setup_section hp
  obtain ⟨last, rest, hlast, hlines⟩ := hsplit _ _ _ he rfl (by decide)
  rw [he] at hincludes hlast
  cases hlast
  exact ⟨_, _, rest, hp, hincludes, hlines⟩

end Program

end BlockSketch
