import BlockSketch.Proofs.Draft.Filed
import BlockSketch.Proofs.Draft.SameCode
import BlockSketch.Proofs.Findings.Doubts
import Mathlib.Data.List.Induction
import Mathlib.Data.List.Nodup

namespace BlockSketch

/-- The list without repetitions grows at its end. -/
theorem eraseDups_concat [BEq α] [LawfulBEq α] (items : List α) (item : α) :
    (items ++ [item]).eraseDups =
      if item ∈ items then items.eraseDups else items.eraseDups ++ [item] := by
  rw [List.eraseDups_append]
  split
  · rename_i h
    rw [List.removeAll, List.filter_cons_of_neg (by simp [h])]
    exact List.append_nil _
  · rename_i h
    rw [List.removeAll, List.filter_cons_of_pos (by simp [h])]
    rfl

theorem nodup_eraseDups [BEq α] [LawfulBEq α] (items : List α) : items.eraseDups.Nodup := by
  induction items using List.reverseRecOn with
  | nil => exact List.nodup_nil
  | append_singleton items item ih =>
    rw [eraseDups_concat]
    split
    · exact ih
    · rename_i h
      rw [List.nodup_append]
      refine ⟨ih, by simp, ?_⟩
      rintro a ha b hb rfl
      rw [List.mem_singleton.mp hb] at ha
      exact h (List.mem_eraseDups.mp ha)

/-- Where every step files a name unless it is filed already, each name stands where it first
occurs. -/
theorem eraseDups_foldl {step : σ → ι → σ} (filed : σ → List String) (name : ι → String)
    (h : ∀ state item, filed (step state item) =
      if name item ∈ filed state then filed state else filed state ++ [name item])
    {start : σ} (hs : filed start = []) (items : List ι) :
    filed (items.foldl step start) = (items.map name).eraseDups := by
  induction items using List.reverseRecOn with
  | nil => exact hs
  | append_singleton items item ih =>
    rw [List.foldl_concat, h, ih, List.map_append, List.map_singleton, eraseDups_concat]
    simp only [List.mem_eraseDups]

theorem eraseDups_filterMap [BEq α] [LawfulBEq α] [BEq β] [LawfulBEq β] {f : α → Option β}
    (hf : ∀ a b c, f a = some c → f b = some c → a = b) (items : List α) :
    (items.filterMap f).eraseDups = items.eraseDups.filterMap f := by
  induction items using List.reverseRecOn with
  | nil => rfl
  | append_singleton items item ih =>
    rw [eraseDups_concat, List.filterMap_append]
    cases hi : f item with
    | none =>
      rw [List.filterMap_cons_none hi, List.filterMap_nil, List.append_nil, ih]
      split
      · rfl
      · rw [List.filterMap_append, List.filterMap_cons_none hi, List.filterMap_nil, List.append_nil]
    | some value =>
      have hmem : value ∈ items.filterMap f ↔ item ∈ items := by
        rw [List.mem_filterMap]
        constructor
        · rintro ⟨other, hm, ho⟩
          exact hf item other value hi ho ▸ hm
        · intro hm
          exact ⟨item, hm, hi⟩
      rw [List.filterMap_cons_some hi, List.filterMap_nil, eraseDups_concat, ih]
      by_cases hm : item ∈ items
      · rw [if_pos (hmem.mpr hm), if_pos hm]
      · rw [if_neg (mt hmem.mp hm), if_neg hm, List.filterMap_append, List.filterMap_cons_some hi,
          List.filterMap_nil]

namespace Bus

/-- What can stand in `setup()`. -/
inductive SetupLine
  | bitOrder | dataMode | clockDivider | start
  | select (pin : String)
  deriving DecidableEq

namespace SetupLine

def key : SetupLine → String
  | bitOrder => "setup_spi_order"
  | dataMode => "setup_spi_mode"
  | clockDivider => "spi_div"
  | start => "spi_begin"
  | select pin => "io_" ++ pin

/-- The line as it is written if this block, if any, sets up the bus. -/
def code (setup? : Option Block) : SetupLine → String
  | bitOrder => "SPI.setBitOrder(" ++ picked "SPI_SHIFT_ORDER" "MSBFIRST" ++ ");"
  | dataMode => "SPI.setDataMode(" ++ picked "SPI_MODE" "SPI_MODE0" ++ ");"
  | clockDivider => "SPI.setClockDivider(" ++ picked "SPI_CLOCK_DIVIDE" "SPI_CLOCK_DIV4" ++ ");"
  | start => "SPI.begin();"
  | select pin => "pinMode(" ++ pin ++ ", OUTPUT);"
where
  picked (name standard : String) : String := (setup?.bind (·.field? name)).getD standard

theorem key_injective : Function.Injective key := by
  intro line other h
  rw [← String.toList_inj] at h
  cases line <;> cases other <;> simp [key, String.toList_inj] at h ⊢
  exact h

/-- Each kind of line begins in a way of its own. -/
theorem code_injective (setup? : Option Block) : Function.Injective (code setup?) := by
  intro line other h
  unfold code at h
  rw [← String.toList_inj] at h
  cases line <;> cases other <;> simp [String.toList_inj] at h ⊢
  exact h

end SetupLine

/-- The lines in the order in which they were first asked for, under their keys. -/
def written (lines : List SetupLine) (codes : SetupLine → String) : Table String :=
  lines.eraseDups.map fun line => (line.key, codes line)

theorem keys_written (lines : List SetupLine) (codes : SetupLine → String) :
    (written lines codes).keys = lines.eraseDups.map SetupLine.key := by
  simp [written, Table.keys, Function.comp_def]

theorem values_written (lines : List SetupLine) (codes : SetupLine → String) :
    (written lines codes).values = lines.eraseDups.map codes := by
  simp [written, Table.values, Function.comp_def]

theorem mem_keys_written {lines : List SetupLine} {codes : SetupLine → String} {line : SetupLine} :
    line.key ∈ (written lines codes).keys ↔ line ∈ lines := by
  rw [keys_written, List.mem_map_of_injective SetupLine.key_injective, List.mem_eraseDups]

theorem nodup_keys_written (lines : List SetupLine) (codes : SetupLine → String) :
    (written lines codes).keys.Nodup := by
  rw [keys_written]
  exact List.Nodup.map SetupLine.key_injective (nodup_eraseDups lines)

theorem get?_written {lines : List SetupLine} {line : SetupLine} (h : line ∈ lines)
    (codes : SetupLine → String) :
    (written lines codes).get? line.key = some (codes line) := by
  apply Table.get?_of_mem (nodup_keys_written lines codes)
  exact List.mem_map_of_mem (List.mem_eraseDups.mpr h)

theorem written_congr {lines : List SetupLine} {codes other : SetupLine → String}
    (h : ∀ line ∈ lines, codes line = other line) : written lines codes = written lines other := by
  apply List.map_congr_left
  intro line hm
  rw [h line (List.mem_eraseDups.mp hm)]

theorem put_written (lines : List SetupLine) (codes : SetupLine → String) (line : SetupLine)
    (code : String) :
    (written lines codes).put line.key code =
      written (lines ++ [line]) fun other => if other = line then code else codes other := by
  have hkeys : ((written lines codes).put line.key code).keys =
      (lines ++ [line]).eraseDups.map SetupLine.key := by
    rw [Table.put, Table.keys_alter, eraseDups_concat, keys_written]
    by_cases hm : line ∈ lines
    · have hk : line.key ∈ lines.eraseDups.map SetupLine.key :=
        List.mem_map_of_mem (List.mem_eraseDups.mpr hm)
      rw [if_pos hk, if_pos hm]
    · have hk : line.key ∉ lines.eraseDups.map SetupLine.key := by
        rwa [List.mem_map_of_injective SetupLine.key_injective, List.mem_eraseDups]
      rw [if_neg hk, if_neg hm, List.map_append, List.map_singleton]
  apply Table.eq_of_get?
  · rw [hkeys, keys_written]
  · exact Table.nodup_keys_alter (nodup_keys_written lines codes) line.key
  · intro key hm
    rw [hkeys] at hm
    obtain ⟨other, ho, rfl⟩ := List.mem_map.mp hm
    rw [List.mem_eraseDups] at ho
    rw [get?_written ho]
    by_cases he : other = line
    · rw [he, if_pos rfl]
      exact Table.get?_alter_self _ _ _
    · have hold : other ∈ lines := by simpa [he] using ho
      rw [if_neg he, Table.put,
        Table.get?_alter_of_ne _ _ fun hk => he (SetupLine.key_injective hk.symm),
        get?_written hold]

theorem foldl_put_written (lines more : List SetupLine) (codes given : SetupLine → String) :
    more.foldl (fun table line => table.put line.key (given line)) (written lines codes) =
      written (lines ++ more) fun line => if line ∈ more then given line else codes line := by
  induction more generalizing lines codes with
  | nil => simp
  | cons line rest ih =>
    rw [List.foldl_cons, put_written, ih, List.append_assoc, List.singleton_append]
    congr 1
    funext other
    by_cases he : other = line
    · simp [he]
    · simp [he]

end Bus

namespace Block

/-- What the block asks to stand in `setup()`, apart from what the blocks in its inputs do. -/
def setupLines (block : Block) : List Bus.SetupLine :=
  match block.role? with
  | some .busSetup => [.bitOrder, .dataMode, .clockDivider, .start]
  | some .transfer | some .transferAnswer =>
    .start :: (Bus.selectPin? block).toList.map .select
  | _ => []

def usesBus (block : Block) : Bool :=
  ["spi_setup", "spi_transfer", "spi_transfer_return"].contains block.kind

/-- The last of the blocks that sets up the bus. -/
def lastSetup? (evaluated : List Block) : Option Block :=
  (evaluated.filter (·.kind == "spi_setup")).getLast?

/-- Only a transfer wants the bus to be started ahead of everything else. -/
def promotes (block : Block) (line : Bus.SetupLine) : Bool :=
  line == .start && block.kind != "spi_setup"

theorem lastSetup?_concat (evaluated : List Block) (block : Block) :
    lastSetup? (evaluated ++ [block]) =
      if block.kind = "spi_setup" then some block else lastSetup? evaluated := by
  rw [lastSetup?, List.filter_append]
  split
  · rename_i hk
    rw [List.filter_cons_of_pos (by simp [hk]), List.filter_nil, List.getLast?_concat]
  · rename_i hk
    rw [List.filter_cons_of_neg (by simp [hk]), List.filter_nil, List.append_nil]
    rfl

theorem usesBus_of_role {block : Block} {role : Role} (h : block.role? = some role) :
    block.usesBus = ["spi_setup", "spi_transfer", "spi_transfer_return"].contains role.kind := by
  rw [usesBus, role?_eq_some.mp h]

theorem usesBus_of_none {block : Block} (h : block.role? = none) : block.usesBus = false := by
  have hsetup : block.kind ≠ "spi_setup" := kind_ne_of_none h .busSetup
  have htransfer : block.kind ≠ "spi_transfer" := kind_ne_of_none h .transfer
  have hanswer : block.kind ≠ "spi_transfer_return" := kind_ne_of_none h .transferAnswer
  simp [usesBus, hsetup, htransfer, hanswer]

theorem setupLines_of_setup {block : Block} (hk : block.kind = "spi_setup") :
    block.setupLines = [.bitOrder, .dataMode, .clockDivider, .start] := by
  have hr : block.role? = some .busSetup := role?_eq_some.mpr hk
  rw [setupLines, hr]

theorem setupLines_of_ne {block : Block} (hk : block.kind ≠ "spi_setup") :
    block.setupLines =
      if block.usesBus then .start :: block.switchedPin?.toList.map .select else [] := by
  rw [setupLines, switchedPin?_eq]
  cases hr : block.role? with
  | none => rw [usesBus_of_none hr]; rfl
  | some role =>
    rw [usesBus_of_role hr]
    cases role with
    | busSetup => exact absurd (role?_eq_some.mp hr) hk
    | number | variableRead | arithmetic | transfer | transferAnswer => rfl

theorem usesBus_of_setup {block : Block} (hk : block.kind = "spi_setup") :
    block.usesBus = true := by
  rw [usesBus, hk]
  rfl

theorem switchedPin?_of_setup {block : Block} (hk : block.kind = "spi_setup") :
    block.switchedPin? = none := by
  have hr : block.role? = some .busSetup := role?_eq_some.mpr hk
  rw [switchedPin?_eq, hr]

/-- Which blocks ask for a line. -/
def asksFor (block : Block) : Bus.SetupLine → Prop
  | .bitOrder | .dataMode | .clockDivider => block.kind = "spi_setup"
  | .start => block.usesBus
  | .select pin => block.switchedPin? = some pin

theorem usesBus_of_switchedPin? {block : Block} (h : block.switchedPin? = some pin) :
    block.usesBus := by
  rw [switchedPin?_eq] at h
  cases hr : block.role? with
  | none => simp [hr] at h
  | some role =>
    rw [usesBus_of_role hr]
    cases role with
    | busSetup | transfer | transferAnswer => rfl
    | number | variableRead | arithmetic => simp [hr] at h

theorem mem_setupLines {block : Block} {line : Bus.SetupLine} :
    line ∈ block.setupLines ↔ block.asksFor line := by
  by_cases hk : block.kind = "spi_setup"
  · rw [setupLines_of_setup hk]
    cases line <;> simp [asksFor, hk, usesBus_of_setup hk, switchedPin?_of_setup hk]
  · rw [setupLines_of_ne hk]
    cases hu : block.usesBus with
    | true => cases line <;> simp [asksFor, hk, hu]
    | false =>
      have hp (pin : String) : block.switchedPin? ≠ some pin := by
        intro hs
        simp [usesBus_of_switchedPin? hs] at hu
      cases line <;> simp [asksFor, hk, hu, hp]

theorem usesBus_of_asksFor {block : Block} {line : Bus.SetupLine} (h : block.asksFor line) :
    block.usesBus := by
  cases line with
  | bitOrder | dataMode | clockDivider => exact usesBus_of_setup h
  | start => exact h
  | select pin => exact usesBus_of_switchedPin? h

/-- Whatever else is asked for, the start of the bus is. -/
theorem setupLines_starts {evaluated : List Block} (h : evaluated.flatMap setupLines ≠ []) :
    .start ∈ evaluated.flatMap setupLines := by
  obtain ⟨line, hl⟩ := List.exists_mem_of_ne_nil _ h
  obtain ⟨block, hb, hm⟩ := List.mem_flatMap.mp hl
  refine List.mem_flatMap.mpr ⟨block, hb, mem_setupLines.mpr ?_⟩
  exact usesBus_of_asksFor (mem_setupLines.mp hm)

end Block

namespace Draft

def addLine (block : Block) (draft : Draft) (line : Bus.SetupLine) : Draft :=
  draft.addSetup line.key (line.code (some block)) (block.promotes line)

def addLines (block : Block) (draft : Draft) (lines : List Bus.SetupLine) : Draft :=
  lines.foldl (addLine block) draft

theorem transfer_lines (block : Block) (hk : block.kind ≠ "spi_setup") (board : Board)
    (draft : Draft) :
    (draft.registerAll ((Bus.prepareLog board block.location
        (Bus.selectPin? block)).filter Registration.isCode)).includes =
        draft.includes.putNew "spi" "#include <SPI.h>" ∧
      (draft.registerAll ((Bus.prepareLog board block.location
        (Bus.selectPin? block)).filter Registration.isCode)).setups =
        (addLines block draft (.start :: (Bus.selectPin? block).toList.map .select)).setups := by
  have hfirst : block.promotes .start = true := bne_iff_ne.mpr hk
  rw [Bus.filter_prepareLog, addLines, List.foldl_cons, addLine, hfirst]
  cases Bus.selectPin? block with
  | none => exact ⟨rfl, rfl⟩
  | some pin => exact ⟨rfl, rfl⟩

theorem perform_lines (draft : Draft) (block : Block) :
    (draft.perform block).includes =
        (if block.usesBus then draft.includes.putNew "spi" "#include <SPI.h>"
          else draft.includes) ∧
      (draft.perform block).setups = (addLines block draft block.setupLines).setups := by
  have hcode := SameCode.of_perform draft block
  rw [hcode.includes, hcode.setups]
  unfold Block.log Block.setupLines
  cases hr : block.role? with
  | none =>
    rw [Block.usesBus_of_none hr]
    exact ⟨rfl, rfl⟩
  | some role =>
    have hk := Block.role?_eq_some.mp hr
    rw [Block.usesBus_of_role hr]
    cases role with
    | number | variableRead | arithmetic => exact ⟨rfl, rfl⟩
    | busSetup =>
      have hlast (line : Bus.SetupLine) : block.promotes line = false := by
        simp [Block.promotes, hk, Role.kind]
      simp only [addLines, List.foldl_cons, List.foldl_nil, addLine, hlast]
      exact ⟨rfl, rfl⟩
    | transfer => exact transfer_lines block (by simp [hk, Role.kind]) _ draft
    | transferAnswer =>
      obtain ⟨hincludes, hsetups⟩ :=
        transfer_lines block (by simp [hk, Role.kind]) draft.board draft
      dsimp only
      rw [List.filter_append, registerAll_append, ← hincludes, ← hsetups]
      generalize draft.registerAll ((Bus.prepareLog draft.board block.location
        (Bus.selectPin? block)).filter Registration.isCode) = prepared
      -- The helper comes last, and asks for nothing in `setup()`.
      cases Bus.selectPin? block with
      | none => exact ⟨rfl, rfl⟩
      | some pin =>
        obtain ⟨helpers, taken, he⟩ := prepared.addHelper_frame (Bus.helperWish pin)
          (Bus.helperCode pin (block.dataCode draft.helperName))
        rw [List.filter_cons_of_pos rfl, List.filter_nil, registerAll_cons, registerAll_nil,
          register, he]
        exact ⟨rfl, rfl⟩

theorem stepCodes_addLines (block : Block) (draft : Draft) (lines : List Bus.SetupLine) :
    (addLines block draft lines).stepCodes =
      lines.foldl (fun table line => table.put line.key (line.code (some block)))
        draft.stepCodes := by
  induction lines generalizing draft with
  | nil => rfl
  | cons line rest ih =>
    rw [List.foldl_cons, ← stepCodes_addSetup]
    exact ih (addLine block draft line)

/-- Whatever runs ahead of the others stands ahead of them. -/
def Ordered (draft : Draft) : Prop :=
  draft.setups.values.Pairwise fun earlier later => later.runFirst → earlier.runFirst

theorem Ordered.orderedSetups_eq {draft : Draft} (h : draft.Ordered) :
    draft.orderedSetups = draft.stepCodes.values := by
  rw [stepCodes, Table.values_column, orderedSetups]
  congr 1
  unfold Ordered at h
  generalize draft.setups.values = steps at h
  induction steps with
  | nil => rfl
  | cons step rest ih =>
    obtain ⟨hstep, hrest⟩ := List.pairwise_cons.mp h
    cases hf : step.runFirst with
    | true =>
      rw [List.filter_cons_of_pos hf, List.filter_cons_of_neg (by simp [hf]), List.cons_append,
        ih hrest]
    | false =>
      have hlater : ∀ later ∈ rest, later.runFirst = false := by
        intro later hm
        rw [← Bool.not_eq_true]
        intro hl
        exact absurd (hstep later hm hl) (by simp [hf])
      rw [List.filter_eq_nil_iff.mpr (by simpa [hf] using hlater),
        List.filter_eq_self.mpr (by simpa [hf] using hlater), List.nil_append]

theorem ordered_iff (draft : Draft) :
    draft.Ordered ↔
      draft.promotions.values.Pairwise fun earlier later => later = true → earlier = true := by
  rw [promotions, Table.values_column, List.pairwise_map]
  rfl

/-- A new statement that runs first has to be the first of all. -/
theorem Ordered.addSetup {draft : Draft} (h : draft.Ordered) {key : String} {runFirst : Bool}
    (hn : runFirst = true → key ∈ draft.stepCodes.keys ∨ draft.stepCodes = []) (code : String) :
    (draft.addSetup key code runFirst).Ordered := by
  have hkeys : draft.promotions.keys = draft.stepCodes.keys := by
    rw [promotions, stepCodes, Table.keys_column, Table.keys_column]
  rw [ordered_iff] at h ⊢
  rw [promotions_addSetup]
  by_cases hm : key ∈ draft.promotions.keys
  · rwa [Table.putNew_of_mem hm]
  · rw [Table.putNew, Table.alter_of_missing (Table.get?_eq_none_iff.mpr hm), Table.values,
      List.map_append, List.pairwise_append]
    refine ⟨h, List.pairwise_singleton _ _, ?_⟩
    intro earlier he later hl hfirst
    obtain rfl : later = runFirst := by simpa using hl
    rw [hkeys] at hm
    have hempty : draft.promotions.keys = [] := by
      rw [hkeys, (hn hfirst).resolve_left hm]
      rfl
    rw [List.map_eq_nil_iff.mp hempty] at he
    cases he

theorem Ordered.addLines {block : Block} {lines : List Bus.SetupLine}
    (hl : ∀ line ∈ lines, block.promotes line = false) {draft : Draft} (h : draft.Ordered) :
    (addLines block draft lines).Ordered := by
  induction lines generalizing draft with
  | nil => exact h
  | cons line rest ih =>
    apply ih fun other hm => hl other (List.mem_cons_of_mem _ hm)
    apply h.addSetup
    rw [hl line List.mem_cons_self]
    intro hf
    cases hf

/-- The draft has in `setup()` what these evaluated blocks asked for. -/
structure SetUpBy (draft : Draft) (evaluated : List Block) : Prop where
  includes : draft.includes =
    if evaluated.any Block.usesBus then [("spi", "#include <SPI.h>")] else []
  steps : draft.stepCodes =
    Bus.written (evaluated.flatMap Block.setupLines)
      (Bus.SetupLine.code (Block.lastSetup? evaluated))
  ordered : draft.Ordered

theorem SetUpBy.starts {draft : Draft} {evaluated : List Block} (h : draft.SetUpBy evaluated) :
    Bus.SetupLine.start.key ∈ draft.stepCodes.keys ∨ draft.stepCodes = [] := by
  rw [h.steps, Bus.mem_keys_written]
  by_cases hb : evaluated.flatMap Block.setupLines = []
  · right
    rw [hb]
    rfl
  · left
    exact Block.setupLines_starts hb

theorem SetUpBy.ordered_addLines {draft : Draft} {evaluated : List Block}
    (h : draft.SetUpBy evaluated) (block : Block) :
    (addLines block draft block.setupLines).Ordered := by
  by_cases hk : block.kind = "spi_setup"
  · apply h.ordered.addLines
    intro line _
    simp [Block.promotes, hk]
  · rw [Block.setupLines_of_ne hk]
    cases block.usesBus with
    | false => exact h.ordered
    | true =>
      -- Only here a line comes to run first, and only as the first line of all.
      have hfirst : (addLine block draft .start).Ordered := h.ordered.addSetup (fun _ => h.starts) _
      apply hfirst.addLines
      intro line hm
      obtain ⟨pin, -, rfl⟩ := List.mem_map.mp hm
      rfl

theorem SetUpBy.perform {draft : Draft} {evaluated : List Block} (h : draft.SetUpBy evaluated)
    (block : Block) : (draft.perform block).SetUpBy (evaluated ++ [block]) := by
  obtain ⟨hincludes, hsetups⟩ := perform_lines draft block
  have hcodes : (draft.perform block).stepCodes =
      (addLines block draft block.setupLines).stepCodes :=
    congrArg (Table.column SetupStep.code) hsetups
  refine ⟨?_, ?_, ?_⟩
  · rw [hincludes, h.includes, List.any_append]
    cases evaluated.any Block.usesBus <;> cases hu : block.usesBus <;>
      simp [hu, Table.putNew, Table.alter]
  · rw [hcodes, stepCodes_addLines, h.steps, Bus.foldl_put_written, List.flatMap_append,
      List.flatMap_singleton]
    apply Bus.written_congr
    intro line _
    rw [Block.lastSetup?_concat]
    by_cases hk : block.kind = "spi_setup"
    · rw [Block.setupLines_of_setup hk, if_pos hk]
      cases line <;> rfl
    · rw [if_neg hk]
      split
      · rename_i hl
        rw [Block.mem_setupLines] at hl
        cases line with
        | bitOrder | dataMode | clockDivider => exact absurd hl hk
        | start | select pin => rfl
      · rfl
  · rw [Ordered, hsetups]
    exact h.ordered_addLines block

theorem SetUpBy.performAll {draft : Draft} {evaluated : List Block} (h : draft.SetUpBy evaluated)
    (blocks : List Block) : (draft.performAll blocks).SetUpBy (evaluated ++ blocks) := by
  induction blocks generalizing draft evaluated with
  | nil => rwa [List.append_nil]
  | cons block rest ih =>
    have hrest := ih (h.perform block)
    rwa [List.append_assoc] at hrest

theorem SetUpBy.orderedSetups {draft : Draft} {evaluated : List Block}
    (h : draft.SetUpBy evaluated) :
    draft.orderedSetups =
      (evaluated.flatMap Block.setupLines).eraseDups.map
        (Bus.SetupLine.code (Block.lastSetup? evaluated)) := by
  rw [h.ordered.orderedSetups_eq, h.steps, Bus.values_written]

theorem addVariables_setups (draft : Draft) (blocks : List Block) :
    (draft.addVariables blocks).includes = draft.includes ∧
      (draft.addVariables blocks).setups = draft.setups := by
  unfold addVariables
  induction Block.variablesRead blocks generalizing draft with
  | nil => exact ⟨rfl, rfl⟩
  | cons name rest ih => exact ih (draft.addVariable name)

end Draft

namespace Program

/-- A pass sets up what the blocks asked for that it evaluated. -/
theorem pass_setUp {program : Program} (h : program.pass = .ok loop draft) :
    draft.SetUpBy program.plan.evaluations := by
  obtain ⟨-, rfl, -⟩ := pass_eq_ok.mp h
  obtain ⟨hincludes, hsetups⟩ := (Draft.start program.board).addVariables_setups program.blocks
  have hfirst : program.firstDraft.SetUpBy [] := by
    refine ⟨hincludes, ?_, ?_⟩
    · rw [Draft.stepCodes, firstDraft, hsetups]
      rfl
    · rw [Draft.Ordered, firstDraft, hsetups]
      exact List.Pairwise.nil
  exact hfirst.performAll program.plan.evaluations

end Program

end BlockSketch
