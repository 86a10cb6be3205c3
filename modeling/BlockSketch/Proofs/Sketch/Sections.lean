import BlockSketch.Proofs.Draft.Tidy
import BlockSketch.Proofs.Findings.Modes

namespace BlockSketch

open Text (OneLine IsCode IsCodeText IsIndented IsInclude)

/-- What a sketch is put together from: the include lines, the text of each helper, the statements
of `setup()`, and the code of the loop. -/
structure Parts where
  includes : List String
  helpers : List String
  setups : List String
  loop : String
  deriving DecidableEq

def Draft.parts (draft : Draft) (loop : String) : Parts :=
  ⟨draft.includes.values, draft.helpers.values.map Helper.body, draft.orderedSetups, loop⟩

namespace Parts

def setupHeader : String := "void setup() \x7b"

def loopHeader : String := "void loop() \x7b"

def closing : String := "\x7d"

def atMargin (line : String) : Bool := line.toList.head? != some ' '

def outdent (line : String) : String := String.ofList (line.toList.drop 2)

/-- The lines between a header and the next closing line, without their indent. -/
def bodyOf (header : String) (lines : List String) : List String :=
  (((lines.dropWhile (· ≠ header)).drop 1).takeWhile (· ≠ closing)).map outdent

/-- What stands ahead of `setup()`, parted by blank lines. -/
def paragraphs (lines : List String) : List (List String) :=
  ((lines.takeWhile (· ≠ setupHeader)).splitOn "").dropLast

def areIncludes (paragraph : List String) : Bool :=
  paragraph.head?.any (·.toList.head? == some '#')

/-- The parts of a sketch, found by nothing but its lines. -/
def read (text : String) : Parts :=
  let lines := Text.lines text
  { includes := ((paragraphs lines).filter areIncludes).flatten
    helpers := ((paragraphs lines).filter (!areIncludes ·)).map "\n".intercalate
    setups := bodyOf setupHeader lines
    loop := Text.endLines (bodyOf loopHeader lines) }

theorem takeWhile_ne {before : List String} (h : line ∉ before) (rest : List String) :
    (before ++ line :: rest).takeWhile (· ≠ line) = before := by
  rw [List.takeWhile_append_of_pos fun other hm => by simpa using ne_of_mem_of_not_mem hm h]
  simp

theorem dropWhile_ne {before : List String} (h : line ∉ before) (rest : List String) :
    (before ++ line :: rest).dropWhile (· ≠ line) = line :: rest := by
  rw [List.dropWhile_append_of_pos fun other hm => by simpa using ne_of_mem_of_not_mem hm h]
  simp

theorem outdent_indentLine (line : String) : outdent (Text.indentLine 2 line) = line := by
  apply String.toList_injective
  by_cases hl : line = ""
  · simp [outdent, Text.indentLine, hl]
  · simp [outdent, Text.indentLine, hl, Text.spaces]

theorem splitOn_groups {groups : List (List String)} (h : ∀ group ∈ groups, "" ∉ group) :
    (groups.flatMap (· ++ [""])).splitOn "" = groups ++ [[]] := by
  induction groups with
  | nil => rfl
  | cons group rest ih =>
    have hgroup : ∀ line ∈ group, (line == "") = false := by
      intro line hm
      simpa using ne_of_mem_of_not_mem hm (h group List.mem_cons_self)
    have hrest := ih fun other hm => h other (List.mem_cons_of_mem _ hm)
    rw [List.splitOn_eq_splitOnP] at hrest ⊢
    rw [List.flatMap_cons, List.append_assoc, List.singleton_append,
      List.splitOnP_append_cons _ _ (by rfl), List.splitOnP_eq_singleton hgroup, hrest]
    rfl

theorem filter_atMargin {text : List String} (h : ∀ line ∈ text, IsIndented line) :
    text.filter atMargin = [] := by
  rw [List.filter_eq_nil_iff]
  exact fun line hm => by simp [atMargin, (h line hm).2]

/-- A line that begins with no blank is none of those that are indented. -/
theorem not_mem_indent {code : List String} (h : ∀ line ∈ code, IsCode line) {line : String}
    (hl : line.toList.head? ≠ some ' ') : line ∉ Text.indent 2 code :=
  fun hm => hl (Text.isIndented_indent h (by decide) line hm).2

theorem bodyOf_eq {header : String} {before code : List String} (hb : header ∉ before)
    (h : ∀ line ∈ code, IsCode line) (rest : List String) :
    bodyOf header (before ++ header :: (Text.indent 2 code ++ closing :: rest)) = code := by
  have hclosing : closing ∉ Text.indent 2 code := not_mem_indent h (by decide)
  rw [bodyOf, dropWhile_ne hb, List.drop_one, List.tail_cons, takeWhile_ne hclosing, Text.indent,
    List.map_map]
  exact List.map_id'' outdent_indentLine code

end Parts

namespace Draft

open Parts

/-- The lines ahead of `setup()`, group by group: the includes, if there are any, then each
helper. -/
def groups (draft : Draft) : List (List String) :=
  (if draft.includes.isEmpty then [] else [draft.includes.values]) ++
    draft.helpers.values.map fun helper => Text.lines helper.body

theorem groups_lines (draft : Draft) :
    draft.includeLines ++ draft.helperLines = draft.groups.flatMap (· ++ [""]) := by
  unfold includeLines helperLines groups
  rw [List.flatMap_append, List.flatMap_map]
  split <;> simp

end Draft

theorem Helper.Tidy.lines {helper : Helper} (h : helper.Tidy) :
    ∃ inner, Text.lines helper.body = header helper.name :: inner ++ [Parts.closing] ∧
      ∀ line ∈ inner, IsIndented line := by
  obtain ⟨inner, hbody, hinner⟩ := h.body
  refine ⟨inner, ?_, hinner⟩
  rw [hbody, bodyText]
  refine Text.lines_intercalate_concat ?_
  intro line hm
  simp only [List.cons_append, List.mem_cons, List.mem_append, List.not_mem_nil, or_false] at hm
  rcases hm with rfl | hm | rfl
  · simpa +decide [header] using h.name
  · exact (hinner line hm).1
  · decide

namespace Draft.Tidy

open Parts

variable {draft : Draft} {code : List String}

/-- No line of a group is blank, and none begins like the headers of `setup()` and `loop()`. -/
theorem group_line (h : draft.Tidy) {group : List String} (hg : group ∈ draft.groups)
    {line : String} (hm : line ∈ group) : IsCode line ∧ line.toList.head? ≠ some 'v' := by
  have hcode {c : Char} (ho : OneLine line) (hc : line.toList.head? = some c) : IsCode line := by
    refine ⟨ho, ?_⟩
    rintro rfl
    simp at hc
  rcases List.mem_append.mp hg with hg | hg
  · split at hg
    · cases hg
    · rw [List.mem_singleton.mp hg] at hm
      have hi := h.includes line hm
      exact ⟨hcode hi.1 hi.2, by simp [hi.2]⟩
  · obtain ⟨helper, hh, rfl⟩ := List.mem_map.mp hg
    have hhelper := h.helpers helper hh
    obtain ⟨inner, hlines, hinner⟩ := hhelper.lines
    simp only [hlines, List.cons_append, List.mem_cons, List.mem_append, List.not_mem_nil,
      or_false] at hm
    rcases hm with rfl | hm | rfl
    · simpa +decide [Helper.header, IsCode] using hhelper.name
    · have hi := hinner line hm
      exact ⟨hcode hi.1 hi.2, by simp [hi.2]⟩
    · decide

theorem head_line (h : draft.Tidy) {line : String}
    (hm : line ∈ draft.includeLines ++ draft.helperLines) :
    OneLine line ∧ line.toList.head? ≠ some 'v' := by
  rw [groups_lines] at hm
  obtain ⟨group, hg, hm⟩ := List.mem_flatMap.mp hm
  rcases List.mem_append.mp hm with hm | hm
  · exact (h.group_line hg hm).imp_left And.left
  · obtain rfl := List.mem_singleton.mp hm
    decide

theorem orderedSetups (h : draft.Tidy) : ∀ line ∈ draft.orderedSetups, IsCode line := by
  intro line hm
  obtain ⟨step, hs, rfl⟩ := List.mem_map.mp hm
  refine h.setups step ?_
  rcases List.mem_append.mp hs with hs | hs
  · exact (List.mem_filter.mp hs).1
  · exact (List.mem_filter.mp hs).1

theorem lines_layout (h : draft.Tidy) (hc : ∀ line ∈ code, IsCode line) :
    Text.lines (draft.layout (Text.endLines code)) =
      draft.includeLines ++ draft.helperLines ++
        setupHeader :: (Text.indent 2 draft.orderedSetups ++ closing ::
          ("" :: loopHeader :: (Text.indent 2 code ++ closing :: [""]))) := by
  have hloop : loopLines (Text.endLines code) =
      [loopHeader] ++ Text.indent 2 code ++ [closing] := by
    unfold loopLines
    rw [Text.lines_dropTrailingFeeds hc]
    rfl
  have hone {body : List String} (hb : ∀ line ∈ body, IsCode line) :
      ∀ line ∈ Text.indent 2 body, OneLine line :=
    fun line hm => (Text.isIndented_indent hb (by decide) line hm).1
  rw [layout, hloop, Text.lines_endLines]
  · simp [setupLines, setupHeader, closing]
  · simp only [setupLines, List.forall_mem_append]
    refine ⟨⟨⟨?_, ?_⟩, ⟨by decide, hone h.orderedSetups⟩, by decide⟩, ⟨by decide, hone hc⟩,
      by decide⟩
    · exact fun line hm => (h.head_line (List.mem_append_left _ hm)).1
    · exact fun line hm => (h.head_line (List.mem_append_right _ hm)).1

theorem filter_includeLines (h : draft.Tidy) :
    draft.includeLines.filter atMargin = draft.includeLines := by
  rw [List.filter_eq_self]
  intro line hm
  unfold includeLines at hm
  split at hm
  · cases hm
  · rcases List.mem_append.mp hm with hm | hm
    · simp [atMargin, (h.includes line hm).2]
    · obtain rfl := List.mem_singleton.mp hm
      decide

theorem filter_helperLines (h : draft.Tidy) :
    draft.helperLines.filter atMargin =
      draft.helpers.values.flatMap fun helper => [Helper.header helper.name, closing, ""] := by
  rw [helperLines, List.filter_flatMap, List.flatMap_def, List.flatMap_def]
  refine congrArg List.flatten (List.map_congr_left fun helper hm => ?_)
  obtain ⟨inner, hlines, hinner⟩ := (h.helpers helper hm).lines
  have hnone : inner.filter atMargin = [] := filter_atMargin hinner
  have hheader : atMargin (Helper.header helper.name) = true := by
    simp [atMargin, Helper.header]
  simp only [hlines, List.cons_append, List.filter_cons_of_pos hheader, List.filter_append, hnone]
  rfl

theorem filter_lines (h : draft.Tidy) (hc : ∀ line ∈ code, IsCode line) :
    (Text.lines (draft.layout (Text.endLines code))).filter atMargin =
      draft.includeLines ++
        (draft.helpers.values.flatMap fun helper => [Helper.header helper.name, closing, ""]) ++
        [setupHeader, closing, "", loopHeader, closing, ""] := by
  have hnone {body : List String} (hb : ∀ line ∈ body, IsCode line) :
      (Text.indent 2 body).filter atMargin = [] :=
    filter_atMargin (Text.isIndented_indent hb (by decide))
  have hmargin : atMargin setupHeader = true ∧ atMargin loopHeader = true ∧
      atMargin closing = true ∧ atMargin "" = true := by decide
  simp only [h.lines_layout hc, List.filter_append, h.filter_includeLines, h.filter_helperLines,
    List.filter_cons, hnone h.orderedSetups, hnone hc, hmargin, List.filter_nil, ↓reduceIte,
    List.nil_append]

theorem header_not_mem (h : draft.Tidy) {header : String} (hv : header.toList.head? = some 'v') :
    header ∉ draft.includeLines ++ draft.helperLines :=
  fun hm => (h.head_line hm).2 hv

/-- Neither helpers nor statements have a line like the headers of `setup()` and `loop()`. -/
theorem count_header (h : draft.Tidy) (hc : ∀ line ∈ code, IsCode line) {header : String}
    (hv : header.toList.head? = some 'v') :
    (Text.lines (draft.layout (Text.endLines code))).count header =
      [setupHeader, closing, "", loopHeader, closing, ""].count header := by
  have hhead : (draft.includeLines ++ draft.helperLines).count header = 0 :=
    List.count_eq_zero.mpr (h.header_not_mem hv)
  have hbody {body : List String} (hb : ∀ line ∈ body, IsCode line) :
      (Text.indent 2 body).count header = 0 :=
    List.count_eq_zero.mpr (not_mem_indent hb (by simp [hv]))
  rw [h.lines_layout hc, List.count_append, hhead]
  simp only [List.count_cons, List.count_append, hbody h.orderedSetups, hbody hc, Nat.zero_add]

theorem groups_read (h : draft.Tidy) (rest : List String) :
    paragraphs (draft.includeLines ++ draft.helperLines ++ setupHeader :: rest) = draft.groups := by
  have hblank : ∀ group ∈ draft.groups, "" ∉ group :=
    fun group hg hm => (h.group_line hg hm).1.2 rfl
  rw [paragraphs, takeWhile_ne (h.header_not_mem (by decide)), groups_lines, splitOn_groups hblank,
    List.dropLast_concat]

theorem areIncludes_values (h : draft.Tidy) (hne : draft.includes.isEmpty = false) :
    areIncludes draft.includes.values = true := by
  cases hi : draft.includes with
  | nil => simp [hi] at hne
  | cons entry rest =>
    have hentry := h.includes entry.2 (by simp [hi, Table.values])
    simp [areIncludes, Table.values, hentry.2]

theorem areIncludes_lines (h : draft.Tidy) {helper : Helper} (hm : helper ∈ draft.helpers.values) :
    areIncludes (Text.lines helper.body) = false := by
  obtain ⟨inner, hlines, -⟩ := (h.helpers helper hm).lines
  simp [areIncludes, hlines, Helper.header]

theorem includes_read (h : draft.Tidy) :
    (draft.groups.filter areIncludes).flatten = draft.includes.values := by
  have hhelpers :
      (draft.helpers.values.map fun helper => Text.lines helper.body).filter areIncludes = [] := by
    rw [List.filter_eq_nil_iff]
    intro group hg
    obtain ⟨helper, hm, rfl⟩ := List.mem_map.mp hg
    simp [h.areIncludes_lines hm]
  rw [groups, List.filter_append, hhelpers, List.append_nil]
  cases hi : draft.includes.isEmpty with
  | true => simp [List.isEmpty_iff.mp hi, Table.values]
  | false => simp [h.areIncludes_values hi]

theorem helpers_read (h : draft.Tidy) :
    (draft.groups.filter (!areIncludes ·)).map "\n".intercalate =
      draft.helpers.values.map Helper.body := by
  have hhelpers : (draft.helpers.values.map fun helper => Text.lines helper.body).filter
      (!areIncludes ·) = draft.helpers.values.map fun helper => Text.lines helper.body := by
    rw [List.filter_eq_self]
    intro group hg
    obtain ⟨helper, hm, rfl⟩ := List.mem_map.mp hg
    simp [h.areIncludes_lines hm]
  have hincludes : (if draft.includes.isEmpty then [] else [draft.includes.values]).filter
      (!areIncludes ·) = [] := by
    cases hi : draft.includes.isEmpty with
    | true => rfl
    | false => simp [h.areIncludes_values hi]
  rw [groups, List.filter_append, hhelpers, hincludes, List.nil_append, List.map_map]
  exact List.map_congr_left fun helper _ => Text.intercalate_lines helper.body

theorem setups_read (h : draft.Tidy) (hc : ∀ line ∈ code, IsCode line) :
    bodyOf setupHeader (Text.lines (draft.layout (Text.endLines code))) = draft.orderedSetups := by
  have hhead : setupHeader ∉ draft.includeLines ++ draft.helperLines := h.header_not_mem (by decide)
  rw [h.lines_layout hc]
  exact bodyOf_eq hhead h.orderedSetups _

theorem loop_read (h : draft.Tidy) (hc : ∀ line ∈ code, IsCode line) :
    bodyOf loopHeader (Text.lines (draft.layout (Text.endLines code))) = code := by
  have hhead : loopHeader ∉ draft.includeLines ++ draft.helperLines := h.header_not_mem (by decide)
  have hsetup :
      loopHeader ∉ setupHeader :: (Text.indent 2 draft.orderedSetups ++ [closing, ""]) := by
    intro hm
    rcases List.mem_cons.mp hm with hm | hm
    · revert hm
      decide
    · rcases List.mem_append.mp hm with hm | hm
      · exact not_mem_indent h.orderedSetups (by decide) hm
      · revert hm
        decide
  have hbefore := fun hm => (List.mem_append.mp hm).elim hhead hsetup
  have hread := bodyOf_eq hbefore hc [""]
  simpa only [h.lines_layout hc, List.append_assoc, List.cons_append, List.nil_append] using hread

/-- The parts are read back just as they were written. -/
theorem read_layout (h : draft.Tidy) (hc : ∀ line ∈ code, IsCode line) :
    Parts.read (draft.layout (Text.endLines code)) = draft.parts (Text.endLines code) := by
  have hgroups : paragraphs (Text.lines (draft.layout (Text.endLines code))) = draft.groups := by
    rw [h.lines_layout hc]
    exact h.groups_read _
  simp only [Parts.read, Draft.parts, hgroups, h.includes_read, h.helpers_read, h.setups_read hc,
    h.loop_read hc]

end Draft.Tidy

namespace Program

variable {program : Program} {sketch : Sketch}

/-- A sketch is the layout of a pass that came to its end, and all its lines are tidy. -/
theorem tidy_of_sketch (h : program.OneLined) (hs : program.sketch Registry.standard = .ok sketch) :
    ∃ code draft, program.pass = .ok (Text.endLines code) draft ∧
      sketch.text = draft.layout (Text.endLines code) ∧ draft.Tidy ∧
      ∀ line ∈ code, IsCode line := by
  rw [sketch_eq] at hs
  cases hp : program.pass with
  | error fault draft => simp [hp] at hs
  | ok loop draft =>
    obtain ⟨htidy, code, rfl, hc⟩ := pass_tidy h hp
    refine ⟨code, draft, rfl, ?_, htidy, hc⟩
    simp only [hp] at hs
    split at hs
    · cases hs
    · cases hs
      rfl

/-- The lines at the margin are includes, the first and last lines of functions, and blanks. So all
parts can be read from the text, and programs with the same text have the same parts. -/
theorem layout_unambiguous (h : program.OneLined)
    (hs : program.sketch Registry.standard = .ok sketch) :
    ∃ loop draft, program.pass = .ok loop draft ∧
      (Text.lines sketch.text).filter Parts.atMargin =
        (if draft.includes.isEmpty then [] else draft.includes.values ++ [""]) ++
          (draft.helpers.values.flatMap fun helper =>
            ["int " ++ helper.name ++ "() \x7b", "\x7d", ""]) ++
          ["void setup() \x7b", "\x7d", "", "void loop() \x7b", "\x7d", ""] ∧
      (Text.lines sketch.text).count "void setup() \x7b" = 1 ∧
      (Text.lines sketch.text).count "void loop() \x7b" = 1 ∧
      Parts.read sketch.text = draft.parts loop ∧
      ∀ (other : Program) (second : Sketch), other.OneLined →
        other.sketch Registry.standard = .ok second → second.text = sketch.text →
        ∃ otherLoop otherDraft, other.pass = .ok otherLoop otherDraft ∧
          otherDraft.parts otherLoop = draft.parts loop := by
  obtain ⟨code, draft, hp, htext, htidy, hc⟩ := tidy_of_sketch h hs
  have hread := htidy.read_layout hc
  rw [htext]
  refine ⟨_, draft, hp, htidy.filter_lines hc, htidy.count_header hc rfl, htidy.count_header hc rfl,
    hread, ?_⟩
  intro other second ho hsecond hsame
  obtain ⟨otherCode, otherDraft, hother, hotherText, hotherTidy, hoc⟩ := tidy_of_sketch ho hsecond
  refine ⟨_, otherDraft, hother, ?_⟩
  rw [← hotherTidy.read_layout hoc, ← hotherText, hsame, hread]

/-- One byte is sent to a device whose answer is not used. -/
def pinged : Program :=
  ⟨[⟨"spi_transfer_return", "", [("SPI_SS", "8")],
      [("SPI_DATA", ⟨"math_number", "", [("NUM", "1")], [], none⟩)], none⟩], .uno, .warn⟩

theorem pinged_oneLined : pinged.OneLined := by
  intro block hb
  rw [← Block.mem_everyBlock] at hb
  revert block
  decide +kernel

theorem pinged_pass :
    pinged.pass = .ok "spiReturnSlave8();\n" (pinged.plan.after pinged.firstDraft) :=
  pass_eq_ok.mpr ⟨by decide +kernel, rfl, by decide +kernel⟩

theorem pinged_sections :
    pinged.OneLined ∧ ∃ sketch, pinged.sketch Registry.standard = .ok sketch ∧
      (Text.lines sketch.text).filter Parts.atMargin =
        ["#include <SPI.h>", "", "int spiReturnSlave8() \x7b", "\x7d", "", "void setup() \x7b",
          "\x7d", "", "void loop() \x7b", "\x7d", ""] ∧
      (Parts.read sketch.text).includes = ["#include <SPI.h>"] ∧
      (Parts.read sketch.text).setups = ["SPI.begin();", "pinMode(8, OUTPUT);"] ∧
      (Parts.read sketch.text).loop = "spiReturnSlave8();\n" := by
  have hs : pinged.sketch Registry.standard = .ok _ := sketch_of_warn rfl pinged_pass
  obtain ⟨loop, draft, hp, hfilter, -, -, hread, -⟩ := layout_unambiguous pinged_oneLined hs
  obtain ⟨rfl, rfl⟩ : _ = loop ∧ _ = draft := by simpa using pinged_pass.symm.trans hp
  refine ⟨pinged_oneLined, _, hs, hfilter.trans (by decide +kernel), ?_⟩
  rw [hread]
  exact ⟨by decide +kernel, by decide +kernel, rfl⟩

end Program

end BlockSketch
