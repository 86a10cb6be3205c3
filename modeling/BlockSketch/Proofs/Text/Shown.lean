import BlockSketch.Text.Lines

namespace BlockSketch.Text

/-- The characters of which each ends a line on its own. -/
def lineEnds : List Char :=
  ['\n', '\x0b', '\x0c', '\r', '\x1c', '\x1d', '\x1e', '\u0085', '\u2028', '\u2029']

def Endless (line : List Char) : Prop := ∀ c ∈ line, c ∉ lineEnds

/-- The lines that are shown of a text: what stands before each end of a line, and what stands after
the last one unless nothing does. A carriage return and the line feed after it are one end. -/
inductive Shown : List Char → List (List Char) → Prop
  | nothing : Shown [] []
  | last {line : List Char} : line ≠ [] → Endless line → Shown line [line]
  | crlf {line rest : List Char} {lines : List (List Char)} : Endless line → Shown rest lines →
    Shown (line ++ '\r' :: '\n' :: rest) (line :: lines)
  | next {line rest : List Char} {mark : Char} {lines : List (List Char)} : Endless line →
    mark ∈ lineEnds → ¬ (mark = '\r' ∧ rest.head? = some '\n') → Shown rest lines →
    Shown (line ++ mark :: rest) (line :: lines)

/-- Where the first line ends is settled by the text. -/
theorem cut_unique {line other rest more : List Char} {mark sign : Char} (hl : Endless line)
    (ho : Endless other) (hm : mark ∈ lineEnds) (hs : sign ∈ lineEnds)
    (h : line ++ mark :: rest = other ++ sign :: more) :
    line = other ∧ mark = sign ∧ rest = more := by
  induction line generalizing other with
  | nil =>
    cases other with
    | nil => simpa using h
    | cons c other =>
      rw [List.nil_append, List.cons_append, List.cons.injEq] at h
      exact absurd (h.1 ▸ hm) (ho c List.mem_cons_self)
  | cons c line ih =>
    cases other with
    | nil =>
      rw [List.nil_append, List.cons_append, List.cons.injEq] at h
      exact absurd (h.1 ▸ hs) (hl c List.mem_cons_self)
    | cons d other =>
      rw [List.cons_append, List.cons_append, List.cons.injEq] at h
      obtain ⟨rfl, he⟩ := h
      obtain ⟨rfl, hms, hrm⟩ := ih (fun e hm => hl e (List.mem_cons_of_mem _ hm))
        (fun e hm => ho e (List.mem_cons_of_mem _ hm)) he
      exact ⟨rfl, hms, hrm⟩

theorem not_endless {line rest : List Char} {mark : Char} (hm : mark ∈ lineEnds) :
    ¬ Endless (line ++ mark :: rest) :=
  fun h => h mark (List.mem_append_right _ List.mem_cons_self) hm

theorem Shown.cut {line rest : List Char} {mark : Char} {lines : List (List Char)}
    (hl : Endless line) (hm : mark ∈ lineEnds) (h : Shown (line ++ mark :: rest) lines) :
    ∃ later, lines = line :: later ∧
      Shown (if mark = '\r' ∧ rest.head? = some '\n' then rest.tail else rest) later := by
  generalize ht : line ++ mark :: rest = text at h
  cases h with
  | nothing => simp at ht
  | last _ ho => exact absurd (ht ▸ ho) (not_endless hm)
  | crlf ho hs =>
    obtain ⟨rfl, rfl, rfl⟩ := cut_unique hl ho hm (by decide) ht
    exact ⟨_, rfl, hs⟩
  | next ho hmore hcr hs =>
    obtain ⟨rfl, rfl, rfl⟩ := cut_unique hl ho hm hmore ht
    rw [if_neg hcr]
    exact ⟨_, rfl, hs⟩

theorem Shown.unique {text : List Char} {lines others : List (List Char)} (h : Shown text lines)
    (h' : Shown text others) : lines = others := by
  have hr : '\r' ∈ lineEnds := by decide
  induction h generalizing others with
  | nothing =>
    generalize ht : ([] : List Char) = text at h'
    cases h' with
    | nothing => rfl
    | last hn => exact absurd ht.symm hn
    | crlf | next => simp at ht
  | last hn hl =>
    cases h' with
    | nothing => exact absurd rfl hn
    | last => rfl
    | crlf => exact absurd hl (not_endless hr)
    | next _ hm => exact absurd hl (not_endless hm)
  | crlf hl _ ih =>
    obtain ⟨later, rfl, hs⟩ := h'.cut hl hr
    rw [ih hs]
  | next hl hm hcr _ ih =>
    obtain ⟨later, rfl, hs⟩ := h'.cut hl hm
    rw [if_neg hcr] at hs
    rw [ih hs]

theorem breaksLine_iff {c : Char} : breaksLine c = true ↔ c ∈ lineEnds := by
  have hends : lineEnds.map Char.toNat =
      [0x0a, 0x0b, 0x0c, 0x0d, 0x1c, 0x1d, 0x1e, 0x85, 0x2028, 0x2029] := by decide
  rw [breaksLine, List.contains_iff_mem, ← hends, List.mem_map]
  constructor
  · rintro ⟨mark, hm, he⟩
    exact Char.toNat_inj.mp he ▸ hm
  · exact fun hm => ⟨c, hm, rfl⟩

theorem Endless.breaks {line : List Char} (h : Endless line) {c : Char} (hc : c ∈ line) :
    breaksLine c = false := by
  rw [Bool.eq_false_iff, ne_eq, breaksLine_iff]
  exact h c hc

theorem breakCount_cons {c : Char} {rest : List Char}
    (h : ¬ (c = '\r' ∧ rest.head? = some '\n')) :
    breakCount (c :: rest) = breakCount rest + if breaksLine c then 1 else 0 := by
  rw [breakCount]
  rintro cs rfl rfl
  exact h ⟨rfl, rfl⟩

theorem Endless.breakCount_append {line : List Char} (h : Endless line) (rest : List Char) :
    breakCount (line ++ rest) = breakCount rest := by
  induction line with
  | nil => rfl
  | cons c line ih =>
    have hcr : c ≠ '\r' := by
      rintro rfl
      exact h '\r' List.mem_cons_self (by decide)
    rw [List.cons_append, breakCount_cons fun hc => hcr hc.1,
      ih fun e hm => h e (List.mem_cons_of_mem _ hm), h.breaks List.mem_cons_self]
    rfl

/-- One for text after the last break. -/
def openCount (text : List Char) : Nat := if text.getLast?.any (!breaksLine ·) then 1 else 0

theorem openCount_append {line rest : List Char} {mark : Char} (hm : mark ∈ lineEnds) :
    openCount (line ++ mark :: rest) = openCount rest := by
  unfold openCount
  cases hr : rest.getLast? with
  | none =>
    obtain rfl := List.getLast?_eq_none_iff.mp hr
    simp [breaksLine_iff.mpr hm]
  | some c => simp [List.getLast?_append, List.getLast?_cons, hr]

theorem Shown.count {text : List Char} {lines : List (List Char)} (h : Shown text lines) :
    breakCount text + openCount text = lines.length := by
  have hr : '\r' ∈ lineEnds := by decide
  induction h with
  | nothing => rfl
  | @last line hn hl =>
    have hb : breakCount line = 0 := by
      have hb := hl.breakCount_append []
      rwa [List.append_nil] at hb
    have ho : openCount line = 1 := by
      rw [openCount, List.getLast?_eq_some_getLast hn]
      simp [hl.breaks (List.getLast_mem hn)]
    rw [hb, ho]
    rfl
  | @crlf line rest lines hl _ ih =>
    have ho : openCount (line ++ '\r' :: '\n' :: rest) = openCount rest := by
      rw [List.append_cons]
      exact openCount_append (by decide)
    rw [hl.breakCount_append, breakCount, ho, List.length_cons, ← ih]
    omega
  | @next line rest mark lines hl hm hcr _ ih =>
    rw [hl.breakCount_append, breakCount_cons hcr, if_pos (breaksLine_iff.mpr hm),
      openCount_append hm, List.length_cons, ← ih]
    omega

theorem Shown.lineCount {text : String} {lines : List (List Char)} (h : Shown text.toList lines) :
    lineCount text = lines.length :=
  h.count

end BlockSketch.Text
