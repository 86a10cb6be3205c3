import BlockSketch.Text.Lines
import BlockSketch.Text.Substitute

namespace BlockSketch.Text

def OneLine (text : String) : Prop := '\n' ∉ text.toList

instance (text : String) : Decidable (OneLine text) :=
  inferInstanceAs (Decidable ('\n' ∉ text.toList))

@[simp] theorem oneLine_append {text more : String} :
    OneLine (text ++ more) ↔ OneLine text ∧ OneLine more := by
  simp [OneLine]

theorem lines_of_oneLine {line : String} (h : OneLine line) : lines line = [line] := by
  rw [lines, split, List.splitOn_eq_singleton h, List.map_singleton, String.ofList_toList]

theorem lines_append {line : String} (h : OneLine line) (rest : String) :
    lines (line ++ "\n" ++ rest) = line :: lines rest := by
  have htext : (line ++ "\n" ++ rest).toList = line.toList ++ '\n' :: rest.toList := by simp
  rw [lines, split, htext, List.splitOn_append_cons_self_of_not_mem h, List.map_cons,
    String.ofList_toList]
  rfl

theorem lines_endLines_append {text : List String} (h : ∀ line ∈ text, OneLine line)
    (rest : String) : lines (endLines text ++ rest) = text ++ lines rest := by
  induction text with
  | nil => rw [endLines, String.empty_append, List.nil_append]
  | cons line others ih =>
    rw [endLines, String.append_assoc, lines_append (h line List.mem_cons_self),
      ih fun other hm => h other (List.mem_cons_of_mem _ hm), List.cons_append]

/-- Every line ends with a line feed, so one empty piece is left behind the last. -/
theorem lines_endLines {text : List String} (h : ∀ line ∈ text, OneLine line) :
    lines (endLines text) = text ++ [""] := by
  have hempty : OneLine "" := by decide
  have hl := lines_endLines_append h ""
  rwa [String.append_empty, lines_of_oneLine hempty] at hl

theorem intercalate_concat (text : List String) (last : String) :
    "\n".intercalate (text ++ [last]) = endLines text ++ last := by
  induction text with
  | nil => rw [endLines, String.empty_append, List.nil_append, String.intercalate_singleton]
  | cons line rest ih =>
    rw [endLines, String.append_assoc, ← ih, List.cons_append,
      String.intercalate_cons_of_ne_nil (by simp)]

theorem lines_intercalate_concat {text : List String} {last : String}
    (h : ∀ line ∈ text ++ [last], OneLine line) :
    lines ("\n".intercalate (text ++ [last])) = text ++ [last] := by
  rw [intercalate_concat, lines_endLines_append fun line hm => h line (List.mem_append_left _ hm),
    lines_of_oneLine (h last (List.mem_append_right _ (List.mem_singleton_self last)))]

theorem endLines_append (text more : List String) :
    endLines (text ++ more) = endLines text ++ endLines more := by
  induction text with
  | nil => rw [endLines, String.empty_append, List.nil_append]
  | cons line rest ih => simp only [List.cons_append, endLines, ih, String.append_assoc]

/-- A line that says something. -/
def IsCode (line : String) : Prop := OneLine line ∧ line ≠ ""

instance (line : String) : Decidable (IsCode line) :=
  inferInstanceAs (Decidable (OneLine line ∧ line ≠ ""))

def IsIndented (line : String) : Prop := OneLine line ∧ line.toList.head? = some ' '

theorem IsCode.indentLine {line : String} (h : IsCode line) {width : Int} (hw : 0 < width) :
    IsIndented (indentLine width line) := by
  have hspaces : (spaces width).toList = List.replicate width.toNat ' ' := by simp [spaces]
  obtain ⟨n, hn⟩ : ∃ n, width.toNat = n + 1 := ⟨width.toNat - 1, by omega⟩
  rw [Text.indentLine, if_neg h.2]
  constructor
  · rw [oneLine_append, OneLine, hspaces]
    exact ⟨fun hm => absurd (List.eq_of_mem_replicate hm) (by decide), h.1⟩
  · rw [String.toList_append, hspaces, hn]
    rfl

theorem isIndented_indent {code : List String} (h : ∀ line ∈ code, IsCode line) {width : Int}
    (hw : 0 < width) : ∀ line ∈ indent width code, IsIndented line := by
  intro line hm
  obtain ⟨inner, hi, rfl⟩ := List.mem_map.mp hm
  exact (h inner hi).indentLine hw

theorem indent_zero (text : List String) : indent 0 text = text := by
  have hline (line : String) : indentLine 0 line = line := by
    unfold indentLine
    split
    · exact (‹line = ""›).symm
    · exact String.empty_append
  rw [indent, funext hline, List.map_id'']
  exact fun _ => rfl

/-- The text consists of lines of code, each with a line feed. -/
def IsCodeText (text : String) : Prop :=
  ∃ code : List String, text = endLines code ∧ ∀ line ∈ code, IsCode line

theorem isCodeText_empty : IsCodeText "" := ⟨[], rfl, by simp⟩

theorem IsCodeText.append {text more : String} (ht : IsCodeText text) (hm : IsCodeText more) :
    IsCodeText (text ++ more) := by
  obtain ⟨code, rfl, hc⟩ := ht
  obtain ⟨others, rfl, ho⟩ := hm
  refine ⟨code ++ others, (endLines_append code others).symm, ?_⟩
  intro line hl
  exact (List.mem_append.mp hl).elim (hc line) (ho line)

theorem dropTrailingFeeds_feed {text : String} (h : ∀ c ∈ text.toList.getLast?, c ≠ '\n') :
    dropTrailingFeeds (text ++ "\n") = text := by
  have hrest : text.toList.reverse.dropWhile (· = '\n') = text.toList.reverse := by
    rw [← List.head?_reverse] at h
    cases hr : text.toList.reverse with
    | nil => rfl
    | cons c cs => exact List.dropWhile_cons_of_neg (by simpa [hr] using h)
  have hfeed : (text ++ "\n").toList.reverse = '\n' :: text.toList.reverse := by simp
  rw [dropTrailingFeeds, hfeed, List.dropWhile_cons_of_pos (by simp), hrest, List.reverse_reverse,
    String.ofList_toList]

/-- Only the last line feed of a text of code is left out, since no line of code is empty. -/
theorem lines_dropTrailingFeeds {code : List String} (h : ∀ line ∈ code, IsCode line) :
    (if endLines code = "" then [] else lines (dropTrailingFeeds (endLines code))) = code := by
  rcases List.eq_nil_or_concat code with rfl | ⟨before, last, rfl⟩
  · rfl
  · rw [List.concat_eq_append] at h ⊢
    have hlast := h last (List.mem_append_right _ (List.mem_singleton_self last))
    have htext : endLines (before ++ [last]) = "\n".intercalate (before ++ [last]) ++ "\n" := by
      simp only [endLines_append, intercalate_concat, endLines, String.append_empty,
        String.append_assoc]
    have hend : ∀ c ∈ ("\n".intercalate (before ++ [last])).toList.getLast?, c ≠ '\n' := by
      rintro c hc rfl
      rw [intercalate_concat, String.toList_append, List.getLast?_append, Option.mem_def,
        Option.or_eq_some_iff] at hc
      rcases hc with hc | ⟨hnone, -⟩
      · exact hlast.1 (List.mem_of_getLast? hc)
      · exact hlast.2 (by simpa using hnone)
    rw [htext, dropTrailingFeeds_feed hend, lines_intercalate_concat fun line hm => (h line hm).1]
    simp

/-- A character that is not of the phrase parts what is before it from what is behind it. -/
theorem isPrefixOf_append_cons {phrase : List Char} {c : Char} (h : c ∉ phrase)
    (before rest : List Char) :
    phrase.isPrefixOf (before ++ c :: rest) = phrase.isPrefixOf before := by
  rw [Bool.eq_iff_iff, List.isPrefixOf_iff_prefix, List.isPrefixOf_iff_prefix]
  constructor
  · intro hp
    rcases List.prefix_or_prefix_of_prefix hp (List.prefix_append before (c :: rest)) with hb | hb
    · exact hb
    · obtain ⟨more, rfl⟩ := hb
      cases more with
      | nil => simp
      | cons first more =>
        have hc := (List.prefix_append_right_inj before).mp hp
        have he := (List.cons_prefix_cons.mp hc).1
        subst he
        exact absurd (List.mem_append_right _ List.mem_cons_self) h
  · exact fun hp => hp.trans (List.prefix_append _ _)

theorem substituteFrom_append_cons {phrase : List Char} {c : Char} (h : c ∉ phrase)
    (hne : phrase ≠ []) (replacement before rest : List Char) (skip : Nat)
    (hs : skip ≤ before.length) :
    substituteFrom phrase replacement skip (before ++ c :: rest) =
      substituteFrom phrase replacement skip before ++
        c :: substituteFrom phrase replacement 0 rest := by
  induction before generalizing skip with
  | nil =>
    obtain rfl : skip = 0 := Nat.le_zero.mp hs
    have hp : phrase.isPrefixOf (c :: rest) = false := by
      have he := isPrefixOf_append_cons h [] rest
      rw [List.nil_append] at he
      rw [he]
      cases phrase with
      | nil => exact absurd rfl hne
      | cons => rfl
    simp [substituteFrom, hp]
  | cons first before ih =>
    cases skip with
    | succ skip => exact ih skip (Nat.le_of_succ_le_succ hs)
    | zero =>
      have hp := isPrefixOf_append_cons h (first :: before) rest
      rw [List.cons_append] at hp ⊢
      simp only [substituteFrom, hp]
      split
      · rename_i hin
        have hl := (List.isPrefixOf_iff_prefix.mp hin).length_le
        rw [List.length_cons] at hl
        rw [ih _ (by omega), List.append_assoc]
      · rw [ih 0 (Nat.zero_le _), List.cons_append]

theorem substituteFrom_of_not_mem {phrase text : List Char} {c : Char} (hc : c ∈ phrase)
    (h : c ∉ text) (replacement : List Char) : substituteFrom phrase replacement 0 text = text := by
  induction text with
  | nil => rfl
  | cons first rest ih =>
    have hp : phrase.isPrefixOf (first :: rest) = false := by
      rw [Bool.eq_false_iff, ne_eq, List.isPrefixOf_iff_prefix]
      exact fun hp => h (hp.subset hc)
    rw [substituteFrom, hp]
    simp [ih fun hr => h (List.mem_cons_of_mem _ hr)]

theorem mem_substituteFrom {phrase replacement text : List Char} {c : Char} {skip : Nat}
    (h : c ∈ substituteFrom phrase replacement skip text) : c ∈ replacement ∨ c ∈ text := by
  induction text generalizing skip with
  | nil => cases skip <;> simp [substituteFrom] at h
  | cons first rest ih =>
    cases skip with
    | succ skip => exact (ih h).imp_right (List.mem_cons_of_mem _)
    | zero =>
      rw [substituteFrom] at h
      split at h
      · rcases List.mem_append.mp h with h | h
        · exact Or.inl h
        · exact (ih h).imp_right (List.mem_cons_of_mem _)
      · rcases List.mem_cons.mp h with rfl | h
        · exact Or.inr List.mem_cons_self
        · exact (ih h).imp_right (List.mem_cons_of_mem _)

theorem OneLine.substitute {text replacement : String} (ht : OneLine text)
    (hr : OneLine replacement) (phrase : String) :
    OneLine (substitute phrase replacement text) := by
  intro hm
  rw [Text.substitute, String.toList_ofList] at hm
  exact (mem_substituteFrom hm).elim hr ht

/-- A character that is not of the phrase stays between what becomes of the texts around it. -/
theorem substitute_append_char {phrase : String} {c : Char} (h : c ∉ phrase.toList)
    (hne : phrase ≠ "") (replacement before rest : String) :
    substitute phrase replacement (before ++ String.singleton c ++ rest) =
      substitute phrase replacement before ++ String.singleton c ++
        substitute phrase replacement rest := by
  have htext :
      (before ++ String.singleton c ++ rest).toList = before.toList ++ c :: rest.toList := by simp
  have hp : phrase.toList ≠ [] := by simpa using hne
  apply String.toList_injective
  rw [substitute, htext, substituteFrom_append_cons h hp _ _ _ 0 (Nat.zero_le _)]
  simp [substitute]

theorem substitute_intercalate {phrase : String} (h : OneLine phrase) (hne : phrase ≠ "")
    (replacement : String) (text : List String) :
    substitute phrase replacement ("\n".intercalate text) =
      "\n".intercalate (text.map (substitute phrase replacement)) := by
  induction text with
  | nil => rfl
  | cons line rest ih =>
    cases rest with
    | nil => simp only [List.map_cons, List.map_nil, String.intercalate_singleton]
    | cons second rest =>
      have hj := substitute_append_char h hne replacement line ("\n".intercalate (second :: rest))
      simp only [List.map_cons, String.intercalate_cons_cons] at ih ⊢
      rw [ih] at hj
      exact hj

end BlockSketch.Text
