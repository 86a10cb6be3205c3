import BlockSketch.Proofs.Text.Lines

namespace BlockSketch.Text

/-- The pieces that a reader keeps who looks for a phrase and goes on behind each occurrence. No
occurrence begins before the one that ends a piece. -/
inductive Scan (phrase : List Char) : List Char → List (List Char) → Prop
  | last {text : List Char} : ¬ phrase <:+: text → Scan phrase text [text]
  | next {before rest : List Char} {pieces : List (List Char)} :
    ¬ phrase <:+: before ++ phrase.dropLast → Scan phrase rest pieces →
    Scan phrase (before ++ (phrase ++ rest)) (before :: pieces)

theorem Scan.ne_nil {phrase text : List Char} {pieces : List (List Char)}
    (h : Scan phrase text pieces) : pieces ≠ [] := by
  cases h <;> exact List.cons_ne_nil _ _

section

variable {phrase : List Char} (hne : phrase ≠ [])

include hne

/-- What begins before an occurrence ends before that occurrence does. -/
theorem prefix_dropLast {before rest : List Char} (hb : before ≠ [])
    (h : phrase <+: before ++ (phrase ++ rest)) : phrase <+: before ++ phrase.dropLast := by
  have hphrase : phrase = phrase.dropLast ++ [phrase.getLast hne] :=
    (List.dropLast_concat_getLast hne).symm
  have htext : before ++ (phrase ++ rest) =
      (before ++ phrase.dropLast) ++ ([phrase.getLast hne] ++ rest) := by
    simp only [List.append_assoc]
    rw [← List.append_assoc phrase.dropLast, ← hphrase]
  have hpos := List.length_pos_iff.mpr hb
  have hlen : phrase.length ≤ (before ++ phrase.dropLast).length := by
    rw [List.length_append, List.length_dropLast]
    omega
  exact List.prefix_of_prefix_length_le h (htext ▸ List.prefix_append _ _) hlen

theorem not_infix_dropLast : ¬ phrase <:+: phrase.dropLast := by
  intro h
  have hlen := h.length_le
  have hpos := List.length_pos_iff.mpr hne
  rw [List.length_dropLast] at hlen
  omega

theorem exists_first {text : List Char} (h : phrase <:+: text) :
    ∃ before rest, text = before ++ (phrase ++ rest) ∧ ¬ phrase <:+: before ++ phrase.dropLast := by
  induction text with
  | nil => exact absurd (List.infix_nil.mp h) hne
  | cons c text ih =>
    by_cases hp : phrase <+: c :: text
    · obtain ⟨rest, he⟩ := hp
      exact ⟨[], rest, he.symm, not_infix_dropLast hne⟩
    · obtain ⟨before, rest, rfl, hfirst⟩ := ih ((List.infix_cons_iff.mp h).resolve_left hp)
      refine ⟨c :: before, rest, rfl, ?_⟩
      intro hi
      rcases List.infix_cons_iff.mp hi with hi | hi
      · refine hp (hi.trans ?_)
        have hd := List.prefix_append phrase.dropLast (phrase.getLast hne :: rest)
        rw [List.append_cons, List.dropLast_concat_getLast] at hd
        exact (List.prefix_append_right_inj (c :: before)).mpr hd
      · exact hfirst hi

theorem exists_scan (text : List Char) : ∃ pieces, Scan phrase text pieces := by
  -- By induction on how much there is to read: each occurrence makes it less.
  induction hn : text.length using Nat.strongRecOn generalizing text with
  | ind n ih =>
    by_cases h : phrase <:+: text
    · obtain ⟨before, rest, rfl, hfirst⟩ := exists_first hne h
      have hpos := List.length_pos_iff.mpr hne
      have hless : rest.length < n := by
        rw [← hn, List.length_append, List.length_append]
        omega
      obtain ⟨pieces, hs⟩ := ih rest.length hless rest rfl
      exact ⟨before :: pieces, .next hfirst hs⟩
    · exact ⟨[text], .last h⟩

theorem first_unique {before other rest more : List Char}
    (he : before ++ (phrase ++ rest) = other ++ (phrase ++ more))
    (hfirst : ¬ phrase <:+: before ++ phrase.dropLast)
    (hother : ¬ phrase <:+: other ++ phrase.dropLast) : before = other := by
  have hlater {a b c : List Char} {between : List Char} (hb : between ≠ [])
      (h : phrase ++ c = between ++ (phrase ++ b)) :
      phrase <:+: (a ++ between) ++ phrase.dropLast := by
    have hp : phrase <+: between ++ (phrase ++ b) := h ▸ List.prefix_append phrase c
    rw [List.append_assoc]
    exact (prefix_dropLast hne hb hp).isInfix.trans (List.suffix_append _ _).isInfix
  rcases List.append_eq_append_iff.mp he with ⟨between, ho, hr⟩ | ⟨between, hb, hr⟩
  · by_cases hn : between = []
    · rw [ho, hn, List.append_nil]
    · exact absurd (ho ▸ hlater hn hr) hother
  · by_cases hn : between = []
    · rw [hb, hn, List.append_nil]
    · exact absurd (hb ▸ hlater hn hr) hfirst

/-- There is only one way to read a text. -/
theorem Scan.unique {text : List Char} {pieces others : List (List Char)}
    (h : Scan phrase text pieces) (h' : Scan phrase text others) : pieces = others := by
  have hoccurs (before rest : List Char) : phrase <:+: before ++ (phrase ++ rest) :=
    ⟨before, rest, List.append_assoc _ _ _⟩
  induction h generalizing others with
  | @last text hn =>
    cases h' with
    | last => rfl
    | next => exact absurd (hoccurs _ _) hn
  | @next before rest pieces hfirst _ ih =>
    generalize ht : before ++ (phrase ++ rest) = text at h'
    cases h' with
    | last hn => exact absurd (ht ▸ hoccurs before rest) hn
    | @next other more others hother hs =>
      obtain rfl := first_unique hne ht hfirst hother
      have hrest := List.append_cancel_left (List.append_cancel_left ht)
      subst hrest
      rw [ih hs]

end

theorem substituteFrom_of_absent {phrase text : List Char} (h : ¬ phrase <:+: text)
    (replacement : List Char) : substituteFrom phrase replacement 0 text = text := by
  induction text with
  | nil => rfl
  | cons c text ih =>
    rw [List.infix_cons_iff, not_or] at h
    have hp : phrase.isPrefixOf (c :: text) = false := by
      rw [Bool.eq_false_iff, ne_eq, List.isPrefixOf_iff_prefix]
      exact h.1
    rw [substituteFrom, hp, ih h.2]
    rfl

theorem substituteFrom_skip (phrase replacement passed rest : List Char) :
    substituteFrom phrase replacement passed.length (passed ++ rest) =
      substituteFrom phrase replacement 0 rest := by
  induction passed with
  | nil => rfl
  | cons c passed ih => exact ih

theorem substituteFrom_first {phrase before : List Char} (hne : phrase ≠ [])
    (h : ¬ phrase <:+: before ++ phrase.dropLast) (replacement rest : List Char) :
    substituteFrom phrase replacement 0 (before ++ (phrase ++ rest)) =
      before ++ (replacement ++ substituteFrom phrase replacement 0 rest) := by
  induction before with
  | nil =>
    obtain ⟨c, phrase, rfl⟩ := List.exists_cons_of_ne_nil hne
    have hp : (c :: phrase).isPrefixOf (c :: (phrase ++ rest)) = true :=
      List.isPrefixOf_iff_prefix.mpr (List.prefix_append (c :: phrase) rest)
    rw [List.nil_append, List.cons_append, substituteFrom, if_pos hp, List.length_cons,
      Nat.add_sub_cancel, substituteFrom_skip, List.nil_append]
  | cons c before ih =>
    have hp : phrase.isPrefixOf (c :: (before ++ (phrase ++ rest))) = false := by
      rw [Bool.eq_false_iff, ne_eq, List.isPrefixOf_iff_prefix]
      intro hp
      exact h (prefix_dropLast hne (List.cons_ne_nil c before) hp).isInfix
    rw [List.cons_append, substituteFrom, hp, ih fun hi => h (List.infix_cons hi)]
    rfl

/-- The replacement stands between the pieces, and nothing else is changed. -/
theorem Scan.substituteFrom {phrase text : List Char} {pieces : List (List Char)}
    (hne : phrase ≠ []) (h : Scan phrase text pieces) (replacement : List Char) :
    substituteFrom phrase replacement 0 text = replacement.intercalate pieces := by
  induction h with
  | last hn => rw [substituteFrom_of_absent hn, List.intercalate_singleton]
  | @next before rest pieces hfirst hs ih =>
    rw [substituteFrom_first hne hfirst, ih, List.intercalate_cons_of_ne_nil hs.ne_nil,
      List.append_assoc]

theorem Scan.text_eq {phrase text : List Char} {pieces : List (List Char)}
    (h : Scan phrase text pieces) : text = phrase.intercalate pieces := by
  induction h with
  | last => rw [List.intercalate_singleton]
  | @next before rest pieces _ hs ih =>
    rw [List.intercalate_cons_of_ne_nil hs.ne_nil, ← ih, List.append_assoc]

/-- A phrase that begins and ends with a mark can only meet a text without that mark by holding all
of it. -/
theorem infix_around {phrase before middle after : List Char} {mark : Char}
    (hfirst : phrase.head? = some mark) (hlast : phrase.getLast? = some mark) (hm : mark ∉ middle)
    (h : phrase <:+: before ++ (middle ++ after)) :
    phrase <:+: before ∨ phrase <:+: after ∨ middle <:+: phrase := by
  obtain ⟨front, back, he⟩ := h
  rw [List.append_assoc] at he
  rcases List.append_eq_append_iff.mp he with ⟨cut, hb, hr⟩ | ⟨cut, hf, hr⟩
  · -- It begins before the middle: there it ends as well, or within the middle, or behind it.
    rcases List.append_eq_append_iff.mp hr with ⟨left, hc, -⟩ | ⟨left, hp, hr⟩
    · exact Or.inl ⟨front, left, by rw [hb, hc, List.append_assoc]⟩
    · rcases List.append_eq_append_iff.mp hr with ⟨more, hl, -⟩ | ⟨more, hmiddle, -⟩
      · exact Or.inr (Or.inr ⟨cut, more, by rw [hp, hl, List.append_assoc]⟩)
      · rcases List.eq_nil_or_concat left with rfl | ⟨part, c, rfl⟩
        · exact Or.inl ⟨front, [], by rw [hb, hp, List.append_nil, List.append_nil]⟩
        · rw [hp, List.concat_eq_append, ← List.append_assoc, List.getLast?_concat] at hlast
          cases hlast
          exact absurd (by simp [hmiddle]) hm
  · -- It begins at the middle or later, and cannot begin within.
    rcases List.append_eq_append_iff.mp hr with ⟨left, -, ha⟩ | ⟨left, hmiddle, hr⟩
    · exact Or.inr (Or.inl ⟨left, back, by rw [ha, List.append_assoc]⟩)
    · cases left with
      | nil => exact Or.inr (Or.inl ⟨[], back, by simpa using hr⟩)
      | cons c left =>
        cases phrase with
        | nil => cases hfirst
        | cons d phrase =>
          cases hfirst
          have hc : mark = c := (List.cons.inj hr).1
          exact absurd (by simp [hmiddle, hc]) hm

/-- Where the replacement lacks the mark with which the phrase begins and ends and is no part of the
phrase, the phrase is gone. -/
theorem not_infix_substituteFrom {phrase replacement : List Char} {mark : Char}
    (hfirst : phrase.head? = some mark) (hlast : phrase.getLast? = some mark)
    (hm : mark ∉ replacement) (hpart : ¬ replacement <:+: phrase) (text : List Char) :
    ¬ phrase <:+: substituteFrom phrase replacement 0 text := by
  have hne : phrase ≠ [] := by
    rintro rfl
    cases hfirst
  obtain ⟨pieces, hs⟩ := exists_scan hne text
  rw [hs.substituteFrom hne]
  induction hs with
  | last hn => rwa [List.intercalate_singleton]
  | @next before rest pieces hbefore hs ih =>
    rw [List.intercalate_cons_of_ne_nil hs.ne_nil, List.append_assoc]
    intro h
    rcases infix_around hfirst hlast hm h with h | h | h
    · exact hbefore (h.trans (List.prefix_append _ _).isInfix)
    · exact ih h
    · exact hpart h

/-- The phrase stands somewhere in the text. -/
def Has (phrase text : String) : Prop := phrase.toList <:+: text.toList

/-- The pieces that are left of a text when the phrase is taken out from left to right. -/
def Scanned (phrase text : String) (pieces : List String) : Prop :=
  Scan phrase.toList text.toList (pieces.map String.toList)

theorem toList_ne_nil {text : String} (h : text ≠ "") : text.toList ≠ [] := by simpa using h

theorem exists_scanned {phrase : String} (hne : phrase ≠ "") (text : String) :
    ∃ pieces, Scanned phrase text pieces := by
  obtain ⟨pieces, hs⟩ := exists_scan (toList_ne_nil hne) text.toList
  refine ⟨pieces.map String.ofList, ?_⟩
  rw [Scanned, List.map_map]
  simpa [Function.comp_def] using hs

theorem Scanned.substitute {phrase text : String} {pieces : List String} (hne : phrase ≠ "")
    (h : Scanned phrase text pieces) (replacement : String) :
    substitute phrase replacement text = replacement.intercalate pieces := by
  apply String.toList_injective
  rw [Text.substitute, String.toList_ofList, h.substituteFrom (toList_ne_nil hne),
    String.toList_intercalate]

theorem Scanned.unique {phrase text : String} {pieces others : List String} (hne : phrase ≠ "")
    (h : Scanned phrase text pieces) (h' : Scanned phrase text others) : pieces = others :=
  (List.map_inj_right fun _ _ h => String.toList_injective h).mp
    (Scan.unique (toList_ne_nil hne) h h')

/-- Nothing but occurrences of the phrase is taken out. -/
theorem Scanned.text_eq {phrase text : String} {pieces : List String}
    (h : Scanned phrase text pieces) : text = phrase.intercalate pieces := by
  apply String.toList_injective
  rw [String.toList_intercalate]
  exact Scan.text_eq h

theorem substitute_of_not_has {phrase text : String} (h : ¬ Has phrase text)
    (replacement : String) : substitute phrase replacement text = text := by
  rw [substitute, substituteFrom_of_absent h, String.ofList_toList]

end BlockSketch.Text
