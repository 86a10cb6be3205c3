import BlockSketch.Proofs.Draft.Tidy
import BlockSketch.Proofs.Helpers.Synthesis
import BlockSketch.Proofs.Text.Scan

namespace BlockSketch

open Text (Has Scanned)

namespace Draft

theorem placeholder_head : namePlaceholder.toList.head? = some '%' := rfl

theorem placeholder_last : namePlaceholder.toList.getLast? = some '%' := rfl

theorem not_has_placeholder {text : String} (h : '%' ∉ text.toList) :
    ¬ Has namePlaceholder text :=
  fun hi => h (hi.subset (List.mem_of_mem_head? placeholder_head))

/-- A part of the placeholder without a percent sign is a part of the words in it. -/
theorem has_words {name : String} (hm : '%' ∉ name.toList) (h : Has name namePlaceholder) :
    Has name "FUNCTION_NAME" := by
  have hfront {text : List Char} (hi : name.toList <:+: '%' :: text) : name.toList <:+: text := by
    rcases List.infix_cons_iff.mp hi with hp | hi
    · cases hn : name.toList with
      | nil => exact List.nil_infix
      | cons c rest =>
        rw [hn] at hp hm
        obtain rfl := (List.cons_prefix_cons.mp hp).1
        exact absurd List.mem_cons_self hm
    · exact hi
  have hback {text : List Char} (hi : name.toList <:+: text ++ ['%']) : name.toList <:+: text := by
    rcases List.infix_concat_iff.mp hi with hs | hi
    · rcases List.eq_nil_or_concat name.toList with hn | ⟨rest, c, hn⟩
      · exact hn ▸ List.nil_infix
      · rw [hn, List.concat_eq_append] at hs hm
        obtain ⟨front, hf⟩ := hs
        rw [← List.append_assoc] at hf
        have hc := List.append_inj_right' hf rfl
        simp only [List.cons.injEq, and_true] at hc
        simp [hc] at hm
    · exact hi
  have hwords : namePlaceholder.toList =
      '%' :: '%' :: ("FUNCTION_NAME".toList ++ ['%'] ++ ['%']) := by decide
  rw [Has, hwords] at h
  exact hback (hback (hfront (hfront h)))

/-- What is left of the placeholder in a helper's code can only be around its name. -/
theorem has_words_of_substitute {name code : String} (hv : Identifier.IsValid name)
    (h : Has namePlaceholder (Text.substitute namePlaceholder name code)) :
    Has name "FUNCTION_NAME" := by
  have hm : '%' ∉ name.toList := fun hm => absurd (List.all_eq_true.mp hv.1 _ hm) (by decide)
  by_cases hpart : Has name namePlaceholder
  · exact has_words hm hpart
  · rw [Has, Text.substitute, String.toList_ofList] at h
    exact absurd h
      (Text.not_infix_substituteFrom placeholder_head placeholder_last hm hpart code.toList)

/-- What stands between brackets and commas has the placeholder if the whole line has. -/
theorem has_placeholder_between {before after : String} {mark : Char}
    (hm : mark ∉ namePlaceholder.toList)
    (h : Has namePlaceholder (before ++ String.singleton mark ++ after)) :
    Has namePlaceholder before ∨ Has namePlaceholder after := by
  have htext : (before ++ String.singleton mark ++ after).toList =
      before.toList ++ ([mark] ++ after.toList) := by simp
  have hpercent : '%' ∉ [mark] := by
    rw [List.mem_singleton]
    rintro rfl
    exact hm (by decide)
  rw [Has, htext] at h
  rcases Text.infix_around placeholder_head placeholder_last hpercent h with h | h | h
  · exact Or.inl h
  · exact Or.inr h
  · exact absurd (h.subset List.mem_cons_self) hm

end Draft

namespace Bus

/-- No helper for a pin has a name from the words in the placeholder: they have no small letters. -/
theorem not_has_helperName (pin : String) (taken : List String) :
    ¬ Has (Identifier.fresh (helperWish pin) taken) "FUNCTION_NAME" := by
  have hwish : 's' ∈ (Identifier.sanitize (helperWish pin)).toList := by
    simp [Identifier.sanitize, helperWish, Identifier.guardStart, Identifier.replaceForeign,
      Identifier.isNameChar]
  obtain ⟨n, hn, -⟩ := Identifier.fresh_leastFree (helperWish pin) taken
  have hname : 's' ∈ (Identifier.fresh (helperWish pin) taken).toList := by
    rw [hn]
    cases n with
    | zero => exact hwish
    | succ n =>
      simp only [Identifier.variant, String.toList_append, List.mem_append]
      exact Or.inl (Or.inl hwish)
  exact fun h => absurd (h.subset hname) (by decide)

/-- A call has the placeholder only if its argument does, where nothing else has a percent sign. -/
theorem not_has_call {before argument after : String} {mark : Char}
    (hm : mark ∉ Draft.namePlaceholder.toList) (hb : '%' ∉ before.toList)
    (ha : ¬ Has Draft.namePlaceholder argument) (hr : '%' ∉ after.toList) :
    ¬ Has Draft.namePlaceholder
      (before ++ String.singleton '(' ++ (argument ++ String.singleton mark ++ after)) := by
  have hopen : '(' ∉ Draft.namePlaceholder.toList := by decide
  intro h
  rcases Draft.has_placeholder_between hopen h with h | h
  · exact Draft.not_has_placeholder hb h
  · exact (Draft.has_placeholder_between hm h).elim ha (Draft.not_has_placeholder hr)

theorem not_has_switchLine {pin level : String} (hp : ¬ Has Draft.namePlaceholder pin)
    (hl : '%' ∉ level.toList) :
    ¬ Has Draft.namePlaceholder ("  digitalWrite(" ++ pin ++ (", " ++ level ++ ");")) := by
  have hcall : ¬ Has Draft.namePlaceholder ("  digitalWrite" ++ String.singleton '(' ++
      (pin ++ String.singleton ',' ++ (" " ++ level ++ ");"))) :=
    not_has_call (by decide) (by decide) hp (by simp [hl])
  have he : "  digitalWrite" ++ String.singleton '(' ++ (pin ++ String.singleton ',' ++
      (" " ++ level ++ ");")) = "  digitalWrite(" ++ pin ++ (", " ++ level ++ ");") := by
    apply String.toList_injective
    simp
  exact he ▸ hcall

theorem not_has_transferLine {data : String} (hd : ¬ Has Draft.namePlaceholder data) :
    ¬ Has Draft.namePlaceholder ("  spiReturn = SPI.transfer(" ++ data ++ ");") := by
  have hcall : ¬ Has Draft.namePlaceholder ("  spiReturn = SPI.transfer" ++ String.singleton '(' ++
      (data ++ String.singleton ')' ++ ";")) :=
    not_has_call (by decide) (by decide) hd (by decide)
  have he : "  spiReturn = SPI.transfer" ++ String.singleton '(' ++ (data ++
      String.singleton ')' ++ ";") = "  spiReturn = SPI.transfer(" ++ data ++ ");" := by
    apply String.toList_injective
    simp
  exact he ▸ hcall

theorem substitute_helperCode {pin data : String} (hp : ¬ Has Draft.namePlaceholder pin)
    (hd : ¬ Has Draft.namePlaceholder data) (name : String) :
    Text.substitute Draft.namePlaceholder name (helperCode pin data) =
      "\n".intercalate (namedLines name pin data) := by
  have hkept {line : String} (hl : ¬ Has Draft.namePlaceholder line) :
      Text.substitute Draft.namePlaceholder name line = line := Text.substitute_of_not_has hl name
  have hplain (line : String) (hl : '%' ∉ line.toList) :
      Text.substitute Draft.namePlaceholder name line = line :=
    hkept (Draft.not_has_placeholder hl)
  have hswitch (level : String) (hl : '%' ∉ level.toList) :
      Text.substitute Draft.namePlaceholder name
          ("  digitalWrite(" ++ pin ++ (", " ++ level ++ ");")) =
        "  digitalWrite(" ++ pin ++ (", " ++ level ++ ");") :=
    hkept (not_has_switchLine hp hl)
  have hhigh : Text.substitute Draft.namePlaceholder name ("  digitalWrite(" ++ pin ++ ", HIGH);") =
      "  digitalWrite(" ++ pin ++ ", HIGH);" := hswitch "HIGH" (by decide)
  have hlow : Text.substitute Draft.namePlaceholder name ("  digitalWrite(" ++ pin ++ ", LOW);") =
      "  digitalWrite(" ++ pin ++ ", LOW);" := hswitch "LOW" (by decide)
  have hheader : Text.substitute Draft.namePlaceholder name
      ("int " ++ Draft.namePlaceholder ++ "() \x7b") = "int " ++ name ++ "() \x7b" :=
    Helper.substitute_header name
  rw [helperCode, helperLines_answer, Text.substitute_intercalate (by decide) (by decide)]
  simp only [namedLines, List.map_cons, List.map_nil, hheader, hhigh, hlow,
    hkept (not_has_transferLine hd)]
  rw [hplain "  int spiReturn = 0;" (by decide), hplain "  return spiReturn;" (by decide),
    hplain "\x7d" (by decide)]

/-- Whatever the data is made from, an answer from a pin is left to the helper for the pin. -/
theorem answerCode_of_data {block : Block} {plugs : Plugs} {pin data : String} {draft mid : Draft}
    (hp : selectPin? block = some pin) (hd : transferData block plugs draft = .ok data mid) :
    answerCode .made block plugs draft =
      let added := (prepare block.location (some pin) mid).addHelper (helperWish pin)
        (helperCode pin data)
      .ok (.value (added.1 ++ "()") .postfixUnary) added.2 := by
  have hmade : transfer .made block plugs draft =
      .ok (transferSequence (some pin) data) (prepare block.location (some pin) mid) := by
    rw [← hp]
    exact Drafting.bind_ok hd
  refine (Drafting.bind_ok hmade).trans ?_
  simp only [answerOf, hp, answerFromHelper, Block.exchange_transfer, ↓reduceIte]
  rfl

/-- The name stands wherever it was left open, and all else is kept. No place is left, unless the name
is part of the words in the placeholder, and no helper for a pin has such a name. -/
theorem naming_fills_every_place (draft : Draft) :
    (∀ wanted code, draft.helpers.get? wanted = none → ∃ name pieces,
      Scanned "%%FUNCTION_NAME%%" code pieces ∧
      (∀ others, Scanned "%%FUNCTION_NAME%%" code others → others = pieces) ∧
      code = "%%FUNCTION_NAME%%".intercalate pieces ∧
      draft.addHelper wanted code =
        (name, { draft with
          helpers := draft.helpers ++ [(wanted, ⟨name, name.intercalate pieces⟩)]
          taken := Draft.addName name draft.taken }) ∧
      (Has "%%FUNCTION_NAME%%" (name.intercalate pieces) → Has name "FUNCTION_NAME")) ∧
    ∀ block plugs pin data mid, block.field? "SPI_SS" = some pin → pin ≠ "none" →
      transferData block plugs draft = .ok data mid →
      ∃ name after, (Generator.transferAnswer .made).run block plugs draft =
          .ok (.value (name ++ "()") .postfixUnary) after ∧
        (mid.helpers.get? ("spiReturnSlave" ++ pin) ≠ none → after.helpers = mid.helpers) ∧
        (mid.helpers.get? ("spiReturnSlave" ++ pin) = none → ∃ body,
          after.helpers = mid.helpers ++ [("spiReturnSlave" ++ pin, ⟨name, body⟩)] ∧
          ¬ Has "%%FUNCTION_NAME%%" body ∧
          (¬ Has "%%FUNCTION_NAME%%" pin → ¬ Has "%%FUNCTION_NAME%%" data →
            body = "\n".intercalate
              ["int " ++ name ++ "() \x7b",
                "  int spiReturn = 0;",
                "  digitalWrite(" ++ pin ++ ", HIGH);",
                "  spiReturn = SPI.transfer(" ++ data ++ ");",
                "  digitalWrite(" ++ pin ++ ", LOW);",
                "  return spiReturn;",
                "\x7d"])) := by
  refine ⟨?_, ?_⟩
  · intro wanted code hg
    have hne : Draft.namePlaceholder ≠ "" := by decide
    obtain ⟨pieces, hs⟩ := Text.exists_scanned hne code
    have hstored := hs.substitute hne (Identifier.fresh wanted draft.taken)
    refine ⟨_, pieces, hs, fun others ho => ho.unique hne hs, hs.text_eq,
      hstored ▸ Draft.addHelper_eq hg code, ?_⟩
    rw [← hstored]
    exact Draft.has_words_of_substitute (Identifier.fresh_leastFree wanted draft.taken).isValid
  · intro block plugs pin data mid hp hn hd
    have hrun := answerCode_of_data (selectPin?_eq_some.mpr ⟨hp, hn⟩) hd
    have hkept := mid.prepare_helpers block.location (some pin)
    refine ⟨_, _, hrun, ?_, ?_⟩
    · intro hg
      obtain ⟨helper, hg⟩ := Option.ne_none_iff_exists'.mp hg
      rw [Draft.addHelper_of_known (hkept ▸ hg), hkept]
    · intro hg
      rw [Draft.addHelper_eq (hkept ▸ hg), hkept]
      refine ⟨_, rfl, ?_, ?_⟩
      · intro h
        have hv := (Identifier.fresh_leastFree (helperWish pin)
          (prepare block.location (some pin) mid).taken).isValid
        exact not_has_helperName _ _ (Draft.has_words_of_substitute hv h)
      · intro hpin hdata
        exact substitute_helperCode hpin hdata _

theorem asked_helper_named :
    ∃ name after, (Generator.transferAnswer .made).run asked (fun _ => none) (.start .uno) =
        .ok (.value (name ++ "()") .postfixUnary) after ∧
      after.helpers = [("spiReturnSlave8", ⟨name, "\n".intercalate
        ["int " ++ name ++ "() \x7b",
          "  int spiReturn = 0;",
          "  digitalWrite(8, HIGH);",
          "  spiReturn = SPI.transfer(0);",
          "  digitalWrite(8, LOW);",
          "  return spiReturn;",
          "\x7d"]⟩)] := by
  have hpin : ("8" : String) ≠ "none" := by decide
  obtain ⟨name, after, hrun, -, hnew⟩ := (naming_fills_every_place (.start .uno)).2 asked
    (fun _ => none) "8" "0" (.start .uno) rfl hpin rfl
  obtain ⟨body, hhelpers, -, hbody⟩ := hnew rfl
  have hplain {text : String} (h : '%' ∉ text.toList) : ¬ Has "%%FUNCTION_NAME%%" text :=
    Draft.not_has_placeholder h
  refine ⟨name, after, hrun, ?_⟩
  rw [hhelpers, hbody (hplain (by decide)) (hplain (by decide))]
  rfl

-- The name fills the place that there is, and makes another one.
example : Text.substitute "%%FUNCTION_NAME%%" "FUNCTION_NAME" "%%%%FUNCTION_NAME%%%%" =
    "%%FUNCTION_NAME%%" := by decide

end Bus

end BlockSketch
