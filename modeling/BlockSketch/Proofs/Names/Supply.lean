import BlockSketch.Proofs.Names.Allotment

namespace BlockSketch

namespace Identifier

/-- All digits come before all letters. -/
theorem isDigit_of_isAlpha {c : Char} (h : c.isAlpha = true) : c.isDigit = false := by
  have hletter : 'A'.val ≤ c.val := by
    rcases Bool.or_eq_true_iff.mp h with hupper | hlower
    · exact (of_decide_eq_true hupper).1
    · have hle : 'a'.val ≤ c.val := of_decide_eq_true (Bool.and_eq_true_iff.mp hlower).1
      exact UInt32.le_trans (by decide) hle
  refine Bool.eq_false_iff.mpr fun hdigit => ?_
  have hle : c.val ≤ '9'.val := of_decide_eq_true (Bool.and_eq_true_iff.mp hdigit).2
  exact absurd (UInt32.le_trans hletter hle) (by decide)

/-- A letter or an underscore, and then letters, digits and underscores. -/
theorem isValid_iff {name : String} :
    IsValid name ↔ ∃ c rest, name.toList = c :: rest ∧ (c.isAlpha = true ∨ c = '_') ∧
      ∀ d ∈ rest, d.isAlphanum = true ∨ d = '_' := by
  have hchar (c : Char) : isNameChar c = true ↔ c.isAlphanum = true ∨ c = '_' := by
    simp [isNameChar]
  unfold IsValid
  constructor
  · rintro ⟨hall, c, hc, hd⟩
    obtain ⟨rest, ht⟩ := List.head?_eq_some_iff.mp hc
    rw [ht, List.all_cons, Bool.and_eq_true, List.all_eq_true, hchar] at hall
    refine ⟨c, rest, ht, ?_, fun d hm => (hchar d).mp (hall.2 d hm)⟩
    simpa [Char.isAlphanum, hd] using hall.1
  · rintro ⟨c, rest, ht, hc, hrest⟩
    rw [ht, List.all_cons, List.all_eq_true.mpr fun d hm => (hchar d).mpr (hrest d hm),
      Bool.and_true, hchar]
    refine ⟨hc.imp_left fun ha => by simp [Char.isAlphanum, ha], c, rfl, ?_⟩
    rcases hc with ha | rfl
    · exact isDigit_of_isAlpha ha
    · rfl

theorem sanitize_of_isValid {text : String} (h : IsValid text) : sanitize text = text := by
  obtain ⟨hall, c, hc, hd⟩ := h
  obtain ⟨rest, ht⟩ := List.head?_eq_some_iff.mp hc
  have hkept : text.toList.map replaceForeign = text.toList := by
    conv => rhs; rw [← List.map_id' text.toList]
    apply List.map_congr_left
    intro d hm
    exact if_pos (List.all_eq_true.mp hall d hm)
  rw [sanitize, hkept, ht, guardStart, if_neg (by simp [hd]), ← ht, String.ofList_toList]

/-- The name with a number behind it. -/
def numbered (name : String) (n : Nat) : String := name ++ "_" ++ toString n

/-- A search that has come to the number `n` is over if the name with this number is free, and else
goes on to the next number. -/
inductive Finds (name : String) (taken : List String) : Nat → String → Prop
  | free {n : Nat} : numbered name n ∉ taken → Finds name taken n (numbered name n)
  | next {n : Nat} {found : String} :
    numbered name n ∈ taken → Finds name taken (n + 1) found → Finds name taken n found

/-- A name is searched for, and is taken as soon as it is found. -/
inductive Allots (wanted : String) (taken : List String) : String → List String → Prop
  | bare : sanitize wanted ∉ taken →
    Allots wanted taken (sanitize wanted) (Draft.addName (sanitize wanted) taken)
  | numbered {name : String} : sanitize wanted ∈ taken → Finds (sanitize wanted) taken 2 name →
    Allots wanted taken name (Draft.addName name taken)

/-- One search after the other, each with the names that are taken by then. -/
inductive AllotsAll : List String → List String → List String → List String → Prop
  | nil {taken : List String} : AllotsAll [] taken [] taken
  | cons {wanted name : String} {wishes taken mid names after : List String} :
    Allots wanted taken name mid → AllotsAll wishes mid names after →
      AllotsAll (wanted :: wishes) taken (name :: names) after

/-- A search that ends has passed over taken names only. -/
theorem Finds.exists_number (h : Finds name taken n found) :
    ∃ m, n ≤ m ∧ found = numbered name m ∧ found ∉ taken ∧
      ∀ k, n ≤ k → k < m → numbered name k ∈ taken := by
  induction h with
  | @free n hfree => exact ⟨n, Nat.le_refl n, rfl, hfree, fun k hk hlt => by omega⟩
  | @next n found htaken _ ih =>
    obtain ⟨m, hle, he, hfree, hpassed⟩ := ih
    refine ⟨m, by omega, he, hfree, ?_⟩
    intro k hk hlt
    rcases Nat.eq_or_lt_of_le hk with rfl | hlater
    · exact htaken
    · exact hpassed k hlater hlt

/-- Where a free name lies ahead the search ends, however far ahead it is. -/
theorem Finds.of_free {n m : Nat} (hle : n ≤ m) (hfree : numbered name m ∉ taken)
    (hpassed : ∀ k, n ≤ k → k < m → numbered name k ∈ taken) :
    Finds name taken n (numbered name m) := by
  obtain ⟨ahead, rfl⟩ := Nat.exists_eq_add_of_le hle
  -- The free name comes one nearer with every number that is tried.
  induction ahead generalizing n with
  | zero => exact .free hfree
  | succ ahead ih =>
    have hm : n + 1 + ahead = n + (ahead + 1) := by omega
    refine .next (hpassed n (Nat.le_refl n) (by omega)) ?_
    rw [← hm] at hfree hpassed ⊢
    exact ih (by omega) hfree fun k hk => hpassed k (by omega)

/-- The first free variant is the sanitized name or has the first number that is free. The names
that are taken bound how far the number can go. -/
theorem LeastFree.cases (h : LeastFree wanted taken name) :
    (sanitize wanted ∉ taken ∧ name = sanitize wanted) ∨
    (sanitize wanted ∈ taken ∧ ∃ n, 2 ≤ n ∧ n ≤ taken.length + 1 ∧
      name = numbered (sanitize wanted) n ∧
      ∀ k, 2 ≤ k → k < n → numbered (sanitize wanted) k ∈ taken) := by
  obtain ⟨index, rfl, hfree, hleast⟩ := h
  cases index with
  | zero => exact Or.inl ⟨hfree, rfl⟩
  | succ index =>
    -- Some variant with a small number is free, and the first free one is not behind it.
    obtain ⟨other, hbound, hother⟩ := exists_free (sanitize wanted) taken
    have hle : index + 1 ≤ other := Nat.le_of_not_lt fun hlt => hother (hleast other hlt)
    refine Or.inr ⟨hleast 0 (by omega), index + 2, by omega, by omega, rfl, ?_⟩
    intro k hk hlt
    obtain ⟨earlier, rfl⟩ := Nat.exists_eq_add_of_le' hk
    exact hleast (earlier + 1) (by omega)

theorem addName_fresh (wanted : String) (taken : List String) :
    Draft.addName (fresh wanted taken) taken = taken ++ [fresh wanted taken] := by
  have hfree := (fresh_leastFree wanted taken).not_mem
  simp [Draft.addName, hfree]

theorem Allots.leastFree (h : Allots wanted taken name after) : LeastFree wanted taken name := by
  cases h with
  | bare hfree => exact ⟨0, rfl, hfree, fun earlier hlt => by omega⟩
  | numbered htaken hfinds =>
    obtain ⟨n, hle, rfl, hfree, hpassed⟩ := hfinds.exists_number
    obtain ⟨index, rfl⟩ := Nat.exists_eq_add_of_le' hle
    refine ⟨index + 1, rfl, hfree, ?_⟩
    intro earlier hlt
    cases earlier with
    | zero => exact htaken
    | succ earlier => exact hpassed (earlier + 2) (by omega) (by omega)

theorem Allots.after_eq (h : Allots wanted taken name after) :
    after = Draft.addName name taken := by
  cases h with
  | bare | numbered => rfl

theorem allots_fresh (wanted : String) (taken : List String) :
    Allots wanted taken (fresh wanted taken) (Draft.addName (fresh wanted taken) taken) := by
  rcases (fresh_leastFree wanted taken).cases with ⟨hfree, he⟩ | ⟨htaken, n, hn, -, he, hpassed⟩
  · rw [he]
    exact .bare hfree
  · refine .numbered htaken ?_
    have hfree := (fresh_leastFree wanted taken).not_mem
    rw [he] at hfree ⊢
    exact .of_free hn hfree hpassed

/-- Each search ends, and in one way only. -/
theorem allots_iff :
    Allots wanted taken name after ↔
      name = fresh wanted taken ∧ after = taken ++ [fresh wanted taken] := by
  rw [← addName_fresh]
  constructor
  · intro h
    have hname := h.leastFree.unique (fresh_leastFree wanted taken)
    exact ⟨hname, hname ▸ h.after_eq⟩
  · rintro ⟨rfl, rfl⟩
    exact allots_fresh wanted taken

theorem fresh_congr {others : List String} (hm : ∀ name, name ∈ taken ↔ name ∈ others)
    (wanted : String) : fresh wanted taken = fresh wanted others :=
  ((fresh_leastFree wanted taken).congr hm).unique (fresh_leastFree wanted others)

theorem freshAll_congr {others : List String} (hm : ∀ name, name ∈ taken ↔ name ∈ others)
    (wishes : List String) : freshAll wishes taken = freshAll wishes others := by
  induction wishes generalizing taken others with
  | nil => rfl
  | cons wanted rest ih =>
    simp only [freshAll, fresh_congr hm wanted]
    rw [ih]
    intro name
    rw [List.mem_cons, List.mem_cons, hm]

theorem freshAll_cons (wanted : String) (wishes taken : List String) :
    freshAll (wanted :: wishes) taken =
      fresh wanted taken :: freshAll wishes (taken ++ [fresh wanted taken]) := by
  have hsame : ∀ name, name ∈ fresh wanted taken :: taken ↔
      name ∈ taken ++ [fresh wanted taken] := by
    intro name
    rw [List.mem_cons, List.mem_append, List.mem_singleton, or_comm]
  rw [freshAll, freshAll_congr hsame]

theorem allotsAll_iff :
    AllotsAll wishes taken names after ↔
      names = freshAll wishes taken ∧ after = taken ++ freshAll wishes taken := by
  constructor
  · intro h
    induction h with
    | nil => exact ⟨rfl, (List.append_nil _).symm⟩
    | cons hfirst _ ih =>
      obtain ⟨rfl, rfl⟩ := allots_iff.mp hfirst
      obtain ⟨rfl, rfl⟩ := ih
      rw [freshAll_cons, List.append_assoc]
      exact ⟨rfl, rfl⟩
  · rintro ⟨rfl, rfl⟩
    induction wishes generalizing taken with
    | nil =>
      rw [freshAll, List.append_nil]
      exact .nil
    | cons wanted rest ih =>
      have hrest : AllotsAll rest (taken ++ [fresh wanted taken]) _ _ := ih
      rw [List.append_assoc, List.singleton_append] at hrest
      rw [freshAll_cons]
      exact .cons (allots_iff.mpr ⟨rfl, rfl⟩) hrest

theorem not_mem_of_mem_freshAll {name : String} (h : name ∈ freshAll wishes taken) :
    name ∉ taken := by
  induction wishes generalizing taken with
  | nil => cases h
  | cons wanted rest ih =>
    rcases List.mem_cons.mp h with rfl | hrest
    · exact (fresh_leastFree wanted taken).not_mem
    · exact fun hm => ih hrest (List.mem_cons_of_mem _ hm)

theorem nodup_freshAll (wishes taken : List String) : (freshAll wishes taken).Nodup := by
  induction wishes generalizing taken with
  | nil => exact List.nodup_nil
  | cons wanted rest ih =>
    refine List.nodup_cons.mpr ⟨?_, ih _⟩
    exact fun hm => not_mem_of_mem_freshAll hm List.mem_cons_self

end Identifier

/-- A draft searches for the name of a new helper, and takes it. -/
theorem Draft.addHelper_allots {draft : Draft} {wanted : String}
    (h : draft.helpers.get? wanted = none) (code : String) :
    Identifier.Allots wanted draft.taken (draft.addHelper wanted code).1
      (draft.addHelper wanted code).2.taken := by
  simp only [addHelper, h]
  exact Identifier.allots_fresh wanted draft.taken

namespace Identifier

/-- Each search ends in one way: with the sanitized wish if that is free, and else with the first
number from 2 on that makes it free. A list of searches finds as many different names. -/
theorem wishes_get_new_names (taken : List String) :
    (∀ wanted, ∃ name,
      (∀ found after, Allots wanted taken found after ↔ found = name ∧ after = taken ++ [name]) ∧
      name = fresh wanted taken ∧ IsValid name ∧ name ∉ taken ∧
      (sanitize wanted ∉ taken → name = sanitize wanted) ∧
      (sanitize wanted ∈ taken → ∃ n, 2 ≤ n ∧ n ≤ taken.length + 1 ∧
        name = sanitize wanted ++ "_" ++ toString n ∧
        ∀ k, 2 ≤ k → k < n → sanitize wanted ++ "_" ++ toString k ∈ taken)) ∧
    (∀ (draft : Draft) (wanted code : String), draft.helpers.get? wanted = none →
      Allots wanted draft.taken (draft.addHelper wanted code).1
        (draft.addHelper wanted code).2.taken) ∧
    (∀ name, IsValid name ↔ ∃ c rest, name.toList = c :: rest ∧ (c.isAlpha = true ∨ c = '_') ∧
      ∀ d ∈ rest, d.isAlphanum = true ∨ d = '_') ∧
    (∀ text, IsValid (sanitize text) ∧ (IsValid text → sanitize text = text) ∧
      sanitize (sanitize text) = sanitize text) ∧
    ∀ wishes,
      (∀ names after, AllotsAll wishes taken names after ↔
        names = freshAll wishes taken ∧ after = taken ++ freshAll wishes taken) ∧
      (freshAll wishes taken).length = wishes.length ∧ (freshAll wishes taken).Nodup ∧
      ∀ others, (∀ name, name ∈ taken ↔ name ∈ others) →
        freshAll wishes taken = freshAll wishes others := by
  refine ⟨?_, fun draft wanted code h => Draft.addHelper_allots h code, fun _ => isValid_iff,
    ?_, ?_⟩
  · intro wanted
    have hleast := fresh_leastFree wanted taken
    refine ⟨fresh wanted taken, fun _ _ => allots_iff, rfl, hleast.isValid, hleast.not_mem,
      ?_, ?_⟩
    · intro hfree
      rcases hleast.cases with ⟨-, he⟩ | ⟨htaken, -⟩
      · exact he
      · exact absurd htaken hfree
    · intro htaken
      rcases hleast.cases with ⟨hfree, -⟩ | ⟨-, hnumbered⟩
      · exact absurd htaken hfree
      · exact hnumbered
  · intro text
    exact ⟨isValid_sanitize text, sanitize_of_isValid, sanitize_of_isValid (isValid_sanitize text)⟩
  · intro wishes
    exact ⟨fun _ _ => allotsAll_iff, length_freshAll wishes taken, nodup_freshAll wishes taken,
      fun _ hm => freshAll_congr hm wishes⟩

/-- Numbered names may be taken too. -/
example : freshAll ["loop", "loop", "4 pins", "", "_"] ["loop", "loop_3"] =
    ["loop_2", "loop_4", "_4_pins", "_", "__2"] := by
  decide +kernel

end Identifier

end BlockSketch
