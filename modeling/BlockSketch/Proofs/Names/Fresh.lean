import BlockSketch.Identifier

namespace BlockSketch.Identifier

/-- The first variant of the wanted name that is not taken. -/
def LeastFree (wanted : String) (taken : List String) (name : String) : Prop :=
  ∃ n, name = variant (sanitize wanted) n ∧ name ∉ taken ∧
    ∀ earlier < n, variant (sanitize wanted) earlier ∈ taken

theorem IsValid.ne_empty (h : IsValid name) : name ≠ "" := by
  rintro rfl
  obtain ⟨_, c, hc, _⟩ := h
  simp at hc

theorem isNameChar_replaceForeign (c : Char) : isNameChar (replaceForeign c) = true := by
  unfold replaceForeign
  split
  · assumption
  · rfl

theorem all_guardStart {text : List Char} (h : text.all isNameChar = true) :
    (guardStart text).all isNameChar = true := by
  unfold guardStart
  split
  · rfl
  · split
    · rw [List.all_cons, h]
      rfl
    · exact h

theorem head_guardStart (text : List Char) :
    ∃ c, (guardStart text).head? = some c ∧ c.isDigit = false := by
  unfold guardStart
  split
  · exact ⟨'_', rfl, rfl⟩
  · split
    · exact ⟨'_', rfl, rfl⟩
    · rename_i hd
      exact ⟨_, rfl, by simpa using hd⟩

theorem isValid_sanitize (text : String) : IsValid (sanitize text) := by
  unfold IsValid sanitize
  rw [String.toList_ofList]
  refine ⟨all_guardStart ?_, head_guardStart _⟩
  simp [isNameChar_replaceForeign]

theorem isNameChar_of_isDigit {c : Char} (h : c.isDigit = true) : isNameChar c = true := by
  simp [isNameChar, Char.isAlphanum, h]

theorem isValid_variant (h : IsValid name) (n : Nat) : IsValid (variant name n) := by
  cases n with
  | zero => exact h
  | succ n =>
    obtain ⟨hall, c, hc, hd⟩ := h
    have hs : (Nat.toDigits 10 (n + 2)).all isNameChar = true :=
      List.all_eq_true.mpr fun _ hm =>
        isNameChar_of_isDigit (Nat.isDigit_of_mem_toDigits (by omega) (by omega) hm)
    refine ⟨?_, c, ?_, hd⟩
    · simp only [variant, String.toList_append, Nat.toString_eq_repr, Nat.toList_repr,
        List.all_append, hall, hs]
      rfl
    · simp only [variant, String.toList_append, List.append_assoc]
      rw [List.head?_append, hc]
      rfl

theorem variant_injective (name : String) {i j : Nat} (h : variant name i = variant name j) :
    i = j := by
  have hl := congrArg String.toList h
  cases i with
  | zero =>
    cases j with
    | zero => rfl
    | succ j => simp [variant] at hl
  | succ i =>
    cases j with
    | zero => simp [variant] at hl
    | succ j =>
      simp only [variant, String.toList_append, Nat.toString_eq_repr, Nat.toList_repr,
        List.append_assoc] at hl
      have hd := List.append_cancel_left (List.append_cancel_left hl)
      have hn := congrArg (fun digits => Nat.ofDigitChars 10 digits 0) hd
      simp only [Nat.ofDigitChars_ten_toDigits] at hn
      omega

/-- More variants than there are taken names cannot all be taken. -/
theorem exists_free (name : String) (taken : List String) :
    ∃ n < taken.length + 1, variant name n ∉ taken := by
  apply Classical.byContradiction
  intro hn
  have hall : ∀ n < taken.length + 1, variant name n ∈ taken := fun n hlt =>
    Classical.byContradiction fun hm => hn ⟨n, hlt, hm⟩
  have hnodup : ((List.range (taken.length + 1)).map (variant name)).Nodup :=
    List.pairwise_map.mpr
      (List.nodup_range.imp fun hne he => hne (variant_injective name he))
  have hsub : (List.range (taken.length + 1)).map (variant name) ⊆ taken := by
    intro candidate hm
    obtain ⟨n, hr, rfl⟩ := List.mem_map.mp hm
    exact hall n (List.mem_range.mp hr)
  have hlen := hnodup.length_le_of_subset hsub
  simp only [List.length_map, List.length_range] at hlen
  omega

theorem fresh_leastFree (wanted : String) (taken : List String) :
    LeastFree wanted taken (fresh wanted taken) := by
  have hf : fresh wanted taken = (((List.range (taken.length + 1)).find?
      fun n => !taken.contains (variant (sanitize wanted) n)).map
        (variant (sanitize wanted))).getD (sanitize wanted) := by
    simp only [fresh, List.find?_map]
    rfl
  cases hs : (List.range (taken.length + 1)).find?
      fun n => !taken.contains (variant (sanitize wanted) n) with
  | none =>
    obtain ⟨n, hlt, hm⟩ := exists_free (sanitize wanted) taken
    have := List.find?_range_eq_none.mp hs n hlt
    simp [hm] at this
  | some n =>
    obtain ⟨hfree, _, hleast⟩ := List.find?_range_eq_some.mp hs
    rw [hf, hs]
    refine ⟨n, rfl, by simpa using hfree, ?_⟩
    intro earlier hlt
    simpa using hleast earlier hlt

theorem LeastFree.unique (h : LeastFree wanted taken name) (h' : LeastFree wanted taken other) :
    name = other := by
  obtain ⟨n, rfl, hfree, hleast⟩ := h
  obtain ⟨m, rfl, hfree', hleast'⟩ := h'
  rcases Nat.lt_trichotomy n m with hlt | rfl | hlt
  · exact absurd (hleast' n hlt) hfree
  · rfl
  · exact absurd (hleast m hlt) hfree'

theorem LeastFree.isValid (h : LeastFree wanted taken name) : IsValid name := by
  obtain ⟨n, rfl, _, _⟩ := h
  exact isValid_variant (isValid_sanitize wanted) n

theorem LeastFree.not_mem (h : LeastFree wanted taken name) : name ∉ taken := by
  obtain ⟨_, _, hfree, _⟩ := h
  exact hfree

/-- Only which names are taken matters, not in which order they were. -/
theorem LeastFree.congr (hm : ∀ candidate, candidate ∈ taken ↔ candidate ∈ others)
    (h : LeastFree wanted taken name) : LeastFree wanted others name := by
  obtain ⟨n, he, hfree, hleast⟩ := h
  exact ⟨n, he, fun hn => hfree ((hm name).mpr hn), fun earlier hlt =>
    (hm _).mp (hleast earlier hlt)⟩

end BlockSketch.Identifier
