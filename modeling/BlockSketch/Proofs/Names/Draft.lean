import BlockSketch.Proofs.Draft.Steps
import BlockSketch.Proofs.Names.Fresh

namespace BlockSketch.Draft

/-- The names of the helpers, in the order in which they were needed. -/
def helperNames (draft : Draft) : List String := draft.helpers.values.map Helper.name

structure Named (draft : Draft) : Prop where
  taken_iff : ∀ name, name ∈ draft.taken ↔
    name ∈ reservedNames ∨ name ∈ draft.variableNames ∨ name ∈ draft.helperNames
  valid : ∀ name ∈ draft.helperNames, Identifier.IsValid name
  distinct : draft.helperNames.Nodup

/-- No helper has one of the names, and none will have it. -/
structure Avoids (draft : Draft) (names : List String) : Prop where
  taken : ∀ name ∈ names, name ∈ draft.taken
  unused : ∀ name ∈ draft.helperNames, name ∉ names

theorem mem_addName {name other : String} {names : List String} :
    name ∈ addName other names ↔ name ∈ names ∨ name = other := by
  unfold addName
  split
  · rename_i h
    simp only [List.contains_eq_mem, decide_eq_true_eq] at h
    constructor
    · exact Or.inl
    · rintro (hm | rfl)
      · exact hm
      · exact h
  · simp

theorem addName_of_mem {name : String} {names : List String} (h : name ∈ names) :
    addName name names = names := by
  simp [addName, h]

/-- All that a registration can do to names: it adds a variable, or the first free variant of
what was wanted as the name of a last helper, or nothing. -/
theorem Step.names {draft after : Draft} (h : Step draft after) :
    (∃ name, after.variableNames = addName name draft.variableNames ∧
      after.taken = addName name draft.taken ∧ after.helpers = draft.helpers) ∨
    (∃ wanted helper, Identifier.LeastFree wanted draft.taken helper.name ∧
      draft.helpers.get? wanted = none ∧ after.helpers = draft.helpers ++ [(wanted, helper)] ∧
      after.taken = addName helper.name draft.taken ∧
      after.variableNames = draft.variableNames) ∨
    (after.variableNames = draft.variableNames ∧ after.taken = draft.taken ∧
      after.helpers = draft.helpers) := by
  cases h with
  | addInclude key code => exact Or.inr (Or.inr ⟨rfl, rfl, rfl⟩)
  | addSetup key code runFirst => exact Or.inr (Or.inr ⟨rfl, rfl, rfl⟩)
  | addVariable name => exact Or.inl ⟨name, rfl, rfl, rfl⟩
  | addHelper wanted code =>
    cases hg : draft.helpers.get? wanted with
    | some helper =>
      rw [addHelper_of_known hg]
      exact Or.inr (Or.inr ⟨rfl, rfl, rfl⟩)
    | none =>
      refine Or.inr (Or.inl ⟨wanted, _, ?_, hg, addHelper_of_new hg code, ?_, ?_⟩)
      · exact Identifier.fresh_leastFree wanted draft.taken
      · simp only [Draft.addHelper, hg]
      · simp only [Draft.addHelper, hg]
  | reserve location pin use label =>
    obtain ⟨pins, findings, he⟩ := draft.reserve_frame location pin use label
    rw [he]
    exact Or.inr (Or.inr ⟨rfl, rfl, rfl⟩)
  | checkPin location pin label =>
    obtain ⟨findings, he⟩ := draft.checkPin_frame location pin label
    rw [he]
    exact Or.inr (Or.inr ⟨rfl, rfl, rfl⟩)

theorem Steps.variableNames_subset {draft after : Draft} (h : Steps draft after) :
    draft.variableNames ⊆ after.variableNames := by
  induction h with
  | refl => exact List.Subset.refl _
  | tail _ hs ih =>
    apply List.Subset.trans ih
    intro name hm
    rcases hs.names with ⟨other, hv, -⟩ | ⟨_, _, -, -, -, -, hv⟩ | ⟨hv, -⟩
    · exact hv ▸ mem_addName.mpr (Or.inl hm)
    · exact hv ▸ hm
    · exact hv ▸ hm

theorem helperNames_append {draft after : Draft}
    (h : after.helpers = draft.helpers ++ [(wanted, helper)]) :
    after.helperNames = draft.helperNames ++ [helper.name] := by
  simp [helperNames, Table.values, h]

theorem Named.step {draft after : Draft} (hs : Step draft after) (h : draft.Named) :
    after.Named := by
  rcases hs.names with ⟨name, hv, ht, hh⟩ | ⟨wanted, helper, hfree, -, hh, ht, hv⟩ | ⟨hv, ht, hh⟩
  · have hn : after.helperNames = draft.helperNames := by rw [helperNames, hh, helperNames]
    refine ⟨?_, hn ▸ h.valid, hn ▸ h.distinct⟩
    intro other
    rw [ht, hv, hn, mem_addName, mem_addName, h.taken_iff]
    grind
  · have hn := helperNames_append hh
    have hnew : helper.name ∉ draft.helperNames := by
      intro hm
      exact hfree.not_mem ((h.taken_iff _).mpr (Or.inr (Or.inr hm)))
    refine ⟨?_, ?_, ?_⟩
    · intro other
      rw [ht, hv, hn, mem_addName, List.mem_append, List.mem_singleton, h.taken_iff]
      grind
    · intro other hm
      rw [hn, List.mem_append, List.mem_singleton] at hm
      rcases hm with hm | rfl
      · exact h.valid other hm
      · exact hfree.isValid
    · rw [hn, List.nodup_append]
      refine ⟨h.distinct, by simp, ?_⟩
      rintro a ha b hb rfl
      rw [List.mem_singleton] at hb
      exact hnew (hb ▸ ha)
  · have hn : after.helperNames = draft.helperNames := by rw [helperNames, hh, helperNames]
    exact ⟨by rw [ht, hv, hn]; exact h.taken_iff, hn ▸ h.valid, hn ▸ h.distinct⟩

theorem Reachable.named {draft : Draft} (h : Reachable draft) : draft.Named := by
  refine h.invariant ?_ fun _ _ hs => Named.step hs
  intro board
  have hn : (Draft.start board).helperNames = [] := rfl
  refine ⟨?_, by simp [hn], by simp [hn]⟩
  intro name
  rw [hn]
  simp [Draft.start]

theorem Avoids.step {draft after : Draft} {names : List String} (hs : Step draft after)
    (h : draft.Avoids names) : after.Avoids names := by
  rcases hs.names with ⟨name, hv, ht, hh⟩ | ⟨wanted, helper, hfree, -, hh, ht, hv⟩ | ⟨hv, ht, hh⟩
  · refine ⟨fun other hm => ht ▸ mem_addName.mpr (Or.inl (h.taken other hm)), ?_⟩
    rw [helperNames, hh]
    exact h.unused
  · refine ⟨fun other hm => ht ▸ mem_addName.mpr (Or.inl (h.taken other hm)), ?_⟩
    intro other hm hn
    rw [helperNames_append hh, List.mem_append, List.mem_singleton] at hm
    rcases hm with hm | rfl
    · exact h.unused other hm hn
    · exact hfree.not_mem (h.taken _ hn)
  · refine ⟨fun other hm => ht ▸ h.taken other hm, ?_⟩
    rw [helperNames, hh]
    exact h.unused

theorem Avoids.steps {draft after : Draft} {names : List String} (hs : Steps draft after)
    (h : draft.Avoids names) : after.Avoids names := by
  induction hs with
  | refl => exact h
  | tail _ hstep ih => exact Avoids.step hstep ih

end BlockSketch.Draft
