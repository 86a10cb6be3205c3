import BlockSketch.Proofs.Names.Draft

namespace BlockSketch

namespace Identifier

theorem length_freshAll (wishes taken : List String) :
    (freshAll wishes taken).length = wishes.length := by
  induction wishes generalizing taken with
  | nil => rfl
  | cons wanted rest ih => simp only [freshAll, List.length_cons, ih]

theorem freshAll_append (wishes more taken : List String) :
    freshAll (wishes ++ more) taken =
      freshAll wishes taken ++ freshAll more ((freshAll wishes taken).reverse ++ taken) := by
  induction wishes generalizing taken with
  | nil => rfl
  | cons wanted rest ih =>
    simp only [List.cons_append, freshAll, ih, List.reverse_cons, List.append_assoc,
      List.nil_append]

end Identifier

namespace Draft

/-- The helpers have the names that their wishes get one after the other, apart from reserved names
and those of the variables. -/
structure Allotted (readNames : List String) (draft : Draft) : Prop where
  known : ∀ name, name ∈ draft.variableNames ↔ name ∈ readNames
  named : draft.Named
  allotted : draft.helperNames =
    Identifier.freshAll draft.helpers.keys (reservedNames ++ readNames)

theorem Allotted.step {draft after : Draft} {readNames : List String} (hs : Step draft after)
    (hv : after.variableNames ⊆ readNames) (h : draft.Allotted readNames) :
    after.Allotted readNames := by
  have hnamed := h.named.step hs
  rcases hs.names with ⟨name, hvn, -, hh⟩ | ⟨wanted, helper, hfree, -, hh, -, hvn⟩ | ⟨hvn, -, hh⟩
  · refine ⟨?_, hnamed, ?_⟩
    · intro other
      constructor
      · exact fun hm => hv hm
      · intro hm
        rw [hvn, mem_addName]
        exact Or.inl ((h.known other).mpr hm)
    · rw [helperNames, hh]
      exact h.allotted
  · refine ⟨fun other => hvn ▸ h.known other, hnamed, ?_⟩
    have hk : after.helpers.keys = draft.helpers.keys ++ [wanted] := by simp [hh, Table.keys]
    have htaken : ∀ candidate, candidate ∈ draft.taken ↔
        candidate ∈ draft.helperNames.reverse ++ (reservedNames ++ readNames) := by
      intro candidate
      simp only [h.named.taken_iff, h.known, List.mem_append, List.mem_reverse]
      grind
    have hname : helper.name = Identifier.fresh wanted
        (draft.helperNames.reverse ++ (reservedNames ++ readNames)) :=
      (hfree.congr htaken).unique (Identifier.fresh_leastFree _ _)
    rw [helperNames_append hh, hk, Identifier.freshAll_append, ← h.allotted, hname]
    rfl
  · refine ⟨fun other => hvn ▸ h.known other, hnamed, ?_⟩
    rw [helperNames, hh]
    exact h.allotted

/-- While no variable is added, helpers may come at any time. -/
theorem Allotted.steps {draft after : Draft} {readNames : List String} (hs : Steps draft after)
    (hv : after.variableNames ⊆ readNames) (h : draft.Allotted readNames) :
    after.Allotted readNames := by
  induction hs with
  | refl => exact h
  | tail _ hstep ih => exact (ih (List.Subset.trans hstep.steps.variableNames_subset hv)).step hstep hv

end Draft

end BlockSketch
