import BlockSketch.Proofs.Draft.Filed
import BlockSketch.Proofs.Names.Draft

namespace BlockSketch

/-- Registrations never take back what earlier ones did, apart from the code of a setup step. -/
structure Draft.Extends (draft after : Draft) : Prop where
  board : after.board = draft.board
  includes : draft.includes <+: after.includes
  promotions : draft.promotions <+: after.promotions
  helpers : draft.helpers <+: after.helpers
  variableNames : draft.variableNames ⊆ after.variableNames
  taken : draft.taken ⊆ after.taken
  pins : draft.pins <+: after.pins

namespace Draft

namespace Extends

theorem refl (draft : Draft) : draft.Extends draft :=
  ⟨rfl, List.prefix_rfl, List.prefix_rfl, List.prefix_rfl, List.Subset.refl _, List.Subset.refl _,
    List.prefix_rfl⟩

theorem trans {a b c : Draft} (hab : a.Extends b) (hbc : b.Extends c) : a.Extends c where
  board := hbc.board.trans hab.board
  includes := hab.includes.trans hbc.includes
  promotions := hab.promotions.trans hbc.promotions
  helpers := hab.helpers.trans hbc.helpers
  variableNames := List.Subset.trans hab.variableNames hbc.variableNames
  taken := List.Subset.trans hab.taken hbc.taken
  pins := hab.pins.trans hbc.pins

theorem subset_addName (name : String) (names : List String) : names ⊆ addName name names :=
  fun _ hm => mem_addName.mpr (Or.inl hm)

theorem register (draft : Draft) (registration : Registration) :
    draft.Extends (draft.register registration) := by
  cases registration with
  | addInclude key code =>
    exact { refl draft with includes := Table.prefix_putNew draft.includes key code }
  | addSetup key code runFirst =>
    refine { refl draft with promotions := ?_ }
    rw [Draft.register, promotions_addSetup]
    exact Table.prefix_putNew draft.promotions key runFirst
  | addVariable name =>
    exact { refl draft with
      variableNames := subset_addName name _
      taken := subset_addName name _ }
  | addHelper wanted code =>
    have hh := draft.addHelper_extends wanted code
    simp only [Draft.register, addHelper] at hh ⊢
    split
    · exact refl draft
    · rename_i hg
      rw [hg] at hh
      exact { refl draft with helpers := hh, taken := subset_addName _ _ }
  | reserve location pin use label =>
    simp only [Draft.register, reserve]
    split
    · rename_i hg
      rw [Table.put_of_missing hg]
      exact { refl draft with pins := List.prefix_append _ _ }
    · split <;> exact { refl draft with }
  | checkPin location pin label =>
    simp only [Draft.register, checkPin]
    split <;> exact { refl draft with }

theorem registerAll (draft : Draft) (log : List Registration) :
    draft.Extends (draft.registerAll log) := by
  induction log generalizing draft with
  | nil => exact refl draft
  | cons registration rest ih => exact (register draft registration).trans (ih _)

end Extends

/-- There is already what is asked for, if perhaps with other code or for another use. -/
def Holds (draft : Draft) : Registration → Prop
  | .addInclude key _ => key ∈ draft.includes.keys
  | .addSetup key _ _ => key ∈ draft.promotions.keys
  | .addVariable name => name ∈ draft.variableNames ∧ name ∈ draft.taken
  | .addHelper wanted _ => wanted ∈ draft.helpers.keys
  | .reserve _ pin _ _ => pin ∈ draft.pins.keys
  | .checkPin _ _ _ => True

/-- What there is to say of a registration, given the pins that are reserved. -/
def remarks (draft : Draft) : Registration → List Finding
  | .reserve location pin use label =>
    match draft.pins.get? pin with
    | none => []
    | some standing =>
      if standing.use = use then []
      else [.conflict pin label use.label standing.use.label location]
  | .checkPin location pin label =>
    if draft.board.digitalPins.contains pin then []
    else [.unknownPin pin label draft.board.name location]
  | _ => []

theorem Holds.mono {draft after : Draft} {registration : Registration}
    (he : draft.Extends after) (h : draft.Holds registration) : after.Holds registration := by
  cases registration with
  | addInclude key code => exact Table.keys_subset he.includes h
  | addSetup key code runFirst => exact Table.keys_subset he.promotions h
  | addVariable name => exact ⟨he.variableNames h.1, he.taken h.2⟩
  | addHelper wanted code => exact Table.keys_subset he.helpers h
  | reserve location pin use label => exact Table.keys_subset he.pins h
  | checkPin location pin label => exact h

theorem holds_register (draft : Draft) (registration : Registration) :
    (draft.register registration).Holds registration := by
  cases registration with
  | addInclude key code => exact Table.mem_keys_alter.mpr (Or.inr rfl)
  | addSetup key code runFirst =>
    rw [register, Holds, promotions_addSetup]
    exact Table.mem_keys_alter.mpr (Or.inr rfl)
  | addVariable name => exact ⟨mem_addName.mpr (Or.inr rfl), mem_addName.mpr (Or.inr rfl)⟩
  | addHelper wanted code =>
    obtain ⟨helper, hg, -⟩ := draft.addHelper_name wanted code
    exact Table.mem_keys_of_get? hg
  | reserve location pin use label =>
    simp only [register, reserve, Holds]
    split
    · exact Table.mem_keys_alter.mpr (Or.inr rfl)
    · rename_i hg
      split <;> exact Table.mem_keys_of_get? hg
  | checkPin location pin label => trivial

theorem holds_registerAll (draft : Draft) (log : List Registration) :
    ∀ registration ∈ log, (draft.registerAll log).Holds registration := by
  induction log generalizing draft with
  | nil => simp
  | cons first rest ih =>
    intro registration hm
    rcases List.mem_cons.mp hm with rfl | hm
    · exact (draft.holds_register registration).mono (Extends.registerAll _ rest)
    · exact ih _ registration hm

/-- Once a pin is reserved its first reservation stands. -/
theorem remarks_later {draft after : Draft} {registration : Registration}
    (he : draft.Extends after) (h : draft.Holds registration) :
    after.remarks registration = draft.remarks registration := by
  cases registration with
  | reserve location pin use label =>
    obtain ⟨standing, hg⟩ := Table.get?_of_mem_keys h
    simp only [remarks, hg, Table.get?_extends he.pins hg]
  | checkPin location pin label => simp only [remarks, he.board]
  | addInclude | addSetup | addVariable | addHelper => rfl

theorem remarks_register (draft : Draft) (registration : Registration) :
    (draft.register registration).remarks registration = draft.remarks registration := by
  cases registration with
  | reserve location pin use label =>
    cases hg : draft.pins.get? pin with
    | none =>
      simp [register, reserve, remarks, hg, Table.put_of_missing hg, Table.get?_append, Table.get?]
    | some standing => exact remarks_later (Extends.register _ _) (Table.mem_keys_of_get? hg)
  | checkPin location pin label => simp only [remarks, register_board]
  | addInclude | addSetup | addVariable | addHelper => rfl

theorem findings_register (draft : Draft) (registration : Registration) :
    (draft.register registration).findings = draft.findings ++ draft.remarks registration := by
  cases registration with
  | addInclude | addSetup | addVariable => exact (List.append_nil _).symm
  | addHelper wanted code =>
    simp only [register, addHelper, remarks, List.append_nil]
    split <;> rfl
  | reserve location pin use label =>
    cases hg : draft.pins.get? pin with
    | none => simp only [register, reserve, remarks, hg, List.append_nil]
    | some standing =>
      simp only [register, reserve, remarks, hg]
      split
      · exact (List.append_nil _).symm
      · rfl
  | checkPin location pin label =>
    simp only [register, checkPin, remarks]
    split
    · exact (List.append_nil _).symm
    · rfl

/-- What a registration was found to be can still be told from the last draft: the first reservation
of a pin stands, and agrees with itself. -/
theorem findings_registerAll (draft : Draft) (log : List Registration) :
    (draft.registerAll log).findings =
      draft.findings ++ log.flatMap (draft.registerAll log).remarks := by
  induction log generalizing draft with
  | nil => exact (List.append_nil _).symm
  | cons registration rest ih =>
    have hlater := remarks_later (Extends.registerAll (draft.register registration) rest)
      (draft.holds_register registration)
    rw [registerAll_cons, ih, findings_register, List.flatMap_cons, hlater, remarks_register,
      List.append_assoc]

end Draft

/-- The code that a registration gives to the setup step with this key. -/
def Registration.stepCode? (key : String) : Registration → Option String
  | addSetup wanted code _ => if wanted = key then some code else none
  | _ => none

/-- Some registration of the log gives code to the setup step with this key. -/
def Writes (log : List Registration) (key : String) : Prop :=
  ∃ registration ∈ log, (registration.stepCode? key).isSome

/-- No registration of the log gives other code to the setup step with this key. -/
def Steady (log : List Registration) (key code : String) : Prop :=
  ∀ registration ∈ log, ∀ other, registration.stepCode? key = some other → other = code

theorem Steady.append {log more : List Registration} (h : Steady log key code)
    (hm : Steady more key code) : Steady (log ++ more) key code := by
  intro registration hr
  exact (List.mem_append.mp hr).elim (h registration) (hm registration)

namespace Draft

theorem setups_register (draft : Draft) (registration : Registration)
    (h : ∀ key code runFirst, registration ≠ .addSetup key code runFirst) :
    (draft.register registration).setups = draft.setups := by
  cases registration with
  | addSetup key code runFirst => exact absurd rfl (h key code runFirst)
  | addInclude | addVariable => rfl
  | addHelper wanted code =>
    simp only [register, addHelper]
    split <;> rfl
  | reserve location pin use label =>
    obtain ⟨pins, findings, he⟩ := draft.reserve_frame location pin use label
    rw [register, he]
  | checkPin location pin label =>
    obtain ⟨findings, he⟩ := draft.checkPin_frame location pin label
    rw [register, he]

theorem get?_stepCodes_register (draft : Draft) (registration : Registration) (key : String) :
    (draft.register registration).stepCodes.get? key =
      (registration.stepCode? key).or (draft.stepCodes.get? key) := by
  cases registration with
  | addSetup wanted code runFirst =>
    rw [register, stepCodes_addSetup, Registration.stepCode?]
    by_cases hk : wanted = key
    · rw [hk, if_pos rfl]
      exact Table.get?_alter_self _ _ _
    · rw [if_neg hk]
      exact Table.get?_alter_of_ne _ _ hk
  | addInclude | addVariable | addHelper | reserve | checkPin =>
    rw [stepCodes, setups_register _ _ (by simp)]
    rfl

/-- What was there before does not matter for a step that the log gives code to. -/
theorem get?_stepCodes_congr {draft other : Draft} (log : List Registration)
    (h : Writes log key ∨ draft.stepCodes.get? key = other.stepCodes.get? key) :
    (draft.registerAll log).stepCodes.get? key = (other.registerAll log).stepCodes.get? key := by
  induction log generalizing draft other with
  | nil => exact h.resolve_left (by simp [Writes])
  | cons first rest ih =>
    apply ih
    rw [get?_stepCodes_register, get?_stepCodes_register]
    cases hf : first.stepCode? key with
    | some code => exact Or.inr rfl
    | none =>
      refine h.imp ?_ id
      rintro ⟨registration, hm, hw⟩
      rcases List.mem_cons.mp hm with rfl | hm
      · simp [hf] at hw
      · exact ⟨registration, hm, hw⟩

theorem get?_stepCodes_of_unwritten {log : List Registration} (h : ¬ Writes log key)
    (draft : Draft) :
    (draft.registerAll log).stepCodes.get? key = draft.stepCodes.get? key := by
  induction log generalizing draft with
  | nil => rfl
  | cons first rest ih =>
    have hfirst : first.stepCode? key = none := by
      cases hf : first.stepCode? key with
      | none => rfl
      | some code => exact absurd ⟨first, List.mem_cons_self, by simp [hf]⟩ h
    rw [registerAll_cons, ih, get?_stepCodes_register, hfirst, Option.none_or]
    rintro ⟨registration, hm, hw⟩
    exact h ⟨registration, List.mem_cons_of_mem _ hm, hw⟩

theorem get?_stepCodes_of_steady {log : List Registration} (hs : Steady log key code)
    (hw : Writes log key) (draft : Draft) :
    (draft.registerAll log).stepCodes.get? key = some code := by
  induction log generalizing draft with
  | nil => simp [Writes] at hw
  | cons first rest ih =>
    rw [registerAll_cons]
    by_cases hrest : Writes rest key
    · exact ih (fun registration hm => hs registration (List.mem_cons_of_mem _ hm)) hrest _
    · have hfirst : (first.stepCode? key).isSome := by
        obtain ⟨registration, hm, hw⟩ := hw
        rcases List.mem_cons.mp hm with rfl | hm
        · exact hw
        · exact absurd ⟨registration, hm, hw⟩ hrest
      obtain ⟨other, ho⟩ := Option.isSome_iff_exists.mp hfirst
      rw [get?_stepCodes_of_unwritten hrest, get?_stepCodes_register, ho, Option.some_or,
        hs first List.mem_cons_self other ho]

theorem promotions_of_holds {draft : Draft} {registration : Registration}
    (h : draft.Holds registration) :
    (draft.register registration).promotions = draft.promotions := by
  cases registration with
  | addSetup key code runFirst =>
    rw [register, promotions_addSetup]
    exact Table.putNew_of_mem h runFirst
  | addInclude | addVariable | addHelper | reserve | checkPin =>
    rw [promotions, setups_register _ _ (by simp), promotions]

/-- A registration that finds what it asks for changes no more than the code of a setup step. -/
theorem register_of_holds {draft : Draft} {registration : Registration}
    (h : draft.Holds registration) :
    draft.register registration =
      { draft with
        setups := (draft.register registration).setups
        findings := draft.findings ++ draft.remarks registration } := by
  rw [← findings_register]
  cases registration with
  | addInclude key code => simp only [register, addInclude, Table.putNew_of_mem h]
  | addSetup key code runFirst => rfl
  | addVariable name => simp only [register, addVariable, addName_of_mem h.1, addName_of_mem h.2]
  | addHelper wanted code =>
    obtain ⟨helper, hg⟩ := Table.get?_of_mem_keys h
    rw [register, addHelper_of_known hg]
  | reserve location pin use label =>
    obtain ⟨standing, hg⟩ := Table.get?_of_mem_keys h
    simp only [register, reserve, hg]
    split <;> rfl
  | checkPin location pin label =>
    simp only [register, checkPin]
    split <;> rfl

theorem registerAll_of_holds {draft : Draft} {log : List Registration}
    (h : ∀ registration ∈ log, draft.Holds registration) :
    draft.registerAll log =
        { draft with
          setups := (draft.registerAll log).setups
          findings := draft.findings ++ log.flatMap draft.remarks } ∧
      (draft.registerAll log).promotions = draft.promotions := by
  induction log generalizing draft with
  | nil => simp
  | cons first rest ih =>
    have hfirst := h first List.mem_cons_self
    have hmore := Extends.register draft first
    have hrest : ∀ registration ∈ rest, (draft.register first).Holds registration :=
      fun registration hm => (h registration (List.mem_cons_of_mem _ hm)).mono hmore
    have hremarks : rest.flatMap (draft.register first).remarks = rest.flatMap draft.remarks := by
      rw [List.flatMap_def, List.flatMap_def]
      exact congrArg List.flatten (List.map_congr_left fun registration hm =>
        remarks_later hmore (h registration (List.mem_cons_of_mem _ hm)))
    obtain ⟨hall, hpromotions⟩ := ih hrest
    refine ⟨?_, hpromotions.trans (promotions_of_holds hfirst)⟩
    rw [registerAll_cons, hall, hremarks, register_of_holds hfirst]
    simp

/-- A helper that is there stays as it is, whatever its code would be now. -/
theorem register_congr {draft : Draft} {first second : Registration}
    (hs : first.shape = second.shape) (h : draft.Holds first) :
    draft.register first = draft.register second := by
  cases first with
  | addHelper wanted code =>
    cases second with
    | addHelper other more =>
      obtain rfl : wanted = other := by simpa [Registration.shape] using hs
      obtain ⟨helper, hg⟩ := Table.get?_of_mem_keys h
      rw [register, register, addHelper_of_known hg, addHelper_of_known hg]
    | addInclude | addSetup | addVariable | reserve | checkPin => simp [Registration.shape] at hs
  | addInclude | addSetup | addVariable | reserve | checkPin =>
    cases second with
    | addHelper other more => simp [Registration.shape] at hs
    | addInclude | addSetup | addVariable | reserve | checkPin =>
      exact congrArg draft.register hs

theorem registerAll_congr {draft : Draft} {log other : List Registration}
    (hs : log.map Registration.shape = other.map Registration.shape)
    (h : ∀ registration ∈ log, draft.Holds registration) :
    draft.registerAll log = draft.registerAll other := by
  induction log generalizing draft other with
  | nil => rw [List.map_eq_nil_iff.mp hs.symm]
  | cons first rest ih =>
    obtain ⟨second, more, rfl, hfirst, hrest⟩ := List.map_eq_cons_iff.mp hs.symm
    have hmore := Extends.register draft first
    have hsame := register_congr hfirst.symm (h first List.mem_cons_self)
    rw [registerAll_cons, registerAll_cons, ← hsame]
    exact ih hrest.symm fun registration hm =>
      (h registration (List.mem_cons_of_mem _ hm)).mono hmore

theorem Filed.registerAll {draft : Draft} (h : draft.Filed) (log : List Registration) :
    (draft.registerAll log).Filed := by
  induction log generalizing draft with
  | nil => exact h
  | cons first rest ih => exact ih (h.step (draft.step_register first))

/-- A log can be registered again, also after other registrations if these leave the code of its
setup steps as it was. All that this adds are the findings, one by one as at first. -/
theorem replay {draft : Draft} (hf : draft.Filed) (log more : List Registration)
    (hm : ∀ key, Writes log key → (draft.registerAll (log ++ more)).stepCodes.get? key =
      (draft.registerAll log).stepCodes.get? key) :
    (draft.registerAll (log ++ more)).registerAll log =
      { draft.registerAll (log ++ more) with
        findings := (draft.registerAll (log ++ more)).findings ++
          log.flatMap (draft.registerAll log).remarks } := by
  have hlater : (draft.registerAll log).Extends (draft.registerAll (log ++ more)) := by
    rw [registerAll_append]
    exact Extends.registerAll _ more
  have hholds := draft.holds_registerAll log
  have hremarks : log.flatMap (draft.registerAll (log ++ more)).remarks =
      log.flatMap (draft.registerAll log).remarks := by
    rw [List.flatMap_def, List.flatMap_def]
    exact congrArg List.flatten (List.map_congr_left fun registration hr =>
      remarks_later hlater (hholds registration hr))
  obtain ⟨hagain, hpromotions⟩ :=
    registerAll_of_holds fun registration hr => (hholds registration hr).mono hlater
  have hkeys : ((draft.registerAll (log ++ more)).registerAll log).stepCodes.keys =
      (draft.registerAll (log ++ more)).stepCodes.keys := by
    have hk := congrArg Table.keys hpromotions
    simpa only [promotions, stepCodes, Table.keys_column] using hk
  have hcodes : ((draft.registerAll (log ++ more)).registerAll log).stepCodes =
      (draft.registerAll (log ++ more)).stepCodes := by
    refine Table.eq_of_get? hkeys ?_ ?_
    · rw [hkeys, stepCodes, Table.keys_column]
      exact (hf.registerAll _).setups
    · intro key _
      by_cases hw : Writes log key
      · rw [hm key hw]
        exact get?_stepCodes_congr log (Or.inl hw)
      · exact get?_stepCodes_of_unwritten hw _
  rw [hagain, setups_eq hcodes hpromotions, hremarks]

end Draft

end BlockSketch
