import BlockSketch.Proofs.Draft.Replay

namespace BlockSketch

def Finding.moved (location : String) (finding : Finding) : Finding := { finding with location }

/-- What a block at another location registers instead. -/
def Registration.moved (location : String) : Registration → Registration
  | reserve _ pin use label => reserve location pin use label
  | checkPin _ pin label => checkPin location pin label
  | other => other

namespace Draft

/-- The reservations without the locations at which they were made. -/
def uses (draft : Draft) : Table (String × PinUse × String) :=
  draft.pins.column fun standing => (standing.pin, standing.use, standing.label)

/-- The drafts differ in nothing but their findings and the locations of their reservations. -/
structure Matches (draft other : Draft) : Prop where
  board : draft.board = other.board
  includes : draft.includes = other.includes
  setups : draft.setups = other.setups
  helpers : draft.helpers = other.helpers
  variableNames : draft.variableNames = other.variableNames
  taken : draft.taken = other.taken
  uses : draft.uses = other.uses

namespace Matches

theorem refl (draft : Draft) : draft.Matches draft := ⟨rfl, rfl, rfl, rfl, rfl, rfl, rfl⟩

theorem get?_pins {draft other : Draft} (h : draft.Matches other) (pin : String) :
    (draft.pins.get? pin).map (fun standing => (standing.pin, standing.use, standing.label)) =
      (other.pins.get? pin).map fun standing => (standing.pin, standing.use, standing.label) := by
  have hu := congrArg (Table.get? · pin) h.uses
  simpa only [Draft.uses, Table.get?_column] using hu

theorem pins_none {draft other : Draft} (h : draft.Matches other)
    (hg : draft.pins.get? pin = none) : other.pins.get? pin = none := by
  have hp := h.get?_pins pin
  rw [hg, Option.map_none] at hp
  exact Option.map_eq_none_iff.mp hp.symm

theorem pins_some {draft other : Draft} (h : draft.Matches other)
    (hg : draft.pins.get? pin = some standing) :
    ∃ found, other.pins.get? pin = some found ∧ found.use = standing.use := by
  have hp := h.get?_pins pin
  rw [hg, Option.map_some] at hp
  obtain ⟨found, hf, he⟩ := Option.map_eq_some_iff.mp hp.symm
  exact ⟨found, hf, congrArg (fun entry => entry.2.1) he⟩

theorem remarks {draft other : Draft} (h : draft.Matches other) (registration : Registration) :
    draft.remarks registration = other.remarks registration := by
  cases registration with
  | addInclude | addSetup | addVariable | addHelper => rfl
  | checkPin location pin label => simp only [Draft.remarks, h.board]
  | reserve location pin use label =>
    cases hg : draft.pins.get? pin with
    | none => simp only [Draft.remarks, hg, h.pins_none hg]
    | some standing =>
      obtain ⟨found, hf, hu⟩ := h.pins_some hg
      simp only [Draft.remarks, hg, hf, hu]

theorem reserve {draft other : Draft} (h : draft.Matches other) (here there pin : String)
    (use : PinUse) (label : String) :
    (draft.reserve here pin use label).Matches (other.reserve there pin use label) := by
  cases hg : draft.pins.get? pin with
  | none =>
    simp only [Draft.reserve, hg, h.pins_none hg]
    refine { h with uses := ?_ }
    have hu := h.uses
    simp only [Draft.uses, Table.column_put] at hu ⊢
    rw [hu]
  | some standing =>
    obtain ⟨found, hf, hu⟩ := h.pins_some hg
    simp only [Draft.reserve, hg, hf, hu]
    split <;> exact { h with }

theorem register {draft other : Draft} (h : draft.Matches other) (registration : Registration)
    (here there : String) :
    (draft.register (registration.moved here)).Matches
      (other.register (registration.moved there)) := by
  cases registration with
  | addInclude key code =>
    exact { h with includes := congrArg (Table.putNew · key code) h.includes }
  | addSetup key code runFirst => exact { h with setups := congrArg (Table.alter _ · key) h.setups }
  | addVariable name =>
    exact { h with
      variableNames := congrArg (addName name) h.variableNames
      taken := congrArg (addName name) h.taken }
  | addHelper wanted code =>
    simp only [Registration.moved, Draft.register, addHelper, ← h.helpers, ← h.taken]
    split
    · exact h
    · exact { h with helpers := rfl, taken := rfl }
  | reserve location pin use label => exact h.reserve here there pin use label
  | checkPin location pin label =>
    simp only [Registration.moved, Draft.register, checkPin, ← h.board]
    split
    · exact h
    · exact { h with board := rfl }

theorem registerAll {draft other : Draft} (h : draft.Matches other) (log : List Registration)
    (here there : String) :
    (draft.registerAll (log.map (·.moved here))).Matches
      (other.registerAll (log.map (·.moved there))) := by
  induction log generalizing draft other with
  | nil => exact h
  | cons registration rest ih => exact ih (h.register registration here there)

end Matches

theorem remarks_moved (draft : Draft) (registration : Registration) (location : String) :
    draft.remarks (registration.moved location) =
      (draft.remarks registration).map (·.moved location) := by
  cases registration with
  | addInclude | addSetup | addVariable | addHelper => rfl
  | reserve other pin use label =>
    simp only [Registration.moved, remarks]
    cases draft.pins.get? pin with
    | none => rfl
    | some standing =>
      dsimp only
      split <;> rfl
  | checkPin other pin label =>
    simp only [Registration.moved, remarks]
    split <;> rfl

end Draft

namespace Bus

theorem prepareLog_moved (board : Board) (location other : String) (pin? : Option String) :
    (prepareLog board location pin?).map (·.moved other) = prepareLog board other pin? := by
  have hbus : (busLog board location).map (·.moved other) = busLog board other := by
    simp [busLog, Registration.moved, Function.comp_def]
  rw [prepareLog, prepareLog, List.map_append, hbus]
  cases pin? with
  | none => rfl
  | some pin => rfl

/-- What is found when a transfer is prepared. -/
def remarks (location : String) (pin? : Option String) (draft : Draft) : List Finding :=
  (prepareLog draft.board location pin?).flatMap (prepare location pin? draft).remarks

theorem findings_prepare (location : String) (pin? : Option String) (draft : Draft) :
    (prepare location pin? draft).findings = draft.findings ++ remarks location pin? draft := by
  rw [remarks, prepare_eq]
  exact draft.findings_registerAll _

theorem prepare_moved (here there : String) (pin? : Option String) (draft : Draft) :
    (prepare here pin? draft).Matches (prepare there pin? draft) ∧
      remarks there pin? draft = (remarks here pin? draft).map (·.moved there) := by
  have hm : (prepare here pin? draft).Matches (prepare there pin? draft) := by
    rw [prepare_eq, prepare_eq, ← prepareLog_moved draft.board "" here,
      ← prepareLog_moved draft.board "" there]
    exact (Draft.Matches.refl draft).registerAll _ here there
  refine ⟨hm, ?_⟩
  rw [remarks, remarks, ← prepareLog_moved draft.board here there, List.flatMap_map,
    List.map_flatMap]
  congr 1
  funext registration
  rw [Draft.remarks_moved, hm.remarks]

theorem location_of_remark (h : finding ∈ remarks location pin? draft) :
    finding.location = location := by
  obtain ⟨-, hmoved⟩ := prepare_moved "" location pin? draft
  rw [hmoved] at h
  obtain ⟨other, -, rfl⟩ := List.mem_map.mp h
  rfl

end Bus

end BlockSketch
