import BlockSketch.Proofs.Draft.Log

namespace BlockSketch.Draft

/-- No table has two entries for a key, and a reservation is kept under the pin that it is for. -/
structure Filed (draft : Draft) : Prop where
  includes : draft.includes.keys.Nodup
  setups : draft.setups.keys.Nodup
  helpers : draft.helpers.keys.Nodup
  pins : draft.pins.keys.Nodup
  ownPin : ∀ entry ∈ draft.pins, entry.2.pin = entry.1

theorem Filed.start (board : Board) : (Draft.start board).Filed where
  includes := List.nodup_nil
  setups := List.nodup_nil
  helpers := List.nodup_nil
  pins := List.nodup_nil
  ownPin := by simp [Draft.start]

theorem Filed.step {draft after : Draft} (hs : Step draft after) (h : draft.Filed) :
    after.Filed := by
  cases hs with
  | addInclude key code => exact { h with includes := Table.nodup_keys_alter h.includes key }
  | addSetup key code runFirst => exact { h with setups := Table.nodup_keys_alter h.setups key }
  | addVariable name => exact { h with }
  | addHelper wanted code =>
    unfold addHelper
    split
    · exact h
    · exact { h with helpers := Table.nodup_keys_alter h.helpers wanted }
  | reserve location pin use label =>
    unfold reserve
    split
    · rename_i hg
      refine { h with pins := Table.nodup_keys_alter h.pins pin, ownPin := ?_ }
      rw [Table.put_of_missing hg]
      intro entry hm
      rcases List.mem_append.mp hm with hm | hm
      · exact h.ownPin entry hm
      · rw [List.mem_singleton.mp hm]
    · split
      · exact h
      · exact { h with }
  | checkPin location pin label =>
    unfold checkPin
    split
    · exact h
    · exact { h with }

theorem Reachable.filed {draft : Draft} (h : Reachable draft) : draft.Filed :=
  h.invariant Filed.start fun _ _ => Filed.step

/-- The code of each statement of `setup()`. -/
def stepCodes (draft : Draft) : Table String := draft.setups.column SetupStep.code

/-- Which statements of `setup()` run first. -/
def promotions (draft : Draft) : Table Bool := draft.setups.column SetupStep.runFirst

theorem keys_stepCodes (draft : Draft) : draft.stepCodes.keys = draft.promotions.keys := by
  rw [stepCodes, promotions, Table.keys_column, Table.keys_column]

/-- The body of the helper for each wish. -/
def bodies (draft : Draft) : Table String := draft.helpers.column Helper.body

/-- The name of the helper for each wish. -/
def naming (draft : Draft) : Table String := draft.helpers.column Helper.name

theorem stepCodes_addSetup (draft : Draft) (key code : String) (runFirst : Bool) :
    (draft.addSetup key code runFirst).stepCodes = draft.stepCodes.put key code := by
  apply Table.column_alter
  intro old
  cases old <;> rfl

theorem promotions_addSetup (draft : Draft) (key code : String) (runFirst : Bool) :
    (draft.addSetup key code runFirst).promotions = draft.promotions.putNew key runFirst := by
  apply Table.column_alter
  intro old
  cases old <;> rfl

theorem setups_eq {draft other : Draft} (hc : draft.stepCodes = other.stepCodes)
    (hp : draft.promotions = other.promotions) : draft.setups = other.setups := by
  refine Table.eq_of_columns ?_ hc hp
  rintro ⟨code, runFirst⟩ ⟨_, _⟩ rfl rfl
  rfl

end BlockSketch.Draft
