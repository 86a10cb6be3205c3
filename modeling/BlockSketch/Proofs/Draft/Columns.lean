import BlockSketch.Proofs.Draft.Filed
import BlockSketch.Proofs.Draft.Operations
import BlockSketch.Proofs.Names.Draft

namespace BlockSketch

structure Columns where
  board : Board
  includes : Table String
  /-- The code of each statement of `setup()`. -/
  steps : Table String
  /-- Whether it runs ahead of the others. -/
  promoted : Table Bool
  /-- The code of each helper, under the name that was wished for. -/
  bodies : Table String
  /-- The helper's name. -/
  names : Table String
  variableNames : List String
  pins : Table Reservation
  findings : List Finding
  /-- What no further helper may be called. -/
  taken : List String

namespace Columns

def start (board : Board) : Columns :=
  { board
    includes := []
    steps := []
    promoted := []
    bodies := []
    names := []
    variableNames := []
    pins := []
    findings := []
    taken := reservedNames }

/-- A new statement of `setup()` and a new helper have to be written to two tables each. -/
def register (columns : Columns) : Registration → Columns
  | .addInclude key code => { columns with includes := columns.includes.putNew key code }
  | .addSetup key code runFirst =>
    { columns with
      steps := columns.steps.put key code
      promoted :=
        if key ∈ columns.steps.keys then columns.promoted else columns.promoted.put key runFirst }
  | .addVariable name =>
    { columns with
      variableNames := Draft.addName name columns.variableNames
      taken := Draft.addName name columns.taken }
  | .addHelper wanted code =>
    match columns.names.get? wanted with
    | some _ => columns
    | none =>
      let name := Identifier.fresh wanted columns.taken
      { columns with
        bodies := columns.bodies.put wanted (Text.substitute Draft.namePlaceholder name code)
        names := columns.names.put wanted name
        taken := Draft.addName name columns.taken }
  | .reserve location pin use label =>
    match columns.pins.get? pin with
    | none => { columns with pins := columns.pins.put pin ⟨pin, use, label, location⟩ }
    | some standing =>
      if standing.use = use then columns
      else
        { columns with
          findings := columns.findings ++
            [.conflict pin label use.label standing.use.label location] }
  | .checkPin location pin label =>
    if columns.board.digitalPins.contains pin then columns
    else
      { columns with
        findings := columns.findings ++ [.unknownPin pin label columns.board.name location] }

def registerAll (columns : Columns) (log : List Registration) : Columns :=
  log.foldl register columns

def helperName (columns : Columns) (pin : String) : String :=
  (columns.names.get? (Bus.helperWish pin)).getD ""

def perform (columns : Columns) (block : Block) : Columns :=
  columns.registerAll (block.log columns.helperName columns.board)

def performAll (columns : Columns) (blocks : List Block) : Columns := blocks.foldl perform columns

/-- The evaluations that the operation comes to, then what it registers by itself. -/
def operate (columns : Columns) : Operation → Columns
  | .restart => start columns.board
  | operation =>
    (columns.performAll operation.evaluations).registerAll (operation.closing columns.board)

def operateAll (columns : Columns) (operations : List Operation) : Columns :=
  operations.foldl operate columns

/-- The statements of `setup()`, each after its mark; none if one of them has no mark. -/
def marked? (columns : Columns) : Option (List (Bool × String)) :=
  columns.steps.mapM fun (key, code) => (columns.promoted.get? key).map fun mark => (mark, code)

/-- Steps that run first, then the others. -/
def orderedSetups? (columns : Columns) : Option (List String) :=
  columns.marked?.map fun steps =>
    (steps.filter (·.1) ++ steps.filter (!·.1)).map Prod.snd

/-- The tables agree with each other, and the names with what is taken. -/
structure Coherent (columns : Columns) : Prop where
  steps : columns.steps.keys = columns.promoted.keys
  steps_nodup : columns.steps.keys.Nodup
  helpers : columns.bodies.keys = columns.names.keys
  helpers_nodup : columns.names.keys.Nodup
  taken_iff : ∀ name, name ∈ columns.taken ↔
    name ∈ reservedNames ∨ name ∈ columns.variableNames ∨ name ∈ columns.names.values
  distinct : columns.names.values.Nodup
  valid : ∀ name ∈ columns.names.values, Identifier.IsValid name
  unreserved : ∀ name ∈ columns.names.values, name ∉ reservedNames
  pins_nodup : columns.pins.keys.Nodup
  ownPin : ∀ entry ∈ columns.pins, entry.2.pin = entry.1

end Columns

namespace Draft

def columns (draft : Draft) : Columns :=
  { board := draft.board
    includes := draft.includes
    steps := draft.stepCodes
    promoted := draft.promotions
    bodies := draft.bodies
    names := draft.naming
    variableNames := draft.variableNames
    pins := draft.pins
    findings := draft.findings
    taken := draft.taken }

theorem columns_addSetup (draft : Draft) (key code : String) (runFirst : Bool) :
    (draft.addSetup key code runFirst).columns =
      draft.columns.register (.addSetup key code runFirst) := by
  have hkeys := draft.keys_stepCodes
  have hmarks : (draft.promotions.putNew key runFirst) =
      if key ∈ draft.stepCodes.keys then draft.promotions
      else draft.promotions.put key runFirst := by
    split
    · rename_i hm
      exact Table.putNew_of_mem (hkeys ▸ hm) runFirst
    · rename_i hm
      have hnone := Table.get?_eq_none_iff.mpr (hkeys ▸ hm)
      rw [Table.put_of_missing hnone]
      exact Table.alter_of_missing hnone
  rw [columns, stepCodes_addSetup, promotions_addSetup, hmarks]
  rfl

theorem columns_addHelper (draft : Draft) (wanted code : String) :
    (draft.addHelper wanted code).2.columns = draft.columns.register (.addHelper wanted code) := by
  have hg : draft.naming.get? wanted = (draft.helpers.get? wanted).map Helper.name :=
    Table.get?_column _ _ _
  cases hh : draft.helpers.get? wanted with
  | some helper =>
    rw [hh] at hg
    simp only [addHelper_of_known hh, Columns.register, columns, hg, Option.map_some]
  | none =>
    rw [hh] at hg
    simp only [addHelper, hh, Columns.register, columns, hg, Option.map_none]
    simp only [bodies, naming, Table.column_put]
    rfl

theorem columns_register (draft : Draft) (registration : Registration) :
    (draft.register registration).columns = draft.columns.register registration := by
  cases registration with
  | addInclude | addVariable => rfl
  | addSetup key code runFirst => exact draft.columns_addSetup key code runFirst
  | addHelper wanted code => exact draft.columns_addHelper wanted code
  | reserve location pin use label =>
    simp only [register, reserve, Columns.register]
    cases hg : draft.pins.get? pin with
    | none =>
      simp only [columns, hg]
      rfl
    | some standing =>
      simp only [columns, hg]
      split <;> rfl
  | checkPin location pin label =>
    simp only [register, checkPin, Columns.register]
    by_cases hp : draft.board.digitalPins.contains pin = true
    · simp only [columns, hp, ↓reduceIte]
    · simp only [columns, hp]
      rfl

theorem columns_registerAll (draft : Draft) (log : List Registration) :
    (draft.registerAll log).columns = draft.columns.registerAll log := by
  induction log generalizing draft with
  | nil => rfl
  | cons registration rest ih =>
    rw [registerAll_cons, ih, columns_register]
    rfl

theorem columns_helperName (draft : Draft) : draft.columns.helperName = draft.helperName := by
  funext pin
  rw [Columns.helperName, helperName, columns, naming, Table.get?_column]

theorem columns_performAll (draft : Draft) (blocks : List Block) :
    (draft.performAll blocks).columns = draft.columns.performAll blocks := by
  induction blocks generalizing draft with
  | nil => rfl
  | cons block rest ih =>
    rw [performAll_cons, ih, perform_eq, columns_registerAll, ← columns_helperName]
    rfl

/-- Each operation, also one that ends in a fault, writes to the tables what it writes to the
draft. -/
theorem columns_operate (draft : Draft) (operation : Operation) :
    (draft.operate operation).columns = draft.columns.operate operation := by
  by_cases hr : operation = .restart
  · rw [hr]
    rfl
  · rw [operate_eq hr, columns_registerAll, columns_performAll]
    cases operation with
    | restart => exact absurd rfl hr
    | register | code | valueCode | stackCode | transfer | addVariables => rfl

theorem columns_operateAll (draft : Draft) (operations : List Operation) :
    (draft.operateAll operations).columns = draft.columns.operateAll operations := by
  induction operations generalizing draft with
  | nil => rfl
  | cons operation rest ih =>
    have hrest := ih (draft.operate operation)
    rw [columns_operate] at hrest
    exact hrest

theorem values_naming (draft : Draft) : draft.naming.values = draft.helperNames :=
  Table.values_column _ _

theorem Reachable.unreserved {draft : Draft} (h : draft.Reachable) :
    draft.Avoids reservedNames := by
  refine h.invariant ?_ fun _ _ hs => Avoids.step hs
  intro board
  exact ⟨fun _ hm => hm, by simp [Draft.start, helperNames, Table.values]⟩

theorem Reachable.coherent {draft : Draft} (h : draft.Reachable) : draft.columns.Coherent where
  steps := draft.keys_stepCodes
  steps_nodup := by simpa [columns, stepCodes] using h.filed.setups
  helpers := by simp [columns, bodies, naming]
  helpers_nodup := by simpa [columns, naming] using h.filed.helpers
  taken_iff name := by
    rw [columns, values_naming]
    exact h.named.taken_iff name
  distinct := by
    rw [columns, values_naming]
    exact h.named.distinct
  valid := by
    rw [columns, values_naming]
    exact h.named.valid
  unreserved := by
    rw [columns, values_naming]
    exact h.unreserved.unused
  pins_nodup := h.filed.pins
  ownPin := h.filed.ownPin

theorem marked?_columns {draft : Draft} (h : draft.setups.keys.Nodup) :
    draft.columns.marked? =
      some (draft.setups.values.map fun step => (step.runFirst, step.code)) := by
  have hmark : ∀ entry ∈ draft.setups,
      draft.promotions.get? entry.1 = some entry.2.runFirst := by
    rintro ⟨key, step⟩ hm
    rw [promotions, Table.get?_column, Table.get?_of_mem h hm, Option.map_some]
  unfold Columns.marked?
  simp only [columns, stepCodes, Table.column, Table.values]
  generalize draft.promotions = promoted at hmark
  generalize draft.setups = setups at hmark
  induction setups with
  | nil => rfl
  | cons entry rest ih =>
    have hfirst := hmark entry List.mem_cons_self
    have hrest := ih fun other hm => hmark other (List.mem_cons_of_mem _ hm)
    simp only [List.map_cons, List.mapM_cons, hfirst, hrest]
    rfl

theorem orderedSetups?_columns {draft : Draft} (h : draft.setups.keys.Nodup) :
    draft.columns.orderedSetups? = some draft.orderedSetups := by
  rw [Columns.orderedSetups?, marked?_columns h, orderedSetups]
  simp [List.filter_map, Function.comp_def]

end Draft

namespace Columns

/-- Whatever is done to a draft in separate tables, in whatever order and with whatever faults, the
tables agree with each other and with the draft that holds them together. In particular the order of
`setup()` is always known. -/
theorem coherent_of_operations (board : Board) (operations : List Operation) :
    ((start board).operateAll operations).Coherent ∧
    (start board).operateAll operations =
      ((Draft.start board).operateAll operations).columns ∧
    ((start board).operateAll operations).orderedSetups? =
      some ((Draft.start board).operateAll operations).orderedSetups := by
  have hr := (Draft.Reachable.start board).operateAll operations
  have hc : (start board).operateAll operations =
      ((Draft.start board).operateAll operations).columns :=
    ((Draft.start board).columns_operateAll operations).symm
  rw [hc]
  exact ⟨hr.coherent, rfl, Draft.orderedSetups?_columns hr.filed.setups⟩

end Columns

end BlockSketch
