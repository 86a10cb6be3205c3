import BlockSketch.Proofs.Draft.Columns
import BlockSketch.Proofs.Draft.Setups

namespace BlockSketch

/-- A statement of `setup()` is asked for. -/
structure SetupCall where
  key : String
  code : String
  runFirst : Bool

namespace SetupCall

def registration (call : SetupCall) : Registration :=
  .addSetup call.key call.code call.runFirst

def first? (calls : List SetupCall) (key : String) : Option SetupCall :=
  calls.find? (·.key = key)

def last? (calls : List SetupCall) (key : String) : Option SetupCall :=
  calls.reverse.find? (·.key = key)

/-- Each key that is asked for, in the order of the first calls. -/
def keys (calls : List SetupCall) : List String := (calls.map key).eraseDups

/-- Whether the first call for a key has it run first. -/
def runsFirst (calls : List SetupCall) (key : String) : Bool := (first? calls key).any (·.runFirst)

/-- The keys of what runs first, then the others. -/
def order (calls : List SetupCall) : List String :=
  (keys calls).filter (runsFirst calls) ++ (keys calls).filter (!runsFirst calls ·)

theorem order_perm (calls : List SetupCall) : (order calls).Perm (keys calls) :=
  List.filter_append_perm ..

theorem first?_concat (calls : List SetupCall) (call : SetupCall) (key : String) :
    first? (calls ++ [call]) key =
      (first? calls key).or (if call.key = key then some call else none) := by
  rw [first?, List.find?_append, List.find?_singleton]
  simp only [first?, decide_eq_true_eq]

theorem last?_concat (calls : List SetupCall) (call : SetupCall) (key : String) :
    last? (calls ++ [call]) key = if call.key = key then some call else last? calls key := by
  rw [last?, List.reverse_concat, List.find?_cons]
  by_cases hk : call.key = key
  · simp [hk]
  · simp [hk, last?]

end SetupCall

namespace Draft

def setUpFor (draft : Draft) (call : SetupCall) : Draft :=
  draft.addSetup call.key call.code call.runFirst

def setUpAll (draft : Draft) (calls : List SetupCall) : Draft := calls.foldl setUpFor draft

theorem setUpAll_eq (draft : Draft) (calls : List SetupCall) :
    draft.setUpAll calls = draft.registerAll (calls.map SetupCall.registration) := by
  rw [setUpAll, registerAll, List.foldl_map]
  rfl

theorem setUpAll_concat (draft : Draft) (calls : List SetupCall) (call : SetupCall) :
    draft.setUpAll (calls ++ [call]) = (draft.setUpAll calls).setUpFor call :=
  List.foldl_concat ..

theorem get?_stepCodes_setUpAll (board : Board) (calls : List SetupCall) (key : String) :
    ((start board).setUpAll calls).stepCodes.get? key =
      (SetupCall.last? calls key).map SetupCall.code := by
  induction calls using List.reverseRecOn with
  | nil => rfl
  | append_singleton calls call ih =>
    rw [setUpAll_concat, setUpFor, stepCodes_addSetup, SetupCall.last?_concat, Table.put]
    by_cases hk : call.key = key
    · rw [if_pos hk, ← hk, Table.get?_alter_self]
      rfl
    · rw [if_neg hk, Table.get?_alter_of_ne _ _ hk, ih]

theorem get?_promotions_setUpAll (board : Board) (calls : List SetupCall) (key : String) :
    ((start board).setUpAll calls).promotions.get? key =
      (SetupCall.first? calls key).map SetupCall.runFirst := by
  induction calls using List.reverseRecOn with
  | nil => rfl
  | append_singleton calls call ih =>
    rw [setUpAll_concat, setUpFor, promotions_addSetup, SetupCall.first?_concat, Table.putNew]
    by_cases hk : call.key = key
    · rw [if_pos hk, ← hk, Table.get?_alter_self, hk, ih]
      cases SetupCall.first? calls key <;> rfl
    · rw [if_neg hk, Table.get?_alter_of_ne _ _ hk, ih, Option.or_none]

theorem keys_setUpAll (board : Board) (calls : List SetupCall) :
    ((start board).setUpAll calls).setups.keys = SetupCall.keys calls :=
  eraseDups_foldl (fun draft : Draft => draft.setups.keys) SetupCall.key
    (fun draft call => Table.keys_alter _ draft.setups call.key) rfl calls

/-- The order of `setup()`, told from the keys in the order in which they were filed. -/
theorem map_some_orderedSetups {draft : Draft} (hn : draft.setups.keys.Nodup)
    {ahead : String → Bool}
    (h : ∀ key mark, draft.promotions.get? key = some mark → ahead key = mark) :
    draft.orderedSetups.map some =
      (draft.setups.keys.filter ahead ++ draft.setups.keys.filter (!ahead ·)).map
        draft.stepCodes.get? := by
  have hahead (key : String) (step : SetupStep) (hg : draft.setups.get? key = some step) :
      ahead key = step.runFirst := by
    apply h
    rw [promotions, Table.get?_column, hg]
    rfl
  have hcodes : draft.stepCodes.get? = Option.map SetupStep.code ∘ draft.setups.get? :=
    funext fun key => Table.get?_column SetupStep.code draft.setups key
  have hothers : (draft.setups.values.filter (!·.runFirst)).map some =
      (draft.setups.keys.filter (!ahead ·)).map draft.setups.get? :=
    Table.map_some_filter_values hn fun key step hg => congrArg not (hahead key step hg)
  rw [hcodes, ← List.map_map, List.map_append, ← Table.map_some_filter_values hn hahead, ← hothers,
    ← List.map_append, orderedSetups, List.map_map, List.map_map]
  rfl

/-- Once its key is there, a statement neither comes to run first nor ceases to. -/
theorem addSetup_of_known {draft : Draft} {key : String} (h : key ∈ draft.setups.keys)
    (code : String) (runFirst other : Bool) :
    draft.addSetup key code runFirst = draft.addSetup key code other := by
  have hk : key ∈ draft.promotions.keys := by rwa [promotions, Table.keys_column]
  have hsetups : (draft.addSetup key code runFirst).setups =
      (draft.addSetup key code other).setups := by
    apply setups_eq
    · rw [stepCodes_addSetup, stepCodes_addSetup]
    · rw [promotions_addSetup, promotions_addSetup, Table.putNew_of_mem hk,
        Table.putNew_of_mem hk]
  exact congrArg (fun setups => { draft with setups }) hsetups

/-- Whether a later call for a known key has it run first does not matter. -/
theorem setUpAll_of_known (board : Board) {before : List SetupCall} {call : SetupCall}
    (h : call.key ∈ before.map SetupCall.key) (after : List SetupCall) (runFirst : Bool) :
    (start board).setUpAll (before ++ { call with runFirst } :: after) =
      (start board).setUpAll (before ++ call :: after) := by
  have hknown : call.key ∈ ((start board).setUpAll before).setups.keys := by
    rw [keys_setUpAll]
    exact List.mem_eraseDups.mpr h
  have hcall : ((start board).setUpAll before).setUpFor { call with runFirst } =
      ((start board).setUpAll before).setUpFor call :=
    addSetup_of_known hknown call.code runFirst call.runFirst
  rw [setUpAll, setUpAll, List.foldl_append, List.foldl_append]
  exact congrArg (fun draft => after.foldl setUpFor draft) hcall

/-- One statement for each key, in the order of the first calls and with the code of the last one, and
ahead those whose first call has them run first. Two tables for codes and marks give the same. -/
theorem setups_follow_calls (board : Board) (calls : List SetupCall) :
    ((start board).setUpAll calls).orderedSetups.map some =
      (SetupCall.order calls).map (fun key => (SetupCall.last? calls key).map SetupCall.code) ∧
    (SetupCall.order calls).Nodup ∧
    (∀ key, key ∈ SetupCall.order calls ↔ ∃ call ∈ calls, call.key = key) ∧
    ((Columns.start board).registerAll (calls.map SetupCall.registration)).orderedSetups? =
      some ((start board).setUpAll calls).orderedSetups ∧
    ∀ before call after runFirst, calls = before ++ call :: after →
      call.key ∈ before.map SetupCall.key →
      (start board).setUpAll (before ++ { call with runFirst } :: after) =
        (start board).setUpAll calls := by
  have hkeys := keys_setUpAll board calls
  have hperm := SetupCall.order_perm calls
  have hnodup : (SetupCall.keys calls).Nodup := nodup_eraseDups _
  refine ⟨?_, hperm.nodup_iff.mpr hnodup, ?_, ?_, ?_⟩
  · have hfirst (key : String) (mark : Bool)
        (hg : ((start board).setUpAll calls).promotions.get? key = some mark) :
        SetupCall.runsFirst calls key = mark := by
      rw [get?_promotions_setUpAll] at hg
      obtain ⟨first, hf, rfl⟩ := Option.map_eq_some_iff.mp hg
      rw [SetupCall.runsFirst, hf, Option.any_some]
    rw [map_some_orderedSetups (hkeys ▸ hnodup) hfirst, hkeys,
      funext (get?_stepCodes_setUpAll board calls)]
    rfl
  · intro key
    rw [hperm.mem_iff, SetupCall.keys, List.mem_eraseDups, List.mem_map]
  · have hcolumns : (Columns.start board).registerAll (calls.map SetupCall.registration) =
        ((start board).setUpAll calls).columns := by
      rw [setUpAll_eq, columns_registerAll]
      rfl
    rw [hcolumns]
    exact orderedSetups?_columns (hkeys ▸ hnodup)
  · rintro before call after runFirst rfl hk
    exact setUpAll_of_known board hk after runFirst

/-- The later call gives its code, but comes too late to have it run first. -/
example :
    ((start .uno).setUpAll
      [⟨"pin", "pinMode(8, INPUT);", false⟩, ⟨"bus", "SPI.begin();", true⟩,
        ⟨"pin", "pinMode(8, OUTPUT);", true⟩]).orderedSetups =
      ["SPI.begin();", "pinMode(8, OUTPUT);"] := by
  decide

end Draft

end BlockSketch
