import BlockSketch.Table

namespace BlockSketch.Table

theorem mem_of_get? {table : Table α} (h : table.get? key = some value) :
    (key, value) ∈ table := by
  induction table with
  | nil => simp [get?] at h
  | cons entry rest ih =>
    obtain ⟨k, v⟩ := entry
    simp only [get?] at h
    split at h
    · rename_i hk
      cases h
      simp [hk]
    · exact List.mem_cons_of_mem _ (ih h)

theorem get?_eq_none_iff {table : Table α} : table.get? key = none ↔ key ∉ table.keys := by
  induction table with
  | nil => simp [get?, keys]
  | cons entry rest ih =>
    by_cases h : entry.1 = key
    · simp [get?, keys, h]
    · have hn : key ≠ entry.1 := fun he => h he.symm
      simpa [get?, keys, h, hn] using ih

theorem get?_of_mem_keys {table : Table α} (h : key ∈ table.keys) :
    ∃ value, table.get? key = some value := by
  cases hg : table.get? key with
  | none => exact absurd h (get?_eq_none_iff.mp hg)
  | some value => exact ⟨value, rfl⟩

theorem mem_keys_of_get? {table : Table α} (h : table.get? key = some value) :
    key ∈ table.keys :=
  List.mem_map.mpr ⟨_, mem_of_get? h, rfl⟩

theorem keys_subset {table longer : Table α} (h : table <+: longer) : table.keys ⊆ longer.keys :=
  (h.map Prod.fst).subset

theorem get?_append (table more : Table α) (key : String) :
    (table ++ more).get? key = (table.get? key).or (more.get? key) := by
  induction table with
  | nil => simp [get?]
  | cons entry rest ih => by_cases h : entry.1 = key <;> simp [get?, h, ih]

theorem get?_map (f : α → β) (table : Table α) (key : String) :
    Table.get? (table.map fun entry => (entry.1, f entry.2)) key = (table.get? key).map f := by
  induction table with
  | nil => rfl
  | cons entry rest ih => by_cases h : entry.1 = key <;> simp [get?, h, ih]

/-- What was found before is found in a table with more entries at its end. -/
theorem get?_extends {table longer : Table α} (hp : table <+: longer)
    (h : table.get? key = some value) : longer.get? key = some value := by
  obtain ⟨more, rfl⟩ := hp
  simp [get?_append, h]

theorem alter_of_missing {table : Table α} (h : table.get? key = none) :
    table.alter next key = table ++ [(key, next none)] := by
  induction table with
  | nil => rfl
  | cons entry rest ih =>
    by_cases hk : entry.1 = key
    · simp [get?, hk] at h
    · simp only [get?, hk, ↓reduceIte] at h
      simp [alter, hk, ih h]

theorem put_of_missing {table : Table α} (h : table.get? key = none) (value : α) :
    table.put key value = table ++ [(key, value)] :=
  alter_of_missing h

theorem putNew_of_mem {table : Table α} (h : key ∈ table.keys) (value : α) :
    table.putNew key value = table := by
  unfold putNew
  induction table with
  | nil => simp [keys] at h
  | cons entry rest ih =>
    by_cases hk : entry.1 = key
    · obtain ⟨k, v⟩ := entry
      cases hk
      simp [alter]
    · have hr : key ∈ keys rest := by
        simp only [keys, List.map_cons, List.mem_cons] at h
        exact h.resolve_left fun he => hk he.symm
      simp [alter, hk, ih hr]

/-- What is found under the keys of two lists side by side is the second list. -/
theorem map_get?_zip {keys values : List String} (hn : keys.Nodup)
    (hl : keys.length = values.length) :
    keys.map (fun key => (Table.get? (keys.zip values) key).getD "") = values := by
  induction keys generalizing values with
  | nil =>
    cases values with
    | nil => rfl
    | cons value rest => simp at hl
  | cons key rest ih =>
    cases values with
    | nil => simp at hl
    | cons value more =>
      obtain ⟨hk, hr⟩ := List.nodup_cons.mp hn
      have hrest : rest.map (fun other =>
          (Table.get? ((key, value) :: rest.zip more) other).getD "") =
            rest.map fun other => (Table.get? (rest.zip more) other).getD "" := by
        apply List.map_congr_left
        intro other hm
        have hne : key ≠ other := by
          rintro rfl
          exact hk hm
        simp [get?, hne]
      have hlen : rest.length = more.length := by simpa using hl
      rw [List.zip_cons_cons, List.map_cons, hrest, ih hr hlen]
      simp [get?]

theorem prefix_putNew (table : Table α) (key : String) (value : α) :
    table <+: table.putNew key value := by
  by_cases h : key ∈ table.keys
  · exact ⟨[], by rw [putNew_of_mem h, List.append_nil]⟩
  · rw [putNew, alter_of_missing (get?_eq_none_iff.mpr h)]
    exact List.prefix_append _ _

theorem mem_keys_alter {next : Option α → α} {table : Table α} :
    other ∈ (alter next table key).keys ↔ other ∈ table.keys ∨ other = key := by
  rw [keys_alter]
  split
  · rename_i h
    exact ⟨Or.inl, fun ho => ho.elim id fun he => he ▸ h⟩
  · rw [List.mem_append, List.mem_singleton]

theorem forall_values_alter {P : α → Prop} {next : Option α → α} {table : Table α}
    (h : ∀ value ∈ table.values, P value) (hnew : P (next none))
    (hold : ∀ value ∈ table.values, P (next (some value))) (key : String) :
    ∀ value ∈ (table.alter next key).values, P value := by
  induction table with
  | nil => simpa [alter, values] using hnew
  | cons entry rest ih =>
    simp only [values, List.map_cons, List.forall_mem_cons] at h hold ih
    rw [alter]
    split
    · simpa only [values, List.map_cons, List.forall_mem_cons] using ⟨hold.1, h.2⟩
    · simpa only [values, List.map_cons, List.forall_mem_cons] using ⟨h.1, ih h.2 hold.2⟩

theorem nodup_keys_alter {next : Option α → α} {table : Table α} (h : table.keys.Nodup)
    (key : String) : (alter next table key).keys.Nodup := by
  rw [keys_alter]
  split
  · exact h
  · rename_i hm
    rw [List.nodup_append]
    refine ⟨h, by simp, ?_⟩
    rintro a ha b hb rfl
    exact hm (List.mem_singleton.mp hb ▸ ha)

theorem get?_of_mem {table : Table α} (hn : table.keys.Nodup) (h : (key, value) ∈ table) :
    table.get? key = some value := by
  induction table with
  | nil => cases h
  | cons entry rest ih =>
    obtain ⟨hk, hr⟩ := List.nodup_cons.mp hn
    rcases List.mem_cons.mp h with rfl | hm
    · simp [get?]
    · have hne : entry.1 ≠ key := fun he => hk (List.mem_map.mpr ⟨_, hm, he.symm⟩)
      simp only [get?, hne, ↓reduceIte]
      exact ih hr hm

/-- The values that a test picks, told from the keys that it picks. -/
theorem map_some_filter_values {table : Table α} (hn : table.keys.Nodup) {test : α → Bool}
    {picks : String → Bool}
    (h : ∀ key value, table.get? key = some value → picks key = test value) :
    (table.values.filter test).map some = (table.keys.filter picks).map table.get? := by
  have hget : ∀ entry ∈ table, table.get? entry.1 = some entry.2 := fun _ hm => get?_of_mem hn hm
  have hpicks : table.filter (picks ∘ Prod.fst) = table.filter (test ∘ Prod.snd) :=
    List.filter_congr fun entry hm => h entry.1 entry.2 (hget entry hm)
  rw [values, keys, List.filter_map, List.filter_map, hpicks, List.map_map, List.map_map]
  apply List.map_congr_left
  intro entry hm
  exact (hget entry (List.mem_filter.mp hm).1).symm

/-- Tables with the same keys that find the same are the same. -/
theorem eq_of_get? {table other : Table α} (hk : table.keys = other.keys) (hn : table.keys.Nodup)
    (h : ∀ key ∈ table.keys, table.get? key = other.get? key) : table = other := by
  induction table generalizing other with
  | nil => exact (List.map_eq_nil_iff.mp hk.symm).symm
  | cons entry rest ih =>
    obtain ⟨key, value⟩ := entry
    cases other with
    | nil => simp [keys] at hk
    | cons first more =>
      obtain ⟨name, found⟩ := first
      obtain ⟨rfl, hkeys⟩ := List.cons.inj hk
      obtain ⟨hnew, hrest⟩ := List.nodup_cons.mp hn
      have hvalue : value = found := by simpa [get?] using h key List.mem_cons_self
      have hmore : rest = more := by
        apply ih hkeys hrest
        intro other hm
        have hne : key ≠ other := fun he => hnew (he ▸ hm)
        simpa [get?, hne] using h other (List.mem_cons_of_mem _ hm)
      rw [hvalue, hmore]

/-- One part of each entry. -/
def column (part : α → β) (table : Table α) : Table β :=
  table.map fun entry => (entry.1, part entry.2)

@[simp] theorem keys_column (part : α → β) (table : Table α) :
    (table.column part).keys = table.keys := by
  simp [keys, column, Function.comp_def]

theorem values_column (part : α → β) (table : Table α) :
    (table.column part).values = table.values.map part := by
  simp [values, column, Function.comp_def]

theorem get?_column (part : α → β) (table : Table α) (key : String) :
    (table.column part).get? key = (table.get? key).map part :=
  get?_map part table key

/-- An entry can be altered part by part. -/
theorem column_alter {part : α → β} {next : Option α → α} {partNext : Option β → β}
    (h : ∀ old, part (next old) = partNext (old.map part)) (table : Table α) (key : String) :
    (table.alter next key).column part = (table.column part).alter partNext key := by
  induction table with
  | nil => simp [column, alter, h]
  | cons entry rest ih =>
    simp only [column, List.map_cons, alter] at ih ⊢
    by_cases hk : entry.1 = key
    · simp [hk, h]
    · simp [hk, ih]

theorem column_put (part : α → β) (table : Table α) (key : String) (value : α) :
    (table.put key value).column part = (table.column part).put key (part value) := by
  unfold put
  apply column_alter
  intro _
  rfl

theorem eq_of_columns {part : α → β} {other : α → γ}
    (h : ∀ a b, part a = part b → other a = other b → a = b) {first second : Table α}
    (hpart : first.column part = second.column part)
    (hother : first.column other = second.column other) : first = second := by
  induction first generalizing second with
  | nil => exact (List.map_eq_nil_iff.mp hpart.symm).symm
  | cons entry rest ih =>
    cases second with
    | nil => simp [column] at hpart
    | cons entry' more =>
      simp only [column, List.map_cons, List.cons.injEq, Prod.mk.injEq] at hpart hother
      rw [ih hpart.2 hother.2, Prod.ext hpart.1.1 (h _ _ hpart.1.2 hother.1.2)]

end BlockSketch.Table
