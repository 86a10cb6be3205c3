namespace BlockSketch

abbrev Table (α : Type) := List (String × α)

namespace Table

def keys (table : Table α) : List String := table.map Prod.fst

def values (table : Table α) : List α := table.map Prod.snd

/-- The first entry of a key counts. -/
def get? : Table α → String → Option α
  | [], _ => none
  | (k, value) :: rest, key => if k = key then some value else get? rest key

/-- The entry of a key, or a new entry at the end, becomes what `next` makes of the old one. -/
def alter (next : Option α → α) : Table α → String → Table α
  | [], key => [(key, next none)]
  | (k, value) :: rest, key =>
    if k = key then (k, next (some value)) :: rest else (k, value) :: alter next rest key

theorem get?_alter_self (next : Option α → α) (table : Table α) (key : String) :
    (alter next table key).get? key = some (next (table.get? key)) := by
  induction table with
  | nil => simp [alter, get?]
  | cons entry rest ih => by_cases h : entry.1 = key <;> simp [alter, get?, h, ih]

theorem get?_alter_of_ne (next : Option α → α) (table : Table α) (h : key ≠ other) :
    (alter next table key).get? other = table.get? other := by
  induction table with
  | nil => simp [alter, get?, h]
  | cons entry rest ih =>
    by_cases hk : entry.1 = key
    · simp [alter, get?, hk, h]
    · simp only [alter, hk, ↓reduceIte, get?, ih]

/-- No key ever moves, and a new one comes last. -/
theorem keys_alter (next : Option α → α) (table : Table α) (key : String) :
    (alter next table key).keys =
      if key ∈ table.keys then table.keys else table.keys ++ [key] := by
  induction table with
  | nil => rfl
  | cons entry rest ih =>
    by_cases h : entry.1 = key
    · simp [alter, keys, h]
    · have hn : key ≠ entry.1 := fun he => h he.symm
      simp only [keys] at ih
      simp only [keys, List.map_cons, alter, h, ↓reduceIte, List.mem_cons, hn, false_or, ih]
      by_cases hm : key ∈ rest.map Prod.fst <;> simp [hm]

/-- The last entry written for a key wins, at the place of the first. -/
def put (table : Table α) (key : String) (value : α) : Table α :=
  table.alter (fun _ => value) key

/-- The first entry written for a key wins. -/
def putNew (table : Table α) (key : String) (value : α) : Table α :=
  table.alter (·.getD value) key

end Table

end BlockSketch
