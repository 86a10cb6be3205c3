import BlockSketch.Table

namespace BlockSketch

structure Block where
  kind : String
  id : String
  fields : List (String × String)
  inputs : List (String × Block)
  next : Option Block

namespace Block

def field? (block : Block) (name : String) : Option String := Table.get? block.fields name

def fieldOr (block : Block) (name standard : String) : String :=
  (block.field? name).getD standard

/-- What an editor stores for a menu on which nothing was picked. -/
def unpicked : String := "none"

/-- A menu's choice, unless nothing was picked. -/
def choice? (block : Block) (name : String) : Option String :=
  (block.field? name).filter (· ≠ unpicked)

def input? (block : Block) (name : String) : Option Block := Table.get? block.inputs name

def withNext (block : Block) (next : Option Block) : Block := { block with next }

/-- Messages name a block by its kind and, if it has one, its id. -/
def location (block : Block) : String :=
  if block.id = "" then block.kind else block.kind ++ "#" ++ block.id

/-- Each block is followed by the one after it in the list and the last one by none, whatever
followed them before. -/
def link : List Block → Option Block
  | [] => none
  | block :: rest => some (block.withNext (link rest))

/-- The block and all that follow it, each on its own. -/
def stack : Block → List Block
  | ⟨kind, id, fields, inputs, none⟩ => [⟨kind, id, fields, inputs, none⟩]
  | ⟨kind, id, fields, inputs, some next⟩ => ⟨kind, id, fields, inputs, none⟩ :: stack next

def children (block : Block) : List Block := block.inputs.map Prod.snd ++ block.next.toList

theorem induct {motive : Block → Prop}
    (node : ∀ block : Block, (∀ child ∈ block.children, motive child) → motive block)
    (block : Block) : motive block :=
  Block.rec (motive_1 := motive) (motive_2 := fun inputs => ∀ entry ∈ inputs, motive entry.2)
    (motive_3 := fun next => ∀ child ∈ next, motive child) (motive_4 := fun entry => motive entry.2)
    (fun kind id fields inputs next plugged following => node ⟨kind, id, fields, inputs, next⟩ (by
      intro child hc
      simp only [children, List.mem_append, List.mem_map, Option.mem_toList] at hc
      rcases hc with ⟨entry, he, rfl⟩ | hn
      · exact plugged entry he
      · exact following child hn))
    (by simp) (fun _ _ head tail => by simpa using ⟨head, fun a b => tail (a, b)⟩)
    (by simp) (fun _ child => by simpa using child) (fun _ _ child => child) block

mutual

/-- How many blocks there are, all told. -/
def size : Block → Nat
  | ⟨_, _, _, inputs, next⟩ => pluggedSize inputs + followingSize next + 1

def pluggedSize : List (String × Block) → Nat
  | [] => 0
  | (_, block) :: rest => size block + pluggedSize rest

def followingSize : Option Block → Nat
  | none => 0
  | some block => size block

end

def totalSize : List Block → Nat
  | [] => 0
  | block :: rest => size block + totalSize rest

theorem totalSize_append (blocks more : List Block) :
    totalSize (blocks ++ more) = totalSize blocks + totalSize more := by
  induction blocks with
  | nil => simp [totalSize]
  | cons block rest ih => simp [totalSize, ih, Nat.add_assoc]

theorem pluggedSize_eq (inputs : List (String × Block)) :
    pluggedSize inputs = totalSize (inputs.map Prod.snd) := by
  induction inputs with
  | nil => rfl
  | cons entry rest ih => simp [pluggedSize, totalSize, ih]

theorem size_eq (block : Block) : block.size = totalSize block.children + 1 := by
  obtain ⟨kind, id, fields, inputs, next⟩ := block
  cases next <;> simp [size, followingSize, children, pluggedSize_eq, totalSize, totalSize_append]

mutual

/-- Two blocks are alike if all their parts are, in whatever order fields and inputs stand. -/
def alike : Block → Block → Bool
  | ⟨kind, id, fields, inputs, next⟩, other =>
    kind == other.kind && id == other.id &&
    fields.length == other.fields.length &&
    fields.all (fun entry => other.field? entry.1 == some entry.2) &&
    inputs.length == other.inputs.length && pluggedAlike inputs other && followingAlike next other.next

def pluggedAlike : List (String × Block) → Block → Bool
  | [], _ => true
  | (name, block) :: rest, other =>
    (match other.input? name with
      | some plugged => alike block plugged
      | none => false) && pluggedAlike rest other

def followingAlike : Option Block → Option Block → Bool
  | none, other => other.isNone
  | some block, other =>
    match other with
    | some following => alike block following
    | none => false

end

end Block

end BlockSketch
