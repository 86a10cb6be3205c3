import BlockSketch.Block.Basic
import BlockSketch.Block.FieldValue
import BlockSketch.Kind

namespace BlockSketch.Block

/-- A part that every block must have, or one that no block has. -/
inductive Part
  | kind (arrived : Arrived String)
  | unknown (name : String)

structure Parts where
  id : Arrived String
  fields : List (String × FieldValue)
  inputs : List (String × Block)
  next : Option Block
  /-- In the order in which they were named. -/
  others : List Part

inductive Defect
  | emptyChain
  | kindMissing
  | mistyped (part : String) (arrived : Kind)
  | unknownPart (name : String)
  deriving DecidableEq

def Defect.message : Defect → String
  | emptyChain => "chain() requires at least one block"
  | kindMissing => "Field invariant failed, invariant_errors=[], missing_fields=[Block.type]"
  | mistyped part arrived => "Invalid type for field Block." ++ part ++ ", was " ++ arrived.name
  | unknownPart name => "'" ++ name ++ "' is not among the specified fields for Block"

/-- The first part that is wrong is reported, and a missing kind only after all parts. -/
def kindOf : Option String → List Part → Except Defect String
  | none, [] => .error .kindMissing
  | some kind, [] => .ok kind
  | _, .kind (.wanted kind) :: rest => kindOf (some kind) rest
  | _, .kind (.other arrived) :: _ => .error (.mistyped "type" arrived)
  | _, .unknown name :: _ => .error (.unknownPart name)

/-- The id is looked at first. -/
def ofParts (parts : Parts) : Except Defect Block :=
  match parts.id, kindOf none parts.others with
  | .other arrived, _ => .error (.mistyped "id" arrived)
  | .wanted _, .error defect => .error defect
  | .wanted id, .ok kind =>
    .ok ⟨kind, id, parts.fields.map fun (name, value) => (name, value.toText), parts.inputs,
      parts.next⟩

/-- The first block, with the others linked behind it. -/
def chain (blocks : List Block) : Except Defect Block :=
  match link blocks with
  | some head => .ok head
  | none => .error .emptyChain

end BlockSketch.Block
