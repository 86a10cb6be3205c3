import BlockSketch.Draft
import BlockSketch.Fault
import BlockSketch.Order
import BlockSketch.Statement

namespace BlockSketch

inductive Fragment
  | value (code : String) (order : Order)
  | statement (code : String)
  deriving DecidableEq

/-- Work on the draft of a sketch. A fault ends it and leaves the draft as it was by then. -/
abbrev Drafting := EStateM Fault Draft

namespace Drafting

theorem bind_ok {work : Drafting α} {next : α → Drafting β} {draft after : Draft} {result : α}
    (h : work draft = .ok result after) : (work >>= next) draft = next result after := by
  simp only [bind, EStateM.bind, h]

theorem bind_error {work : Drafting α} {next : α → Drafting β} {draft after : Draft} {fault : Fault}
    (h : work draft = .error fault after) : (work >>= next) draft = .error fault after := by
  simp only [bind, EStateM.bind, h]

/-- A success of two steps is a success of the first and then of the second. -/
theorem bind_eq_ok {work : Drafting α} {next : α → Drafting β} {draft after : Draft} {result : β} :
    (work >>= next) draft = .ok result after ↔
      ∃ a mid, work draft = .ok a mid ∧ next a mid = .ok result after := by
  cases h : work draft with
  | ok a mid =>
    rw [bind_ok h]
    constructor
    · exact fun hn => ⟨a, mid, rfl, hn⟩
    · rintro ⟨_, _, he, hn⟩
      cases he
      exact hn
  | error fault mid => simp [bind_error h]

end Drafting

/-- What is plugged into an input: where that is in the program, and how code is made from it. -/
structure Plug where
  location : String
  code : Drafting Fragment

abbrev Plugs := String → Option Plug

def inParens (code : String) : String := "(" ++ code ++ ")"

/-- No code needs no parentheses. -/
def fitted (code : String) (inner outer : Order) : String :=
  if code = "" then "" else if outer.needsParens inner then inParens code else code

/-- Code for an input in a place of the given order, or none if nothing is plugged in. -/
def Plugs.valueCode (plugs : Plugs) (owner input : String) (outer : Order) : Drafting String :=
  match plugs input with
  | none => pure ""
  | some plug => do
    match ← plug.code with
    | .value code inner => pure (fitted code inner outer)
    | .statement _ => throw (.notAValue plug.location input owner)

/-- An input without code counts as zero. -/
def Plugs.operand (plugs : Plugs) (owner input : String) (outer : Order) : Drafting String := do
  let code ← plugs.valueCode owner input outer
  pure (if code = "" then "0" else code)

/-- A value that stands alone is a statement; a value without code is left out. -/
def Fragment.asStatement : Fragment → String
  | value code _ => if code = "" then "" else code ++ ";\n"
  | statement code => code

end BlockSketch
