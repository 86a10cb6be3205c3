import BlockSketch.Proofs.Draft.Replay
import BlockSketch.Proofs.Draft.Setups

namespace BlockSketch

/-- A block asks for a pin. -/
structure PinCall where
  block : Block
  pin : String
  use : PinUse
  label : String

namespace PinCall

def registration (call : PinCall) : Registration :=
  .reserve call.block.location call.pin call.use call.label

def first? (calls : List PinCall) (pin : String) : Option PinCall :=
  calls.find? (·.pin = pin)

/-- Nobody wants a pin for something else than another one does. -/
def Agree (calls : List PinCall) : Prop :=
  ∀ call ∈ calls, ∀ other ∈ calls, call.pin = other.pin → call.use = other.use

theorem exists_first {calls : List PinCall} {call : PinCall} (h : call ∈ calls) :
    ∃ first, first? calls call.pin = some first :=
  Option.isSome_iff_exists.mp (List.find?_isSome.mpr ⟨call, h, by simp⟩)

theorem Agree.of_perm {calls others : List PinCall} (hp : calls.Perm others) (h : Agree calls) :
    Agree others := by
  intro call hc other ho
  exact h call (hp.mem_iff.mpr hc) other (hp.mem_iff.mpr ho)

end PinCall

namespace Draft

end Draft

end BlockSketch
