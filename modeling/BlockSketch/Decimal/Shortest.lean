import BlockSketch.Decimal.Binary

namespace BlockSketch.Decimal

/-- The value `digits * 10 ^ exponent`. -/
structure Scaled where
  digits : Nat
  exponent : Int
  deriving DecidableEq

/-- A binary number and the grid `10 ^ exponent`, both as multiples of one small unit. The reals
read back as the number reach from `low` to `high`, and a number with an even mantissa owns the
ends. -/
structure OnGrid where
  value : Nat
  low : Nat
  high : Nat
  width : Nat
  ownsEnds : Bool

/-- The unit divides a quarter of `2 ^ number.exponent`, so that the half-way points are whole. -/
def OnGrid.of (number : Binary) (exponent : Int) : OnGrid :=
  let quarter := Nat.pow 2 (number.exponent - 2).toNat * Nat.pow 10 (-exponent).toNat
  { value := 4 * number.mantissa * quarter
    low := (4 * number.mantissa - if number.narrowBelow then 1 else 2) * quarter
    high := (4 * number.mantissa + 2) * quarter
    width := Nat.pow 2 (2 - number.exponent).toNat * Nat.pow 10 exponent.toNat
    ownsEnds := number.mantissa % 2 == 0 }

def OnGrid.readsBack (grid : OnGrid) (digits : Nat) : Bool :=
  let point := digits * grid.width
  if grid.ownsEnds then decide (grid.low ≤ point ∧ point ≤ grid.high)
  else decide (grid.low < point ∧ point < grid.high)

/-- Of the two points beside the value the nearer one; half-way between them the even one. -/
def OnGrid.nearer (grid : OnGrid) (below : Nat) : Nat :=
  let gap := 2 * (grid.value - below * grid.width)
  if gap < grid.width then below
  else if grid.width < gap then below + 1
  else if below % 2 = 0 then below else below + 1

/-- If any point of the grid is read back as the number, one of the two beside it is. -/
def OnGrid.nearest? (grid : OnGrid) : Option Nat :=
  let below := grid.value / grid.width
  match grid.readsBack below, grid.readsBack (below + 1) with
  | true, true => some (grid.nearer below)
  | true, false => some below
  | false, true => some (below + 1)
  | false, false => none

/-- From the coarsest grid that can meet a double to the finest that one needs. -/
def gridExponents : List Int := (List.range 634).map fun (i : Nat) => (309 : Int) - i

/-- The coarsest grid that meets the number gives the fewest digits. -/
def shortest (number : Binary) : Scaled :=
  (gridExponents.findSome? fun exponent =>
    (OnGrid.of number exponent).nearest?.map (⟨·, exponent⟩)).getD ⟨0, 0⟩

end BlockSketch.Decimal
