namespace BlockSketch.Decimal

/-- The value `mantissa * 2 ^ exponent`. `narrowBelow` says that the next smaller number is half as
far away as the next larger one. -/
structure Binary where
  mantissa : Nat
  exponent : Int
  narrowBelow : Bool
  deriving DecidableEq

inductive Meaning
  | notANumber
  | infinite (negative : Bool)
  | finite (negative : Bool) (magnitude : Binary)
  deriving DecidableEq

/-- The leading bit of a mantissa, which is not stored. -/
def hiddenBit : Nat := 0x10000000000000

/-- One sign bit, eleven bits of exponent, fifty-two bits of fraction. The smallest exponent has no
hidden bit. -/
def Meaning.ofBits (bits : UInt64) : Meaning :=
  let n := bits.toNat
  let negative := decide (0x8000000000000000 ≤ n)
  let exponent := n / hiddenBit % 0x800
  let fraction := n % hiddenBit
  if exponent = 0x7ff then if fraction = 0 then .infinite negative else .notANumber
  else if exponent = 0 then .finite negative ⟨fraction, -1074, false⟩
  else
    .finite negative
      ⟨fraction + hiddenBit, (exponent : Int) - 1075, decide (fraction = 0 ∧ 1 < exponent)⟩

end BlockSketch.Decimal
