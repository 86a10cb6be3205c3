import BlockSketch.Decimal.Shortest

namespace BlockSketch.Decimal

/-- Leading digits of exponents from `lowest` up to but not including `highest` are written around a
point; any other number gets an exponent of at least `exponentDigits` digits. -/
structure Style where
  lowest : Int
  highest : Int
  exponentDigits : Nat

def zeros (n : Nat) : List Char := List.replicate n '0'

def digitsOf (n : Nat) : List Char := Nat.toDigits 10 n

/-- A digit stands on both sides of the point. -/
def aroundPoint (number : Scaled) : List Char :=
  let digits := digitsOf number.digits
  let whole := digits.length + number.exponent
  if 0 ≤ number.exponent then digits ++ zeros number.exponent.toNat ++ ['.', '0']
  else if 0 < whole then digits.take whole.toNat ++ '.' :: digits.drop whole.toNat
  else '0' :: '.' :: zeros (-whole).toNat ++ digits

/-- A point only where more digits follow, and a sign on every exponent. -/
def withExponent (style : Style) (number : Scaled) (leading : Int) : List Char :=
  let digits := digitsOf number.digits
  let exponent := digitsOf leading.natAbs
  digits.take 1 ++ (if digits.length = 1 then [] else '.' :: digits.drop 1) ++
    'e' :: (if leading < 0 then '-' else '+') ::
      (zeros (style.exponentDigits - exponent.length) ++ exponent)

def Style.writeMagnitude (style : Style) (magnitude : Binary) : List Char :=
  if magnitude.mantissa = 0 then ['0', '.', '0']
  else
    let number := shortest magnitude
    let leading := number.exponent + (digitsOf number.digits).length - 1
    if style.lowest ≤ leading ∧ leading < style.highest then aroundPoint number
    else withExponent style number leading

/-- Zero keeps its sign, and what is not a number has none. -/
def Style.write (style : Style) (number : Float) : String :=
  match Meaning.ofBits number.toBits with
  | .notANumber => "nan"
  | .infinite negative => if negative then "-inf" else "inf"
  | .finite negative magnitude =>
    let text := style.writeMagnitude magnitude
    String.ofList (if negative then '-' :: text else text)

end BlockSketch.Decimal
