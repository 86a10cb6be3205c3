import BlockSketch.Decimal.Written

namespace BlockSketch

inductive FieldValue
  | nothing
  | flag (value : Bool)
  | whole (value : Int)
  | number (value : Float)
  | text (value : String)

namespace FieldValue

/-- Exponents appear from 10^16 on and below 10^-4, with two digits or more. -/
def numberStyle : Decimal.Style := ⟨-4, 16, 2⟩

def toText : FieldValue → String
  | nothing => "None"
  | flag true => "True"
  | flag false => "False"
  | whole value => toString value
  | number value => numberStyle.write value
  | text value => value

end FieldValue

end BlockSketch
