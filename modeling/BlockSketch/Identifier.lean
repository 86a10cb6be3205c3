namespace BlockSketch.Identifier

def isNameChar (c : Char) : Bool := c.isAlphanum || c == '_'

/-- Letters, digits and underscores, not starting with a digit, and at least one of them. -/
def IsValid (name : String) : Prop :=
  name.toList.all isNameChar = true ∧ ∃ c, name.toList.head? = some c ∧ c.isDigit = false

def replaceForeign (c : Char) : Char := if isNameChar c then c else '_'

/-- An underscore stands for the empty name and goes in front of a digit. -/
def guardStart : List Char → List Char
  | [] => ['_']
  | c :: cs => if c.isDigit then '_' :: c :: cs else c :: cs

def sanitize (text : String) : String :=
  String.ofList (guardStart (text.toList.map replaceForeign))

/-- The name itself, then the name with `_2`, `_3` and so on. -/
def variant (name : String) : Nat → String
  | 0 => name
  | n + 1 => name ++ "_" ++ toString (n + 2)

/-- Among one more variants than there are taken names, one is free. -/
def fresh (wanted : String) (taken : List String) : String :=
  let name := sanitize wanted
  let variants := (List.range (taken.length + 1)).map (variant name)
  (variants.find? (!taken.contains ·)).getD name

/-- Every name chosen is taken for the next choice. -/
def freshAll : List String → List String → List String
  | [], _ => []
  | wanted :: rest, taken =>
    let name := fresh wanted taken
    name :: freshAll rest (name :: taken)

end BlockSketch.Identifier
