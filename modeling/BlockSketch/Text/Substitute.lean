namespace BlockSketch.Text

/-- `skip` characters still belong to the occurrence that was replaced last. -/
def substituteFrom (phrase replacement : List Char) : Nat → List Char → List Char
  | _, [] => []
  | skip + 1, _ :: cs => substituteFrom phrase replacement skip cs
  | 0, c :: cs =>
    if phrase.isPrefixOf (c :: cs) then
      replacement ++ substituteFrom phrase replacement (phrase.length - 1) cs
    else c :: substituteFrom phrase replacement 0 cs

def substitute (phrase replacement text : String) : String :=
  String.ofList (substituteFrom phrase.toList replacement.toList 0 text.toList)

end BlockSketch.Text
