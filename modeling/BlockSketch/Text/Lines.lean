namespace BlockSketch.Text

/-- Every mark ends a piece, and the piece after the last mark may be empty. -/
def split (mark : Char) (text : String) : List String :=
  (text.toList.splitOn mark).map String.ofList

def lines (text : String) : List String := split '\n' text

/-- Taking a text apart into lines loses nothing. -/
theorem intercalate_lines (text : String) : "\n".intercalate (lines text) = text := by
  have hid : String.toList ∘ String.ofList = id := funext fun _ => String.toList_ofList
  apply String.toList_injective
  rw [String.toList_intercalate, lines, split, List.map_map, hid, List.map_id]
  exact List.intercalate_splitOn '\n'

/-- Each line ends with a line feed, so nothing written after it continues it. -/
def endLines : List String → String
  | [] => ""
  | line :: rest => line ++ "\n" ++ endLines rest

def spaces (width : Int) : String :=
  String.ofList (List.replicate width.toNat ' ')

/-- An empty line stays empty, and a negative width indents nothing. -/
def indentLine (width : Int) (line : String) : String :=
  if line = "" then "" else spaces width ++ line

def indent (width : Int) (text : List String) : List String :=
  text.map (indentLine width)

def dropTrailingFeeds (text : String) : String :=
  String.ofList (text.toList.reverse.dropWhile (· = '\n')).reverse

/-- The characters after which a new line begins when a text is shown. -/
def breaksLine (c : Char) : Bool :=
  [0x0a, 0x0b, 0x0c, 0x0d, 0x1c, 0x1d, 0x1e, 0x85, 0x2028, 0x2029].contains c.toNat

/-- A carriage return and the line feed after it are one break. -/
def breakCount : List Char → Nat
  | [] => 0
  | '\r' :: '\n' :: cs => breakCount cs + 1
  | c :: cs => breakCount cs + if breaksLine c then 1 else 0

/-- Text after the last break is a line of its own. -/
def lineCount (text : String) : Nat :=
  breakCount text.toList + if text.toList.getLast?.any (!breaksLine ·) then 1 else 0

end BlockSketch.Text
