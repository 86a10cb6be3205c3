import BlockSketch.Draft
import BlockSketch.Text.Lines

namespace BlockSketch.Draft

def includeLines (draft : Draft) : List String :=
  if draft.includes.isEmpty then [] else draft.includes.values ++ [""]

def helperLines (draft : Draft) : List String :=
  draft.helpers.values.flatMap fun helper => Text.lines helper.body ++ [""]

def setupLines (draft : Draft) : List String :=
  ["void setup() \x7b"] ++ Text.indent 2 draft.orderedSetups ++ ["\x7d", ""]

/-- Line feeds at the end of the loop's code make no lines of their own. -/
def loopLines (loopCode : String) : List String :=
  let body :=
    if loopCode = "" then [] else Text.lines (Text.dropTrailingFeeds loopCode)
  ["void loop() \x7b"] ++ Text.indent 2 body ++ ["\x7d"]

def layout (draft : Draft) (loopCode : String) : String :=
  Text.endLines (draft.includeLines ++ draft.helperLines ++ draft.setupLines ++ loopLines loopCode)

end BlockSketch.Draft
