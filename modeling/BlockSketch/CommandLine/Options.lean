import BlockSketch.Board
import BlockSketch.Finding
import BlockSketch.Text.DecimalDigit
import BlockSketch.Text.Lines

namespace BlockSketch.CommandLine

inductive Flag
  | help | moduleName | programName | output | board | strict | showText
  deriving DecidableEq

namespace Flag

def takesValue : Flag → Bool
  | moduleName | programName | output | board => true
  | help | strict | showText => false

/-- The name of a flag in messages. -/
def title : Flag → String
  | help => "-h/--help"
  | moduleName => "--module"
  | programName => "--program"
  | output => "--output"
  | board => "--board"
  | strict => "--strict"
  | showText => "--stdout"

/-- All spellings, in the order in which messages list them. -/
def spellings : List (String × Flag) :=
  [("-h", help), ("--help", help), ("--module", moduleName), ("--program", programName),
    ("--output", output), ("--board", board), ("--strict", strict), ("--stdout", showText)]

def ofSpelling? (spelling : String) : Option Flag := spellings.lookup spelling

end Flag

inductive Misuse
  | ambiguous (word : String) (spellings : List String)
  | valueMissing (flag : Flag)
  | valueUnwanted (flag : Flag) (value : String)
  | unknownBoard (key : String)
  | unrecognized (words : List String)
  deriving DecidableEq

def Misuse.message : Misuse → String
  | ambiguous word spellings =>
    "ambiguous option: " ++ word ++ " could match " ++ ", ".intercalate spellings
  | valueMissing flag => "argument " ++ flag.title ++ ": expected one argument"
  | valueUnwanted flag value =>
    "argument " ++ flag.title ++ ": ignored explicit argument " ++ Text.quoted value
  | unknownBoard key =>
    "argument " ++ Flag.board.title ++ ": invalid choice: " ++ Text.quoted key ++ " (choose from " ++
      ", ".intercalate (Board.sortedKeys.map Text.quoted) ++ ")"
  | unrecognized words => "unrecognized arguments: " ++ " ".intercalate words

/-- A word that is no flag, the end of flags, or a flag: on its own, with a value after an equals
sign, as one letter with others behind it, or one that there is not. -/
inductive Word
  | plain (text : String)
  | separator
  | bare (flag : Flag)
  | valued (flag : Flag) (value : String)
  | clustered (flag : Flag) (rest : String)
  | unknown (text : String)
  deriving DecidableEq

namespace Word

/-- What stands before the first equals sign and what stands after it, if there is one. -/
def parts (text : List Char) : String × Option String :=
  (String.ofList (text.takeWhile (· ≠ '=')),
    match text.dropWhile (· ≠ '=') with
    | [] => none
    | _ :: value => some (String.ofList value))

def attach (flag : Flag) : Option String → Word
  | none => .bare flag
  | some value => .valued flag value

/-- Digits with at most one point among them, and a digit after the point. -/
def isNumber (text : List Char) : Bool :=
  match text.dropWhile Text.isDecimalDigit with
  | [] => !text.isEmpty
  | '.' :: digits => !digits.isEmpty && digits.all Text.isDecimalDigit
  | _ => false

/-- A dash and a number, perhaps with a line feed behind it. -/
def isNegativeNumber : List Char → Bool
  | '-' :: number => isNumber (if number.getLast? = some '\n' then number.dropLast else number)
  | _ => false

/-- Words that look like no flag are plain, also when they start with a dash. -/
def withoutFlag (text : List Char) : Word :=
  if isNegativeNumber text || text.contains ' ' then .plain (String.ofList text)
  else .unknown (String.ofList text)

/-- A long flag may be cut short where only one flag starts so. -/
def ofLong (text : List Char) : Except Misuse Word :=
  let (spelled, value) := parts text
  match Flag.ofSpelling? spelled with
  | some flag => .ok (attach flag value)
  | none =>
    match Flag.spellings.filter fun (spelling, _) => spelled.toList.isPrefixOf spelling.toList with
    | [] => .ok (withoutFlag text)
    | [(_, flag)] => .ok (attach flag value)
    | several => .error (.ambiguous (String.ofList text) (several.map Prod.fst))

/-- What stands behind a letter is more letters, also after an equals sign. -/
def ofShort (letter : Char) (rest text : List Char) : Word :=
  match Flag.ofSpelling? (String.ofList ['-', letter]) with
  | none => withoutFlag text
  | some flag =>
    match rest with
    | [] => .bare flag
    | ['='] => .valued flag ""
    | '=' :: letters => .clustered flag (String.ofList letters)
    | letters => .clustered flag (String.ofList letters)

def ofChars (text : List Char) : Except Misuse Word :=
  match text with
  | '-' :: '-' :: _ => ofLong text
  | '-' :: letter :: rest => .ok (ofShort letter rest text)
  | _ => .ok (.plain (String.ofList text))

/-- After a separator every word is plain. -/
def ofArguments : List String → Except Misuse (List Word)
  | [] => .ok []
  | text :: rest => do
    if text = "--" then pure (.separator :: rest.map .plain)
    else
      let word ← ofChars text.toList
      let words ← ofArguments rest
      pure (word :: words)

end Word

/-- An option that was given, but whose value was dropped, has none. -/
structure Options where
  moduleName : Option String
  programName : Option String
  output : Option String
  board : Option Board
  strict : Bool
  showText : Bool
  deriving DecidableEq

namespace Options

def standard : Options :=
  { moduleName := some "examples.spi_shift_register"
    programName := some "program"
    output := some "scratchpad/generated_sketch/generated_sketch.ino"
    board := some .uno
    strict := false
    showText := false }

def mode (options : Options) : Mode := if options.strict then .strict else .warn

end Options

/-- Why the words give no options. -/
inductive Stop
  | helpWanted
  | misuse (misuse : Misuse)
  deriving DecidableEq

namespace Options

/-- A separator in the place of a value is dropped. -/
def kept? (value : String) : Option String := if value = "--" then none else some value

def withBoard (options : Options) : Option String → Except Stop Options
  | none => .ok { options with board := none }
  | some key =>
    match Board.find? key with
    | some board => .ok { options with board := some board }
    | none => .error (.misuse (.unknownBoard key))

def withValue (options : Options) (flag : Flag) (value : String) : Except Stop Options :=
  match flag with
  | .moduleName => .ok { options with moduleName := kept? value }
  | .programName => .ok { options with programName := kept? value }
  | .output => .ok { options with output := kept? value }
  | .board => options.withBoard (kept? value)
  | flag => .error (.misuse (.valueUnwanted flag value))

def withFlag (options : Options) : Flag → Except Stop Options
  | .help => .error .helpWanted
  | .strict => .ok { options with strict := true }
  | .showText => .ok { options with showText := true }
  | flag => .error (.misuse (.valueMissing flag))

/-- Only help has a letter. What follows the last of them would be its value, but it takes none. -/
def ofCluster (flag : Flag) (letters : List Char) : Stop :=
  match letters.dropWhile (· = 'h') with
  | [] => .helpWanted
  | value => .misuse (.valueUnwanted flag (String.ofList value))

/-- Takes the words in turn. Words that belong to no flag are gathered and complained about last. -/
def take (options : Options) (foreign : List String) : List Word → Except Stop Options
  | [] => if foreign.isEmpty then .ok options else .error (.misuse (.unrecognized foreign))
  | .plain text :: rest => take options (foreign ++ [text]) rest
  | .unknown text :: rest => take options (foreign ++ [text]) rest
  | .separator :: rest => take options (foreign ++ ["--"]) rest
  | .clustered flag letters :: _ => .error (ofCluster flag letters.toList)
  | .valued flag value :: rest => do take (← options.withValue flag value) foreign rest
  | .bare flag :: .plain value :: rest =>
    if flag.takesValue then do take (← options.withValue flag value) foreign rest
    else do take (← options.withFlag flag) (foreign ++ [value]) rest
  | .bare flag :: rest => do take (← options.withFlag flag) foreign rest

def ofArguments (arguments : List String) : Except Stop Options :=
  match Word.ofArguments arguments with
  | .error misuse => .error (.misuse misuse)
  | .ok words => take standard [] words

end Options

end BlockSketch.CommandLine
