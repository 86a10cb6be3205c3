namespace BlockSketch

/-- A word for how grave a finding is. It is carried along; only the mode of a report decides. -/
structure Severity where
  label : String
  deriving DecidableEq

def Severity.error : Severity := ⟨"error"⟩

def Severity.warning : Severity := ⟨"warning"⟩

structure Finding where
  code : String
  severity : Severity
  message : String
  location : String
  suggestion : Option String
  deriving DecidableEq

namespace Finding

def conflict (pin label wanted existing location : String) : Finding :=
  { code := "PIN_CONFLICT"
    severity := .warning
    message := "Pin " ++ pin ++ " is needed for " ++ label ++ " as pin " ++ wanted ++
      ". Already used as " ++ existing ++ "."
    location
    suggestion := "Pick a pin other than " ++ pin ++ " or remove the block that uses it as " ++
      existing ++ "." }

def unknownPin (pin label boardName location : String) : Finding :=
  { code := "UNKNOWN_PIN"
    severity := .warning
    message := "Pin " ++ pin ++ " is needed for " ++ label ++ " but " ++ boardName ++
      " has no such pin."
    location
    suggestion := "Pick one of the board's digital pins." }

def text (finding : Finding) : String :=
  let advice := finding.suggestion.getD ""
  finding.code ++ " @ " ++ finding.location ++ ": " ++ finding.message ++
    if advice = "" then "" else " " ++ advice

end Finding

inductive Mode
  | warn | strict
  deriving DecidableEq

namespace Mode

def ofText? : String → Option Mode
  | "warn" => some warn
  | "strict" => some strict
  | _ => none

/-- For a report, any other text is as good as a warning mode. -/
def lenient (text : String) : Mode := (ofText? text).getD warn

def severity : Mode → Severity
  | warn => .warning
  | strict => .error

end Mode

structure Report where
  errors : List Finding
  warnings : List Finding
  deriving DecidableEq

namespace Report

/-- The mode decides how severe every finding is, whatever it was before. -/
def of (findings : List Finding) (mode : Mode) : Report :=
  let routed := findings.map fun finding => { finding with severity := mode.severity }
  match mode with
  | .strict => ⟨routed, []⟩
  | .warn => ⟨[], routed⟩

def counted (findings : List Finding) (noun : String) : List String :=
  if findings.isEmpty then [] else [toString findings.length ++ " " ++ noun]

def summary (report : Report) : String :=
  match counted report.errors "error(s)" ++ counted report.warnings "warning(s)" with
  | [] => "No findings."
  | parts => ", ".intercalate parts ++ "."

/-- Errors refuse; without errors every warning is given, repeated ones again. -/
def settle (report : Report) : Except (List Finding) (List String) :=
  if report.errors.isEmpty then .ok (report.warnings.map Finding.text) else .error report.errors

/-- One line for the number of errors and one for each of them. -/
def refusal (errors : List Finding) : String :=
  "\n".intercalate ((toString errors.length ++ " error(s).") :: errors.map Finding.text)

end Report

end BlockSketch
