import PlaybookLint.Finding
import PlaybookLint.Json
import PlaybookLint.Text.Basic

/-!
# Reports

Reports on some findings in three formats: workflow commands, one line per finding, which a build
service shows beside the source; a JSON document with the findings and their counts, for programs;
and a text in colour for people, with the findings of a file together under its name.

## Main definitions

* `count`, `reaches`, `shownFile` - what a report is made of, whatever its format.
* `Annotation.escapeData`, `Annotation.escapeProperty` - texts in which nothing ends a line, or a
  property.
* `Annotation.annotation` - the command for a finding.
* `Structured.document` - a report as a value.
* `Terminal.FileGroup`, `Terminal.groups` - the findings by file.
* `render` - the text of a report.
-/

namespace PlaybookLint

/-- The format of a report. -/
inductive ReportFormat where
  | text
  | json
  /-- Workflow commands. -/
  | annotations
  deriving Repr, DecidableEq, Inhabited

namespace ReportFormat

/-- The name of a format. -/
def name : ReportFormat → String
  | .text => "text"
  | .json => "json"
  | .annotations => "github"

/-- The format with a name. -/
def ofName? (name : String) : Option ReportFormat :=
  [.text, .json, .annotations].find? fun f => f.name = name

end ReportFormat

namespace Report

/-- How many findings have a severity. -/
def count (severity : Severity) (findings : List Finding) : Nat :=
  findings.countP fun f => f.severity = severity

/-- Whether some finding is at least as serious as a threshold. -/
def reaches (threshold : Severity) (findings : List Finding) : Bool :=
  findings.any fun f => threshold.atLeast f.severity

/-- The file of a finding as it is shown: seen from the root of the project. -/
def shownFile (root : Path) (f : Finding) : String :=
  (f.file.relativeTo root).text

end Report

end PlaybookLint

namespace PlaybookLint.Report.Annotation

/-! ## Annotations -/

/-- A character as it stands in the data of a command. -/
def escapeDataChar (c : Char) : List Char :=
  if c = '%' then ['%', '2', '5']
  else if c = '\r' then ['%', '0', 'D']
  else if c = '\n' then ['%', '0', 'A']
  else [c]

/-- A character as it stands in a property of a command. -/
def escapePropertyChar (c : Char) : List Char :=
  if c = ':' then ['%', '3', 'A']
  else if c = ',' then ['%', '2', 'C']
  else escapeDataChar c

/-- A text as the data of a command. -/
def escapeData (text : String) : String :=
  String.ofList (text.toList.flatMap escapeDataChar)

/-- A text as a property of a command. -/
def escapeProperty (text : String) : String :=
  String.ofList (text.toList.flatMap escapePropertyChar)

/-- The name of a command for findings of a severity. -/
def level : Severity → String
  | .error => "error"
  | .warning => "warning"
  | .info => "notice"

/-- The command for a finding. -/
def annotation (root : Path) (f : Finding) : String :=
  "::" ++ level f.severity ++ " file=" ++ escapeProperty (shownFile root f) ++ ",line=" ++
    toString f.line ++ ",title=" ++ escapeProperty f.tag ++ "::" ++ escapeData f.message

/-- The text of a report. -/
def render (root : Path) (findings : List Finding) : String :=
  String.join (findings.map fun f => annotation root f ++ "\n")

end PlaybookLint.Report.Annotation

namespace PlaybookLint.Report.Structured

/-! ## Structured reports -/

/-- A finding as a value. -/
def ofFinding (root : Path) (f : Finding) : Json :=
  .object [
    ("file", .string (shownFile root f)),
    ("line", .number f.line),
    ("rule", .string f.rule),
    ("tag", .string f.tag),
    ("severity", .string f.severity.name),
    ("message", .string f.message)]

/-- The counts of some findings as a value. -/
def summary (findings : List Finding) : Json :=
  .object [
    ("errors", .number (count .error findings)),
    ("warnings", .number (count .warning findings)),
    ("info", .number (count .info findings))]

/-- A report as a value. -/
def document (root : Path) (findings : List Finding) : Json :=
  .object [
    ("findings", .array (findings.map (ofFinding root))),
    ("summary", summary findings)]

/-- The text of a report. -/
def render (root : Path) (findings : List Finding) : String :=
  (document root findings).pretty ++ "\n"

end PlaybookLint.Report.Structured

namespace PlaybookLint.Report.Terminal

/-! ## Reports for people -/

/-! ### Styles -/

/-- The control sequence with a number. -/
def control (n : Nat) : String :=
  "\x1b[" ++ toString n ++ "m"

/-- A text in a colour with this number. -/
def coloured (n : Nat) (text : String) : String :=
  control n ++ text ++ control 39

/-- The number of the colour of a severity. -/
def colour : Severity → Nat
  | .error => 31
  | .warning => 33
  | .info => 34

/-- A text in bold type. -/
def bold (text : String) : String :=
  control 1 ++ text ++ control 0

/-- A text in faint type. -/
def faint (text : String) : String :=
  control 2 ++ text ++ control 0

/-- A text in the style of a severity: in its colour, and in bold type unless it only informs. -/
def styled (severity : Severity) (text : String) : String :=
  match severity with
  | .info => coloured (colour .info) text
  | severity => bold (coloured (colour severity) text)

/-- The sign of a severity. -/
def sign : Severity → String
  | .error => "✗"
  | .warning => "⚠"
  | .info => "ℹ"

/-! ### Groups -/

/-- The findings of a file. -/
structure FileGroup where
  file : String
  findings : List Finding
  deriving Repr, DecidableEq, Inhabited

/-- The groups with one more finding at the end of the group of its file. -/
def addToGroups (file : String) (f : Finding) : List FileGroup → List FileGroup
  | [] => [⟨file, [f]⟩]
  | group :: groups =>
    if file < group.file then ⟨file, [f]⟩ :: group :: groups
    else if file = group.file then ⟨file, group.findings ++ [f]⟩ :: groups
    else group :: addToGroups file f groups

/-- The findings by file, the files in order. -/
def groups (root : Path) (findings : List Finding) : List FileGroup :=
  findings.foldl (fun groups f => addToGroups (shownFile root f) f groups) []

/-- The more serious of two severities. -/
def worse (a b : Severity) : Severity :=
  if a.rank ≤ b.rank then b else a

/-- The most serious severity of a group. -/
def FileGroup.worst (group : FileGroup) : Severity :=
  group.findings.foldl (fun worst f => worse worst f.severity) .info

/-! ### Lines -/

/-- A line across the report. -/
def ruler : String :=
  "  " ++ faint ("".pushn '━' 50)

/-- The line of a finding. -/
def findingLine (f : Finding) : String :=
  "      L" ++ Text.padRight 4 (toString f.line) ++ " " ++ styled f.severity f.tag ++ " " ++
    f.message

/-- The line above the findings of a file. -/
def header (group : FileGroup) : String :=
  "  " ++ coloured (colour group.worst) (sign group.worst) ++ " " ++ bold group.file ++ " " ++
    faint ("(" ++ toString group.findings.length ++ ")")

/-- The lines about a file. -/
def groupLines (group : FileGroup) : List String :=
  "" :: header group :: group.findings.map findingLine

/-- The count of findings of a severity in words; none if there are no such findings. -/
def tally (severity : Severity) (unit : String) (findings : List Finding) : Option String :=
  let n := count severity findings
  if n = 0 then none else some (styled severity (toString n ++ " " ++ unit))

/-- The counts of all severities in words. -/
def tallies (findings : List Finding) : List String :=
  [tally .error "errors" findings, tally .warning "warnings" findings,
    tally .info "info" findings].filterMap id

/-- The lines of a report. -/
def lines (root : Path) (findings : List Finding) : List String :=
  if findings.isEmpty then ["", ruler, "  " ++ coloured 32 "no issues found", ""]
  else
    let groups := groups root findings
    groups.flatMap groupLines ++ ["", ruler,
      "  " ++ ", ".intercalate (tallies findings) ++ " across " ++
        bold (toString groups.length) ++ " files",
      ruler, ""]

/-- The text of a report. -/
def render (root : Path) (findings : List Finding) : String :=
  String.join ((lines root findings).map (· ++ "\n"))

end PlaybookLint.Report.Terminal

namespace PlaybookLint.Report

/-! ## Formats -/

/-- The text of a report in a format. -/
def render (format : ReportFormat) (root : Path) (findings : List Finding) : String :=
  match format with
  | .text => Terminal.render root findings
  | .json => Structured.render root findings
  | .annotations => Annotation.render root findings

end PlaybookLint.Report
