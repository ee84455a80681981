import RuleScan.Json.Write
import RuleScan.Report.Basic
import RuleScan.Rule.Document

/-!
# Reports as SARIF logs

The exchange format of analysis tools: a log tells which build of the tool wrote it and lists the
rules that were broken, in the order of their ids, and one result for each finding.
-/

namespace RuleScan

/-- What is known about a build. -/
structure Build where
  /-- The release; empty for a development build. -/
  release : String := ""
  revision : String := "unknown"
  compiler : String := ""
  system : String := ""
  machine : String := ""
  date : String := ""
  deriving Repr, DecidableEq, Inhabited

namespace Build

/-- The release, or the revision of a development build. -/
def version (b : Build) : String := if b.release = "" then b.revision else b.release

/-- A line that describes the build. -/
def text (b : Build) : String :=
  b.version ++ " (" ++ b.compiler ++ ", " ++ b.system ++ "/" ++ b.machine ++ ")" ++
    (if b.date = "" then "" else " built " ++ b.date)

end Build

namespace Sarif

/-- How serious a result is. -/
inductive Level where
  | error
  | warning
  | note
  deriving Repr, DecidableEq, Inhabited

/-- The word for a level. -/
def Level.name : Level → String
  | .error => "error"
  | .warning => "warning"
  | .note => "note"

/-- The level of a severity. -/
def Level.ofSeverity : Severity → Level
  | .critical | .high => .error
  | .medium => .warning
  | _ => .note

/-- A rule of a log. -/
structure RuleEntry where
  id : String
  description : String
  cwe : String
  help : Option String
  deriving Repr, DecidableEq, Inhabited

/-- A result of a log. -/
structure Result where
  rule : String
  level : Level
  message : String
  file : String
  line : Int
  column : Int
  snippet : Text.Bytes
  severity : Severity
  category : String
  confidence : Confidence
  deriving Repr, DecidableEq, Inhabited

/-- A log. -/
structure Log where
  version : String
  rules : List RuleEntry
  results : List Result
  deriving Repr, DecidableEq, Inhabited

/-- The rule that a finding tells of. -/
def RuleEntry.ofFinding (f : Finding) : RuleEntry :=
  { id := f.rule, description := f.message, cwe := f.cweId, help := f.references.head? }

/-- The result of a finding. -/
def Result.ofFinding (f : Finding) : Result :=
  { rule := f.rule
    level := .ofSeverity f.severity
    message := f.message
    file := f.file
    line := f.line
    column := f.column
    snippet := f.snippet
    severity := f.severity
    category := f.category
    confidence := f.confidence }

/-- The first finding of each rule, in the order of the findings. -/
def firstOfRules (findings : List Finding) : List Finding :=
  (findings.foldl (fun (seen : List Finding) f =>
    if seen.any (·.rule = f.rule) then seen else f :: seen) []).reverse

/-- The rules of findings, each once, in the order of their ids. -/
def rulesOf (findings : List Finding) : List RuleEntry :=
  ((firstOfRules findings).map RuleEntry.ofFinding).mergeSort fun a b => a.id ≤ b.id

/-- The log of a report. -/
def Log.ofReport (b : Build) (r : Report) : Log :=
  { version := b.version
    rules := rulesOf r.allFindings
    results := r.allFindings.map Result.ofFinding }

/-- A text where the format wants a message. -/
def wording (text : Json) : Json := .object [("text", text)]

/-- A rule as a value. -/
def RuleEntry.toJson (e : RuleEntry) : Json :=
  .ofFields [
    ("properties", if e.cwe = "" then none else some (.object [("cwe", .string e.cwe)])),
    ("shortDescription", some (wording (.string e.description))),
    ("id", some (.string e.id)),
    ("helpUri", (e.help.filter (· ≠ "")).map .string)]

/-- The place of a result as a value. -/
def Result.region (r : Result) : Json :=
  .ofFields [
    ("snippet", if r.snippet.isEmpty then none else some (wording (.bytes r.snippet))),
    ("startLine", some (.int r.line)),
    ("startColumn", if r.column = 0 then none else some (.int r.column))]

/-- A result as a value. -/
def Result.toJson (r : Result) : Json :=
  .object [
    ("properties", .object [("category", .string r.category),
      ("confidence", .string r.confidence.name), ("severity", .string r.severity.name)]),
    ("message", wording (.string r.message)), ("ruleId", .string r.rule),
    ("level", .string r.level.name),
    ("locations", .array [.object [("physicalLocation", .object [
      ("artifactLocation", .object [("uri", .string r.file)]), ("region", r.region)])]])]

/-- A log as a value. -/
def Log.toJson (l : Log) : Json :=
  let driver := Json.ofFields [("name", some (.string "guardrail")),
    ("version", textField? l.version),
    ("informationUri", some (.string "https://github.com/macropower/guardrail")),
    ("rules", some (.array (l.rules.map RuleEntry.toJson)))]
  .object [("version", .string "2.1.0"),
    ("$schema", .string "https://json.schemastore.org/sarif-2.1.0.json"),
    ("runs", .array [.object [("tool", .object [("driver", driver)]),
      ("results", .array (l.results.map Result.toJson))]])]

/-- A report as a log. -/
def render (b : Build) (r : Report) : String := (Log.ofReport b r).toJson.pretty ++ "\n"

end Sarif

end RuleScan
