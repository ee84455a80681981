import RuleScan.Rule.Document
import RuleScan.Schema.Validate
import RuleScan.Settings.Basic
import RuleScan.Settings.Schema
import RuleScan.Yaml.Write

/-!
# Configuration documents

How the configurations of users and projects are read from documents and written.
-/

namespace RuleScan

open RuleScan.Yaml (Node Reading)

/-- Reads search settings. -/
def SearchSettings.read (n : Node) : Reading SearchSettings := do
  let fs ← Reading.fields n
  return {
    command := ← Reading.field fs "SearchConfig" "Command" "command" none
      (readSome (Reading.text "string"))
    strict := ← Reading.field fs "SearchConfig" "Strict" "strict" none (readSome Reading.bool) }

/-- Reads engine settings. -/
def EngineSettings.read (n : Node) : Reading EngineSettings := do
  let fs ← Reading.fields n
  let text (name key : String) : Reading (Option String) :=
    Reading.field fs "Config" name key none (readSome (Reading.text "string"))
  return {
    concurrency := ← Reading.field fs "Config" "Concurrency" "concurrency" none
      (readSome Reading.int)
    maxFileSize := ← text "MaxFileSize" "maxFileSize"
    suppressionMarker := ← text "SuppressionMarker" "suppressionMarker"
    timeout := ← text "Timeout" "timeout"
    search := ← Reading.field fs "Config" "Search" "search" none (readSome SearchSettings.read) }

/-- Reads report settings. -/
def ReportSettings.read (n : Node) : Reading ReportSettings := do
  let fs ← Reading.fields n
  let text (name key : String) : Reading (Option String) :=
    Reading.field fs "Config" name key none (readSome (Reading.text "string"))
  return {
    format := ← text "Format" "format"
    highlight := ← text "Highlight" "highlight"
    theme := ← text "Theme" "theme" }

/-- Search settings as a value. -/
def SearchSettings.toJson (s : SearchSettings) : Json :=
  .ofFields [("command", s.command.map .string), ("strict", s.strict.map .bool)]

/-- Engine settings as a value. -/
def EngineSettings.toJson (s : EngineSettings) : Json :=
  .ofFields [("concurrency", s.concurrency.map .int), ("maxFileSize", s.maxFileSize.map .string),
    ("suppressionMarker", s.suppressionMarker.map .string), ("timeout", s.timeout.map .string),
    ("search", s.search.map SearchSettings.toJson)]

/-- Report settings as a value. -/
def ReportSettings.toJson (s : ReportSettings) : Json :=
  .ofFields [("format", s.format.map .string), ("highlight", s.highlight.map .string),
    ("theme", s.theme.map .string)]

/-- The fields that tell the kind of a document. -/
def kindFields (kind : String) : List (String × Option Json) :=
  [("apiVersion", some (.string Schema.apiVersion)), ("kind", some (.string kind))]

namespace UserConfig

/-- The kind of a user's configuration. -/
def kind : String := "Configuration"

/-- Reads a user's configuration; what is not set has its default. -/
def read (n : Node) : Reading UserConfig := do
  let fs ← Reading.fields n
  let engine ← Reading.field fs "Config" "Engine" "engine" {} EngineSettings.read
  let report ← Reading.field fs "Config" "Report" "report" {} ReportSettings.read
  return { engine := engine.withDefaults, report := report.withDefaults }

/-- The validator of user configurations. -/
def validator : Schema.Validator := .of Schema.configSchema ""

/-- Reads a user's configuration from the text of a document, without checking the settings. -/
def decode (text : String) : Except Failure UserConfig := do
  Document.check validator text
  Document.read text {} read

/-- Loads a user's configuration from the text of a document. -/
def load (text : String) : Except Failure UserConfig := do
  let c ← decode text
  checked c c.problems

/-- A user's configuration as a value. -/
def toJson (c : UserConfig) : Json :=
  .ofFields ([("engine", some c.engine.toJson), ("report", some c.report.toJson)] ++
    kindFields kind)

/-- A user's configuration as a document. -/
def toYaml (c : UserConfig) : String := Yaml.write c.toJson

end UserConfig

namespace ProjectConfig

/-- The kind of a project's configuration. -/
def kind : String := "ProjectConfig"

/-- Reads a project's configuration. -/
def read (n : Node) : Reading ProjectConfig := do
  let fs ← Reading.fields n
  return {
    engine := ← Reading.field fs "ProjectConfig" "Engine" "engine" none
      (readSome EngineSettings.read)
    report := ← Reading.field fs "ProjectConfig" "Report" "report" none
      (readSome ReportSettings.read)
    spec := ← Reading.field fs "ProjectConfig" "Spec" "spec" "" (Reading.text "string")
    exclude := ← Reading.field fs "ProjectConfig" "Exclude" "exclude" [] readTexts }

/-- The validator of project configurations. -/
def validator : Schema.Validator := .of Schema.projectSchema ""

/-- Reads a project's configuration from the text of a document, without checking the settings. -/
def decode (text : String) : Except Failure ProjectConfig := do
  Document.check validator text
  Document.read text {} read

/-- Loads a project's configuration from the text of a document. -/
def load (text : String) : Except Failure ProjectConfig := do
  let c ← decode text
  checked c c.problems

/-- A project's configuration as a value. -/
def toJson (c : ProjectConfig) : Json :=
  .ofFields ([("engine", c.engine.map EngineSettings.toJson),
    ("report", c.report.map ReportSettings.toJson), ("spec", textField? c.spec),
    ("exclude", listField? (c.exclude.map .string))] ++ kindFields kind)

end ProjectConfig

end RuleScan
