import RuleScan.Schema.Record

/-!
# The schemas of configuration documents

There are two kinds of documents: the configuration of a user and that of a project, which has
the same settings and some of its own.  Both say their kind and the version they are written for.
-/

namespace RuleScan.Schema

/-- Where the settings of searches are defined. -/
def engineHome : String := "github.com/macropower/guardrail/pkg/engine"

/-- Where the settings of reports are defined. -/
def reportHome : String := "github.com/macropower/guardrail/pkg/report"

/-- Where what both kinds of documents share is defined. -/
def documentHome : String := "github.com/macropower/guardrail/api/v1beta1"

/-- The version of configuration documents. -/
def apiVersion : String := "guardrail.jacobcolvin.com/v1beta1"

/-- The settings of searches. -/
def engineRecord : Record :=
  let inType (field : String) : String := engineHome ++ ".Config." ++ field
  { name := "EngineConfig"
    source := engineHome ++ ".Config"
    note := "Config contains engine settings read from configuration files."
    properties := [
      { key := "concurrency", title := "Concurrency", kind := .whole
        source := inType "Concurrency", limits := [("minimum", .int 0)]
        note := "Concurrency bounds concurrent searches. Zero uses the CPU count." },
      { key := "maxFileSize", title := "Max File Size", source := inType "MaxFileSize"
        note := "MaxFileSize is the size above which files are skipped, e.g. \"1MiB\"." },
      { key := "suppressionMarker", title := "Suppression Marker"
        source := inType "SuppressionMarker"
        note := "SuppressionMarker drops matched lines containing it." },
      { key := "timeout", title := "Timeout", source := inType "Timeout"
        note := "Timeout bounds a whole evaluation, e.g. \"2m\". Zero disables it." },
      { key := "search", title := "Search", kind := .record "SearchConfig"
        source := inType "Search"
        note := "Search configures how patterns are searched." }] }

/-- The settings of reports. -/
def reportRecord : Record :=
  let inType (field : String) : String := reportHome ++ ".Config." ++ field
  { name := "ReportConfig"
    source := reportHome ++ ".Config"
    note := "Config contains report settings read from configuration files."
    properties := [
      { key := "format", title := "Format", source := inType "Format"
        note := "Format is text, json, or sarif. Empty picks text for terminals and\n" ++
          "json otherwise." },
      { key := "highlight", title := "Highlight", source := inType "Highlight"
        note := "Highlight is the chroma style used for snippets in text output.\n" ++
          "Empty disables highlighting." },
      { key := "theme", title := "Theme", source := inType "Theme"
        note := "Theme is the chroma style that report colors are derived from." }] }

/-- The choice of a search program. -/
def searchRecord : Record :=
  let inType (field : String) : String := engineHome ++ ".SearchConfig." ++ field
  { name := "SearchConfig"
    source := engineHome ++ ".SearchConfig"
    note := "SearchConfig selects the [Searcher]."
    properties := [
      { key := "command", title := "Command", source := inType "Command"
        note := "Command is an external ripgrep-compatible command line. When empty,\n" ++
          "files are searched in-process." },
      { key := "strict", title := "Strict", kind := .flag, source := inType "Strict"
        note := "Strict makes an unavailable search fail the evaluation." }] }

/-- The properties that tell the kind of a document. -/
def kindProperties (kind : String) : List Property :=
  [{ key := "apiVersion", title := "API Version"
     source := documentHome ++ ".TypeMeta.APIVersion"
     note := "APIVersion specifies the API version for this configuration."
     allowed := [apiVersion] },
   { key := "kind", title := "Kind"
     source := documentHome ++ ".TypeMeta.Kind"
     note := "Kind defines the type of configuration."
     allowed := [kind] }]

/-- The configuration of a user. -/
def configRecord : Record :=
  let home := documentHome ++ "/configs.Config"
  { name := "ConfigsConfig"
    source := home
    note := "Config is the user-level guardrail configuration."
    properties := [
      { key := "engine", title := "Engine", kind := .record "EngineConfig"
        source := home ++ ".Engine", note := "Engine configures evaluation." },
      { key := "report", title := "Report", kind := .record "ReportConfig"
        source := home ++ ".Report", note := "Report configures report rendering." }] ++
      kindProperties "Configuration" }

/-- The configuration of a project. -/
def projectRecord : Record :=
  let home := documentHome ++ "/projectconfigs.ProjectConfig"
  { name := "ProjectConfig"
    source := home
    note := "ProjectConfig is repository-level configuration."
    properties := [
      { key := "engine", title := "Engine", kind := .record "EngineConfig"
        source := home ++ ".Engine"
        note := "Engine overrides the user engine configuration." },
      { key := "report", title := "Report", kind := .record "ReportConfig"
        source := home ++ ".Report"
        note := "Report overrides the user report configuration." },
      { key := "spec", title := "Spec", source := home ++ ".Spec"
        note := "Spec is the specification document, relative to the configuration file.\n" ++
          "Defaults to GUARDRAILS.md." },
      { key := "exclude", title := "Exclude", kind := .texts, source := home ++ ".Exclude"
        note := "Exclude lists globs removed from every scan, in addition to the\n" ++
          "specification document's exclusions." }] ++
      kindProperties "ProjectConfig" }

/-- The records that configuration documents are made of. -/
def settingsRecords : List Record := [engineRecord, reportRecord, searchRecord]

/-- The published schema of user configurations. -/
def configSchema : Json :=
  document published settingsRecords (documentHome ++ "/configs") configRecord

/-- The published schema of project configurations. -/
def projectSchema : Json :=
  document published settingsRecords (documentHome ++ "/projectconfigs") projectRecord

end RuleScan.Schema
