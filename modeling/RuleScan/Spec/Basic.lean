import RuleScan.Profile.Document
import RuleScan.Report.Basic
import RuleScan.Yaml.Write

/-!
# Specifications

The specification of a project says which profiles it uses, what it adds to them, what is left out
of scans and how many findings it accepts.
-/

namespace RuleScan

/-- The specification of a project. -/
structure Spec where
  /-- The names of the profiles in use. -/
  profiles : List String := ["zero-preguica"]
  /-- The rules that the project adds. -/
  customRules : List Rule := []
  /-- Globs of files that are left out. -/
  exclusions : List String := []
  thresholds : Thresholds := Thresholds.default
  deriving Inhabited

/-- Thresholds as a value. -/
def Thresholds.toJson (t : Thresholds) : Json :=
  .object [("critical", .int t.critical), ("high", .int t.high), ("medium", .int t.medium),
    ("low", .int t.low)]

namespace Spec

/-- The name of the specification at the top of a project. -/
def fileName : String := "GUARDRAILS.md"

/-- The path of the specification of a project. -/
def defaultPath (root : String) : String := Path.join [root, fileName]

/-- A specification as a value. -/
def toJson (s : Spec) : Json :=
  .object [("profiles", Json.strings s.profiles),
    ("customRules", .array (s.customRules.map Rule.toJson)),
    ("exclusions", Json.strings s.exclusions), ("thresholds", s.thresholds.toJson)]

/-- A specification as a YAML document. -/
def toYaml (s : Spec) : String := Yaml.write s.toJson

end Spec

end RuleScan
