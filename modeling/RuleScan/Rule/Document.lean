import RuleScan.Json.Basic
import RuleScan.Rule.Basic

/-!
# Rules in documents

How rules are read from YAML documents, and the plain values that they are written as.
-/

namespace RuleScan

open RuleScan.Yaml (Node Reading)

/-- A list of texts. -/
def readTexts (n : Node) : Reading (List String) := Reading.list "" (Reading.text "string") n

/-- An optional value: a field that is there and not null. -/
def readSome {α : Type} (read : Node → Reading α) (n : Node) : Reading (Option α) := do
  return some (← read n)

/-- A pattern as it is written. -/
def Pattern.read (n : Node) : Reading Pattern := do
  let fs ← Reading.fields n
  let kind ← Reading.field fs "Pattern" "Kind" "kind" "" (Reading.text "rule.Kind")
  let value ← Reading.field fs "Pattern" "Value" "value" "" (Reading.text "string")
  let flags ← Reading.field fs "Pattern" "Flags" "flags" "" (Reading.text "string")
  return ⟨.ofName kind, value, flags⟩

/-- The pattern that an element without content stands for. -/
def Pattern.none : Pattern := ⟨.ofName "", "", ""⟩

/-- The keys of a pattern document. -/
def PatternDocument.read (n : Node) : Reading PatternDocument := do
  let fs ← Reading.fields n
  let patterns (name key : String) : Reading (Option (List Pattern)) :=
    Reading.field fs "rawSource" name key Option.none
      (readSome (Reading.list Pattern.none Pattern.read))
  let texts (name key : String) : Reading (Option (List String)) :=
    Reading.field fs "rawSource" name key Option.none (readSome readTexts)
  return {
    anyOf := ← patterns "AnyOf" "anyOf"
    allOf := ← patterns "AllOf" "allOf"
    identifiers := ← texts "Identifiers" "identifiers"
    expressions := ← texts "Expressions" "expressions"
    sqlTables := ← texts "SQLTables" "sql_tables"
    apiRoutes := ← texts "APIRoutes" "api_routes" }

/-- The patterns of a rule, in either dialect. -/
def PatternSpec.read (n : Node) : Reading PatternSpec := do
  return PatternSource.normalize (some (← PatternDocument.read n).source)

/-- A scope. -/
def Scope.read (n : Node) : Reading Scope := do
  let fs ← Reading.fields n
  let texts (name key : String) : Reading (Option (List String)) :=
    Reading.field fs "Scope" name key none (readSome readTexts)
  return {
    includes := ← texts "Include" "include"
    excludes := ← texts "Exclude" "exclude"
    condition := ← Reading.field fs "Scope" "When" "when" "" (Reading.text "string") }

/-- A rule as it is written. -/
def Rule.read (n : Node) : Reading Rule := do
  let fs ← Reading.fields n
  let text (name key : String) : Reading String :=
    Reading.field fs "Rule" name key "" (Reading.text "string")
  let spec ← Reading.field fs "Rule" "Match" "match" {} PatternSpec.read
  let expect ← Reading.field fs "Rule" "Expect" "expect" none (readSome PatternSpec.read)
  let scope ← Reading.field fs "Rule" "Scope" "scope" none (readSome Scope.read)
  let id ← text "ID" "id"
  let description ← text "Description" "description"
  let severity ← Reading.field fs "Rule" "Severity" "severity" "" (Reading.text "rule.Severity")
  let category ← text "Category" "category"
  let guidance ← text "Guidance" "guidance"
  let cwe ← text "CWE" "cwe"
  let references ← Reading.field fs "Rule" "References" "references" none (readSome readTexts)
  return ⟨spec, expect, scope, id, description, .ofName severity, category, guidance, cwe,
    references⟩

/-- A text that is left out if it is empty. -/
def textField? (s : String) : Option Json := if s = "" then none else some (.string s)

/-- A list that is left out if it is empty. -/
def listField? (list : List Json) : Option Json := if list.isEmpty then none else some (.array list)

/-- A pattern as a value. -/
def Pattern.toJson (p : Pattern) : Json :=
  .ofFields [("kind", textField? p.kind.name), ("value", some (.string p.value)),
    ("flags", textField? p.flags)]

/-- The patterns of a rule as a value. -/
def PatternSpec.toJson (s : PatternSpec) : Json :=
  .ofFields [("anyOf", listField? (s.anyPatterns.map Pattern.toJson)),
    ("allOf", listField? (s.allPatterns.map Pattern.toJson))]

/-- A scope as a value. -/
def Scope.toJson (s : Scope) : Json :=
  .ofFields [("include", listField? ((s.includes.getD []).map .string)),
    ("exclude", listField? ((s.excludes.getD []).map .string)), ("when", textField? s.condition)]

/-- A rule as a value. -/
def Rule.toJson (r : Rule) : Json :=
  .ofFields [("match", some r.spec.toJson), ("expect", r.expect.map PatternSpec.toJson),
    ("scope", r.scope.map Scope.toJson), ("id", some (.string r.id)),
    ("description", some (.string r.description)), ("severity", textField? r.severity.name),
    ("category", textField? r.category), ("guidance", textField? r.guidance),
    ("cwe", textField? r.cwe),
    ("references", listField? ((r.references.getD []).map .string))]

end RuleScan
