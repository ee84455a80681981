import RuleScan.Schema.Record

/-!
# The schemas of rules and profiles

The records of a rule document come first, since a profile is made of them.
-/

/-!
## The schemas of rules

The records that a rule document is made of.
-/

namespace RuleScan.Schema

/-- Where the types of rules are defined. -/
def ruleHome : String := "github.com/macropower/guardrail/pkg/rule"

/-- A pattern. -/
def patternRecord : Record :=
  let inType (field : String) : String := ruleHome ++ ".Pattern." ++ field
  { name := "Pattern"
    source := ruleHome ++ ".Pattern"
    note := "Pattern is a single literal or regular-expression matcher."
    required := ["value"]
    properties := [
      { key := "kind", title := "Kind", source := inType "Kind"
        limits := [("enum", Json.strings ["literal", "regex"]), ("default", .string "literal")]
        note := "Kind is either literal (fixed substring) or regex (RE2)." },
      { key := "value", title := "Value", source := inType "Value"
        limits := [("minLength", .int 1)]
        note := "Value is the substring or expression to search for." },
      { key := "flags", title := "Flags", source := inType "Flags"
        note := "Flags modify regex patterns; \"i\" makes them case-insensitive." }] }

/-- A key of the older pattern documents. -/
def legacyProperty (key title note : String) : Property :=
  { key, title, kind := .texts, note, pinned := true, deprecated := true }

/-- The patterns of a rule. -/
def patternSpecRecord : Record :=
  let inType (field : String) : String := ruleHome ++ ".PatternSpec." ++ field
  { name := "PatternSpec"
    source := ruleHome ++ ".PatternSpec"
    note := "PatternSpec composes patterns."
    closed := false
    properties := [
      { key := "anyOf", title := "Any Of", kind := .records "Pattern", source := inType "AnyOf"
        note := "AnyOf patterns are OR-composed; every matching line is a finding." },
      { key := "allOf", title := "All Of", kind := .records "Pattern", source := inType "AllOf"
        note := "AllOf patterns are AND-composed per file." },
      legacyProperty "identifiers" "Identifiers" "Legacy: literal patterns.",
      legacyProperty "expressions" "Expressions" "Legacy: regex patterns.",
      legacyProperty "sql_tables" "SQL Tables" "Legacy: literal patterns.",
      legacyProperty "api_routes" "API Routes" "Legacy: regex patterns."] }

/-- The files a rule applies to. -/
def scopeRecord : Record :=
  let inType (field : String) : String := ruleHome ++ ".Scope." ++ field
  { name := "Scope"
    source := ruleHome ++ ".Scope"
    note := "Scope narrows the files a rule applies to."
    properties := [
      { key := "include", title := "Include", kind := .texts, source := inType "Include"
        note := "Include globs; when set, a file must match at least one." },
      { key := "exclude", title := "Exclude", kind := .texts, source := inType "Exclude"
        note := "Exclude globs; a file matching any is skipped." },
      { key := "when", title := "When", source := inType "When"
        note := "When is a CEL expression over `file` that must evaluate to true." }] }

/-- A rule. -/
def ruleRecord : Record :=
  let inType (field : String) : String := ruleHome ++ ".Rule." ++ field
  { name := "Rule"
    source := ruleHome ++ ".Rule"
    note := "Rule is one named check combining a pattern specification, severity, and " ++
      "optional scope."
    required := ["match", "id", "description"]
    properties := [
      { key := "match", title := "Match", kind := .record "PatternSpec", source := inType "Match"
        note := "Match selects the lines the rule reports." },
      { key := "expect", title := "Expect", kind := .record "PatternSpec", source := inType "Expect"
        note := "Expect is validated and preserved but not evaluated." },
      { key := "scope", title := "Scope", kind := .record "Scope", source := inType "Scope"
        note := "Scope narrows the files the rule applies to." },
      { key := "id", title := "ID", source := inType "ID", limits := [("minLength", .int 1)]
        note := "ID identifies the rule within a profile." },
      { key := "description", title := "Description", source := inType "Description"
        note := "Description is used as the finding message." },
      { key := "severity", title := "Severity", source := inType "Severity"
        limits := [("enum", Json.strings ["critical", "high", "medium", "low"]),
          ("default", .string "medium")]
        note := "Severity of findings. Defaults to medium." },
      { key := "category", title := "Category", source := inType "Category"
        note := "Category of findings. Defaults to \"guardrail\" on findings." },
      { key := "guidance", title := "Guidance", source := inType "Guidance"
        note := "Guidance describes how to fix a finding." },
      { key := "cwe", title := "CWE", source := inType "CWE"
        limits := [("pattern", .string "^CWE-[0-9]+$")]
        note := "CWE is a CWE identifier such as \"CWE-798\"." },
      { key := "references", title := "References", kind := .texts, source := inType "References"
        note := "References are links with background on the rule." }] }

end RuleScan.Schema

/-!
## The schema of profiles
-/

namespace RuleScan.Schema

/-- Where profiles are defined. -/
def profileHome : String := "github.com/macropower/guardrail/pkg/profile"

/-- A profile. -/
def profileRecord : Record :=
  let inType (field : String) : String := profileHome ++ ".Profile." ++ field
  { name := "Profile"
    source := profileHome ++ ".Profile"
    note := "Profile is a named, versioned collection of rules."
    required := ["rules"]
    insists := true
    alternatives := [["name"], ["refactor_name"]]
    properties := [
      { key := "metadata", title := "Metadata", kind := .mapping, source := inType "Metadata"
        note := "Metadata holds arbitrary annotations." },
      { key := "name", title := "Name", source := inType "Name", limits := [("minLength", .int 1)]
        note := "Name identifies the profile. The legacy key refactor_name is also accepted." },
      { key := "description", title := "Description", source := inType "Description"
        note := "Description summarizes the profile." },
      { key := "version", title := "Version", source := inType "Version"
        note := "Version of the profile document." },
      { key := "rules", title := "Rules", kind := .records "Rule", source := inType "Rules"
        limits := [("minItems", .int 1)]
        note := "Rules evaluated by the profile." },
      { key := "refactor_name", title := "Refactor Name", limits := [("minLength", .int 1)]
        note := "Legacy alias for name.", pinned := true, deprecated := true }] }

/-- The records that profiles are made of. -/
def profileRecords : List Record := [patternRecord, patternSpecRecord, ruleRecord, scopeRecord]

/-- The published schema of profiles. -/
def profileSchema : Json := document published profileRecords profileHome profileRecord

end RuleScan.Schema
