import RuleScan.Decimal.Read
import RuleScan.Log
import RuleScan.Markdown.Section
import RuleScan.Profile.Catalog
import RuleScan.Spec.Basic

/-!
# Specifications and their profiles

A specification is read from a document, and combined into the one profile that it stands for.
-/

/-!
## Reading specifications

A specification is a Markdown document.  Four sections count, by their titles: a list of profiles,
a table of thresholds, a block of rules and a block of exclusions.  Every section may be missing.
What is wrong inside a section is recorded and left out, so that any document gives a
specification.
-/

namespace RuleScan.Spec

open RuleScan.Markdown (Line Block)
open RuleScan.Text (Bytes)

/-! ### Profiles -/

/-- The content of an item of a list. -/
def item? (line : Line) : Option String :=
  match (Text.textOf line).toList.dropWhile Markdown.isBlank with
  | mark :: c :: rest =>
    if (mark = '-' || mark = '*' || mark = '+') && Markdown.isBlank c then
      some (String.ofList (rest.dropWhile Markdown.isBlank))
    else none
  | _ => none

/-- The profile names that a section mentions. -/
def mentioned (lines : List Line) : List String :=
  ((lines.filterMap item?).map fun s =>
    Text.trim (String.ofList (s.toList.filter (· ≠ '\x60')))).filter (· ≠ "")

/-- The known profiles that a section mentions, each once. -/
def profilesOf (c : Catalog) (lines : List Line) : List String :=
  ((mentioned lines).filter c.has).eraseDups

/-- The records of unknown profiles. -/
def profileRecords (c : Catalog) (lines : List Line) : List Log.Record :=
  ((mentioned lines).filter (!c.has ·)).map fun name =>
    let similar := c.suggest name
    { message := "ignore unknown profile"
      attributes := ("profile", .string name) ::
        if similar.isEmpty then [] else [("did_you_mean", Json.strings similar)] }

/-! ### Thresholds -/

/-- A text without marks of emphasis around it. -/
def unmarked (s : String) : String :=
  String.ofList (Text.trimWhile (fun c => c = '\x60' || c = '*') s.toList)

/-- The severity and the count of a row of a table, as they are written. -/
def row? (line : Line) : Option (Severity × String) :=
  match line.trimmed with
  | '|' :: rest =>
    let cells := Text.splitWhere (· = '|') (Text.trimWhile (· = '|') ('|' :: rest))
    match cells with
    | name :: count :: _ =>
      let severity := Severity.ofName
        (Unicode.lowerText (unmarked (Text.trim (String.ofList name))))
      if severity.isKnown then some (severity, Text.trim (String.ofList count)) else none
    | _ => none
  | _ => none

/-- The value of a decimal number with an optional sign, if it fits into 64 bits. -/
def integer? (s : String) : Option Int :=
  let (negative, digits) : Bool × List Char := match s.toList with
    | '-' :: rest => (true, rest)
    | '+' :: rest => (false, rest)
    | cs => (false, cs)
  if digits.isEmpty || !digits.all Char.isDigit then none
  else
    let n : Int := Json.digitsValue digits
    let n := if negative then -n else n
    if Word.fits n then some n else none

/-- The count of a row, if it is one. -/
def count? (written : String) : Option Int := (integer? (unmarked written)).filter (0 ≤ ·)

/-- The thresholds that a section sets; a later row counts more. -/
def thresholdsOf (lines : List Line) : Thresholds :=
  (lines.filterMap row?).foldl (fun t (severity, written) =>
    match count? written with
    | some n => t.set severity n
    | none => t) Thresholds.default

/-- The records of rows without a count. -/
def thresholdRecords (lines : List Line) : List Log.Record :=
  ((lines.filterMap row?).filter fun (_, written) => (count? written).isNone).map
    fun (severity, written) =>
      { message := "ignore invalid threshold"
        attributes := [("severity", .string severity.name), ("value", .string written)] }

/-! ### Rules -/

/-- The block that holds the rules: the first one in YAML that mentions them. -/
def rulesBlock? (lines : List Line) : Option Block :=
  (Markdown.blocks lines).find? fun b =>
    (b.info = "yaml" || b.info = "yml") && Text.containsText "rules:" b.text

/-- The entries of a list of rules. -/
def readEntries (n : Yaml.Node) : Yaml.Reading (List Json) := do
  let fs ← Yaml.Reading.fields n
  Yaml.Reading.field fs "" "Rules" "rules" [] (Yaml.Reading.list .null Yaml.Reading.value)

/-- The entries of the rules of a section. -/
def entriesOf (lines : List Line) : Except Failure (List Json) :=
  match rulesBlock? lines with
  | none => .ok []
  | some b => (Yaml.readDocument b.text readEntries).mapError Failure.ofRead

/-- What became of each rule of a section. -/
def parsedRules (lines : List Line) : List (Except Failure Rule) :=
  match entriesOf lines with
  | .ok entries => entries.map Profile.parseRule
  | .error _ => []

/-- The rules of a section; those that are not valid are left out. -/
def rulesOf (lines : List Line) : List Rule := (parsedRules lines).filterMap Except.toOption

/-- The records of rules that are left out. -/
def ruleRecords (lines : List Line) : List Log.Record :=
  match entriesOf lines with
  | .error f =>
    [{ message := "ignore custom rules block", attributes := [("error", .string f.message)] }]
  | .ok _ =>
    (parsedRules lines).zipIdx.filterMap fun (r, i) =>
      match r with
      | .ok _ => none
      | .error f =>
        some
          { message := "ignore invalid custom rule"
            attributes := [("index", .int i), ("error", .string f.message)] }

/-! ### Exclusions -/

/-- The globs that a section lists: the lines of its first block, without blank lines and
comments. -/
def listedGlobs (lines : List Line) : List Bytes :=
  match Markdown.blocks lines with
  | [] => []
  | b :: _ => (b.body.map Text.trimBytes).filter fun l => l ≠ [] && l.head? ≠ some 0x23

/-- The globs that can be read. -/
def exclusionsOf (lines : List Line) : List String :=
  ((listedGlobs lines).map Text.textOf).filter fun glob => (GlobSet.ofPatterns [glob]).isOk

/-- The records of globs that cannot be read. -/
def exclusionRecords (lines : List Line) : List Log.Record :=
  (listedGlobs lines).filterMap fun glob =>
    match GlobSet.ofPatterns [Text.textOf glob] with
    | .ok _ => none
    | .error e =>
      some
        { message := "ignore invalid exclusion"
          attributes := [("error", .string
            ("invalid glob " ++ Text.quotedBytes glob ++ ": " ++ e.cause.message))] }

/-! ### Documents -/

/-- The titles of the sections that count. -/
def profilesTitle : String := "enabled profiles"

/-- The title of the table of thresholds. -/
def thresholdsTitle : String := "thresholds"

/-- The title of the rules. -/
def rulesTitle : String := "custom rules"

/-- The title of the exclusions. -/
def exclusionsTitle : String := "exclusions"

/-- The specification in the lines of a document. -/
def ofLines (c : Catalog) (lines : List Line) : Spec :=
  let default : Spec := {}
  let body := Markdown.section? lines
  { profiles := match profilesOf c ((body profilesTitle).getD []) with
      | [] => default.profiles
      | names => names
    customRules := rulesOf ((body rulesTitle).getD [])
    exclusions := exclusionsOf ((body exclusionsTitle).getD [])
    thresholds := thresholdsOf ((body thresholdsTitle).getD []) }

/-- The records of what was left out of a specification. -/
def recordsOf (c : Catalog) (lines : List Line) : List Log.Record :=
  let body (title : String) : List Line := (Markdown.section? lines title).getD []
  profileRecords c (body profilesTitle) ++ thresholdRecords (body thresholdsTitle) ++
    ruleRecords (body rulesTitle) ++ exclusionRecords (body exclusionsTitle)

/-- The specification in a document, and the records of what was left out. -/
def parse (c : Catalog) (content : Bytes) : Spec × List Log.Record :=
  let lines := Markdown.linesOf content
  (ofLines c lines, recordsOf c lines)

/-- The specification in a file.  Without a path or a file it is the default; the catalog is that
of the directory of the file unless another one is given. -/
def load (d : Disk) (path : String) (catalog : Option Catalog := none) :
    Except Failure (Spec × List Log.Record) :=
  if path = "" then .ok ({}, [])
  else match d.read path with
    | .ok content => .ok (parse (catalog.getD { root := Path.dir path }) content)
    | .error f =>
      if f.has .notExist then .ok ({}, []) else .error (f.during "read specification")

end RuleScan.Spec

/-!
## The combined profile

The profile that a specification stands for: the rules of its profiles and then its own rules.  Of
two rules with one id the first one counts.  Profiles that cannot be loaded are passed over.
-/

namespace RuleScan.Spec

/-- A rule with the profile that it comes from. -/
abbrev Sourced := Rule × String

/-- The rules that a profile contributes; one that cannot be loaded contributes none. -/
def contributed (c : Catalog) (d : Disk) (name : String) : List Sourced :=
  match c.load d name with
  | .ok p => p.rules.map (·, name)
  | .error _ => []

/-- All rules in order: those of the profiles, then the project's own. -/
def allRules (c : Catalog) (d : Disk) (s : Spec) : List Sourced :=
  s.profiles.flatMap (contributed c d) ++ s.customRules.map (·, "custom")

/-- Keeps the first rule of every id; `seen` are the rules kept before. -/
def keepFirst (seen : List Sourced) : List Sourced → List Sourced
  | [] => []
  | r :: rest =>
    if seen.any (·.1.id = r.1.id) then keepFirst seen rest
    else r :: keepFirst (r :: seen) rest

/-- The names of the profiles that can be loaded. -/
def loadedNames (c : Catalog) (d : Disk) (s : Spec) : List String :=
  s.profiles.filter fun name => (c.load d name).isOk

/-- The profile that a specification stands for. -/
def combine (s : Spec) (c : Catalog) (d : Disk) : Profile :=
  let loaded := loadedNames c d s
  { name := "combined"
    description := "Combined guardrail profile"
    rules := (keepFirst [] (allRules c d s)).map (·.1)
    metadata := [("customRules", .int s.customRules.length),
      ("profiles", if loaded.isEmpty then .null else Json.strings loaded)] }

/-- The records of rules that are left out because of an earlier one, and what is seen then. -/
def repeatedRecords (seen : List Sourced) : List Sourced → List Log.Record × List Sourced
  | [] => ([], seen)
  | r :: rest =>
    match seen.find? (·.1.id = r.1.id) with
    | some first =>
      let (records, seen) := repeatedRecords seen rest
      ({ message := "duplicate rule id, keeping first"
         attributes := [("rule", .string r.1.id), ("kept", .string first.2),
           ("dropped", .string r.2)] } :: records, seen)
    | none => repeatedRecords (r :: seen) rest

/-- The records of combining profiles, and the rules seen then. -/
def profilesRecords (c : Catalog) (d : Disk) (seen : List Sourced) :
    List String → List Log.Record × List Sourced
  | [] => ([], seen)
  | name :: rest =>
    let (here, seen) := match c.load d name with
      | .error f =>
        ([{ message := "skip profile"
            attributes := [("profile", .string name), ("error", .string f.message)] }], seen)
      | .ok _ => repeatedRecords seen (contributed c d name)
    let (later, seen) := profilesRecords c d seen rest
    (here ++ later, seen)

/-- The records of combining. -/
def combineRecords (s : Spec) (c : Catalog) (d : Disk) : List Log.Record :=
  let (records, seen) := profilesRecords c d [] s.profiles
  records ++ (repeatedRecords seen (s.customRules.map (·, "custom"))).1

end RuleScan.Spec
