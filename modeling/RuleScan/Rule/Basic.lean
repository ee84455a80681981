import RuleScan.Failure
import RuleScan.Rule.Pattern
import RuleScan.Rule.Scope
import RuleScan.Rule.Severity
import RuleScan.Yaml.Record

/-!
# Rules

What rules are, and how a caller is told what is wrong with one.
-/

/-!
## Rules

A rule names something that is not wanted: the patterns to look for, the files to look in, how
serious a find is and what to say about it.  `Rule` is what a document says; `Rule.Compiled` is a
rule made ready for searching and exists only for rules that make sense.
-/

namespace RuleScan

/-- The patterns of a rule: a line is reported if any of the first matches, and a file is reported
if all of the second occur in it.  A list that is absent differs from an empty one only where two
rules are compared. -/
structure PatternSpec where
  anyOf : Option (List Pattern) := none
  allOf : Option (List Pattern) := none
  deriving Repr, DecidableEq, Inhabited

namespace PatternSpec

/-- The patterns of which any may match. -/
def anyPatterns (s : PatternSpec) : List Pattern := s.anyOf.getD []

/-- The patterns that all have to occur. -/
def allPatterns (s : PatternSpec) : List Pattern := s.allOf.getD []

/-- Whether there are no patterns. -/
def isEmpty (s : PatternSpec) : Bool := s.anyPatterns.isEmpty && s.allPatterns.isEmpty

/-- Whether some pattern is a regular expression. -/
def hasRegex (s : PatternSpec) : Bool :=
  s.anyPatterns.any (·.kind = .regex) || s.allPatterns.any (·.kind = .regex)

/-- The same patterns with the default kind filled in. -/
def withDefaults (s : PatternSpec) : PatternSpec :=
  { anyOf := s.anyOf.map (·.map Pattern.withDefaults)
    allOf := s.allOf.map (·.map Pattern.withDefaults) }

/-- Whether two specs hold the same patterns. -/
def same (a b : PatternSpec) : Bool :=
  a.anyPatterns = b.anyPatterns && a.allPatterns = b.allPatterns

end PatternSpec

/-- A pattern document in one of its two dialects. -/
inductive PatternSource where
  /-- Patterns with their kinds. -/
  | canonical (anyOf allOf : List Pattern)
  /-- Four flat lists of texts and expressions. -/
  | legacy (identifiers expressions sqlTables apiRoutes : List String)
  deriving Repr, DecidableEq, Inhabited

namespace PatternSource

/-- A list, or nothing if it is empty. -/
def present {α : Type} (list : List α) : Option (List α) :=
  if list.isEmpty then none else some list

/-- The spec that a document means.  The flat lists become patterns of which any may match:
identifiers and tables as fixed texts, expressions and routes as regular expressions. -/
def normalize : Option PatternSource → PatternSpec
  | none => {}
  | some (.canonical anyOf allOf) =>
    PatternSpec.withDefaults { anyOf := present anyOf, allOf := present allOf }
  | some (.legacy identifiers expressions sqlTables apiRoutes) =>
    { anyOf := present (identifiers.map Pattern.literal ++ expressions.map Pattern.regex ++
        sqlTables.map Pattern.literal ++ apiRoutes.map Pattern.regex) }

end PatternSource

/-- The spec as a document. -/
def PatternSpec.source (s : PatternSpec) : PatternSource :=
  .canonical s.anyPatterns s.allPatterns

/-- The keys of a pattern document, each with its value if it is there and not null. -/
structure PatternDocument where
  anyOf : Option (List Pattern) := none
  allOf : Option (List Pattern) := none
  identifiers : Option (List String) := none
  expressions : Option (List String) := none
  sqlTables : Option (List String) := none
  apiRoutes : Option (List String) := none
  deriving Repr, DecidableEq, Inhabited

/-- The dialect of a document: the flat lists count only if neither of the other keys is there. -/
def PatternDocument.source (d : PatternDocument) : PatternSource :=
  if d.anyOf.isSome || d.allOf.isSome then .canonical (d.anyOf.getD []) (d.allOf.getD [])
  else if d.identifiers.isNone && d.expressions.isNone && d.sqlTables.isNone &&
      d.apiRoutes.isNone then .canonical [] []
  else .legacy (d.identifiers.getD []) (d.expressions.getD []) (d.sqlTables.getD [])
    (d.apiRoutes.getD [])

/-- A rule. -/
structure Rule where
  spec : PatternSpec := {}
  /-- Checked and kept, but not evaluated. -/
  expect : Option PatternSpec := none
  scope : Option Scope := none
  id : String := ""
  description : String := ""
  severity : Severity := .other ""
  category : String := ""
  guidance : String := ""
  cwe : String := ""
  references : Option (List String) := none
  deriving Repr, DecidableEq, Inhabited

namespace Rule

/-- Fills in the default severity and the default kinds of patterns. -/
def withDefaults (r : Rule) : Rule :=
  { r with
    severity := if r.severity = .other "" then .medium else r.severity
    spec := r.spec.withDefaults
    expect := r.expect.map PatternSpec.withDefaults }

/-- The category of findings of rules that have none. -/
def defaultCategory : String := "guardrail"

/-- The category of the rule's findings. -/
def findingCategory (r : Rule) : String := if r.category = "" then defaultCategory else r.category

/-- The rule in messages. -/
def text (r : Rule) : String := r.id ++ " (" ++ r.severity.name ++ ")"

/-- What is wrong with a part of a rule. -/
inductive Flaw where
  | required
  | severity (e : Severity.Unknown)
  | pattern (e : Pattern.Error)
  | scope (e : Scope.Error)
  deriving Inhabited

/-- The text of a flaw. -/
def Flaw.message : Flaw → String
  | .required => "required"
  | .severity e => e.message
  | .pattern e => e.message
  | .scope e => e.message

/-- A flaw with the part of the rule it is in. -/
structure Problem where
  part : String
  flaw : Flaw
  deriving Inhabited

/-- The text of a problem. -/
def Problem.message (p : Problem) : String := p.part ++ ": " ++ p.flaw.message

/-- The flaws of patterns that cannot be searched for. -/
def patternProblems (part : String) (patterns : List Pattern) : List Problem :=
  (patterns.zipIdx).filterMap fun (p, i) =>
    match p.compile with
    | .ok _ => none
    | .error e => some ⟨part ++ "[" ++ toString i ++ "]", .pattern e⟩

/-- The flaws of a spec. -/
def specProblems (part : String) (s : PatternSpec) : List Problem :=
  patternProblems (part ++ ".anyOf") s.anyPatterns ++
    patternProblems (part ++ ".allOf") s.allPatterns

/-- Everything that is wrong with a rule. -/
def problems (r : Rule) : List Problem :=
  let blank (s : String) : Bool := Text.trim s = ""
  (if blank r.id then [⟨"id", .required⟩] else []) ++
    (if blank r.description then [⟨"description", .required⟩] else []) ++
    (match Severity.parse r.severity.name with
      | .ok _ => []
      | .error e => [⟨"severity", .severity e⟩]) ++
    specProblems "match" r.spec ++
    (match r.expect with
      | some s => specProblems "expect" s
      | none => []) ++
    (match Scope.compile r.scope with
      | .ok _ => []
      | .error e => [⟨"scope", .scope e⟩])

/-- A rule made ready for searching. -/
structure Compiled where
  rule : Rule
  scope : Scope.Compiled
  anyOf : List Matcher
  allOf : List Matcher
  deriving Inhabited

/-- A rule that makes no sense. -/
structure Invalid where
  id : String
  problems : List Problem
  deriving Inhabited

/-- The text of the refusal. -/
def Invalid.message (e : Invalid) : String :=
  "invalid rule " ++ Text.quoted e.id ++ ": " ++
    "\n".intercalate (e.problems.map Problem.message)

/-- Makes a rule ready for searching. -/
def compile (r : Rule) : Except Invalid Compiled :=
  match r.problems with
  | [] =>
    match Scope.compile r.scope, r.spec.anyPatterns.mapM Pattern.compile,
        r.spec.allPatterns.mapM Pattern.compile with
    | .ok scope, .ok anyOf, .ok allOf => .ok ⟨r, scope, anyOf, allOf⟩
    | _, _, _ => .error ⟨r.id, []⟩
  | problems => .error ⟨r.id, problems⟩

/-- The refusal as a failure. -/
def Invalid.failure (e : Invalid) : Failure := .of .invalidRule e.message

end Rule

end RuleScan

/-!
## Refusals as failures

What is wrong with the parts of a rule, as failures whose causes callers can tell apart.
-/

namespace RuleScan

/-- An unknown severity as a failure. -/
def Severity.Unknown.failure (e : Severity.Unknown) : Failure := .of .unknownSeverity e.message

/-- A pattern that cannot be searched for, as a failure. -/
def Pattern.Error.failure (e : Pattern.Error) : Failure :=
  match e with
  | .empty => .of .emptyPattern e.message
  | .unknownKind _ => .of .unknownKind e.message
  | .badRegex _ _ => .plain e.message

/-- A glob that cannot be read, as a failure. -/
def GlobSet.Error.failure (e : GlobSet.Error) : Failure := .of .invalidGlob e.message

/-- A text that is no condition, as a failure. -/
def Predicate.CompileError.failure (e : Predicate.CompileError) : Failure :=
  match e with
  | .notBool _ => .of .notBool e.message
  | _ => .plain e.message

/-- A condition without an answer, as a failure. -/
def Predicate.EvalError.failure (e : Predicate.EvalError) : Failure :=
  match e with
  | .notBool _ _ => .of .notBool e.message
  | .failed _ _ => .plain e.message

/-- A scope that makes no sense, as a failure. -/
def Scope.Error.failure (e : Scope.Error) : Failure :=
  match e with
  | .includes g => g.failure.during "include"
  | .excludes g => g.failure.during "exclude"
  | .condition c => c.failure.during "when"

end RuleScan
