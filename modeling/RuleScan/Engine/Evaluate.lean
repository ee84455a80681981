import RuleScan.Engine.Search
import RuleScan.Engine.Listing
import RuleScan.Profile.Basic
import RuleScan.Rule.Basic

/-!
# Evaluating a profile

An evaluation looks for the patterns of all rules in the files of a project.  Every pattern of a
rule is one task, searched over the files in the scope of the rule.  What is found does not depend
on the order of the tasks: the matches of a rule are turned into findings task by task, and all
findings are put in order at the end.  An evaluation is complete or fails as a whole.
-/

namespace RuleScan

open RuleScan.Text (Bytes)

/-- What drops a matched line when it stands in it, unless another mark is given. -/
def defaultMarker : String := "guardrail:ignore"

/-- The result of an evaluation. -/
structure Evaluation where
  /-- In order, each place once. -/
  findings : List Finding := []
  /-- The files that were considered, in order. -/
  files : List String := []
  diagnostics : List Diagnostic := []
  deriving Inhabited

/-- What is evaluated with. -/
structure Engine where
  root : String := "."
  searcher : Searcher := Searcher.native
  lister : Lister := Lister.usual
  marker : String := defaultMarker
  maxFileSize : Int := defaultMaxSize
  /-- Whether a search that cannot be done fails the evaluation. -/
  strict : Bool := false

namespace Engine

/-- The mark in effect: an empty one means the default. -/
def effectiveMarker (e : Engine) : String := if e.marker = "" then defaultMarker else e.marker

/-! ## Tasks -/

/-- A rule with the files in its scope. -/
structure Plan where
  rule : Rule.Compiled
  paths : List String
  deriving Inhabited

/-- The plan of a rule for a universe. -/
def planOf (known : List String) (r : Rule.Compiled) : Plan :=
  ⟨r, known.filter r.scope.accepts⟩

/-- What became of a task: its matches, or why it could not be done. -/
abbrev Outcome := Except String (List Match)

/-- The matches of an outcome; a task that could not be done has none. -/
def Outcome.found : Outcome → List Match
  | .ok ms => ms
  | .error _ => []

/-- A rule whose tasks are done; the outcomes stand in the order of the patterns. -/
structure Searched where
  rule : Rule.Compiled
  anyOf : List (Matcher × Outcome)
  allOf : List (Matcher × Outcome)
  deriving Inhabited

/-! ## Findings -/

/-- The matches that are not marked as to be ignored. -/
def unmarked (marker : String) (ms : List Match) : List Match :=
  ms.filter fun m => !Text.containsBytes (Text.bytesOf marker) m.text

/-- The findings of the patterns of which any may match. -/
def anyFindings (marker : String) (s : Searched) : List Finding :=
  s.anyOf.flatMap fun (m, o) =>
    (unmarked marker o.found).map (Finding.ofMatch s.rule.rule m.pattern.confidence)

/-- The matches of the patterns that all have to occur, pattern by pattern. -/
def allMatches (marker : String) (s : Searched) : List (List Match) :=
  s.allOf.map fun (_, o) => unmarked marker o.found

/-- Whether every pattern occurs in a file. -/
def occursAll (groups : List (List Match)) (file : String) : Bool :=
  groups.all fun ms => ms.any (·.file = file)

/-- How much it says that all patterns occur in a file. -/
def allConfidence (r : Rule) : Confidence :=
  if r.spec.allPatterns.any (·.kind = .regex) then .low else .high

/-- The findings of the patterns that all have to occur. -/
def allFindings (marker : String) (s : Searched) : List Finding :=
  let groups := allMatches marker s
  if groups.isEmpty then []
  else
    (groups.flatten.filter fun m => occursAll groups m.file).map
      (Finding.ofMatch s.rule.rule (allConfidence s.rule.rule))

/-- The findings of a rule. -/
def ruleFindings (marker : String) (s : Searched) : List Finding :=
  anyFindings marker s ++ allFindings marker s

/-- The diagnostics of a rule. -/
def ruleDiagnostics (s : Searched) : List Diagnostic :=
  (s.anyOf ++ s.allOf).filterMap fun (m, o) =>
    match o with
    | .ok _ => none
    | .error message =>
      some { rule := s.rule.rule.id, pattern := m.pattern.text, message }

/-- The result of tasks that are done. -/
def conclude (marker : String) (files : List String) (searched : List Searched) : Evaluation :=
  { findings := Finding.distinct (searched.flatMap (ruleFindings marker))
    files
    diagnostics := Diagnostic.sort (searched.flatMap ruleDiagnostics) }

/-! ## Running -/

/-- Does one task.  A search that cannot be done is told of and passed over, unless the search is
strict or the run was interrupted. -/
def runTask (e : Engine) (signal : Signal) (read : String → Option Bytes)
    (workingDirectory : String) (paths : List String) (m : Matcher) : RunM Outcome := do
  if paths.isEmpty then return .ok []
  let request : SearchRequest := { matcher := m, paths, read, workingDirectory }
  tryCatch (do return .ok (← e.searcher signal request)) fun f => do
    match ← RunM.look signal with
    | some _ => throw f
    | none =>
      if e.strict || !f.has .searchUnavailable then throw f
      else return .error f.message

/-- Does the tasks of some patterns. -/
def runTasks (e : Engine) (signal : Signal) (read : String → Option Bytes)
    (workingDirectory : String) (paths : List String) :
    List Matcher → RunM (List (Matcher × Outcome))
  | [] => return []
  | m :: rest => do
    let o ← runTask e signal read workingDirectory paths m
    return (m, o) :: (← runTasks e signal read workingDirectory paths rest)

/-- Does the tasks of some rules. -/
def runPlans (e : Engine) (signal : Signal) (read : String → Option Bytes)
    (workingDirectory : String) : List Plan → RunM (List Searched)
  | [] => return []
  | p :: rest => do
    let anyOf ← runTasks e signal read workingDirectory p.paths p.rule.anyOf
    let allOf ← runTasks e signal read workingDirectory p.paths p.rule.allOf
    return ⟨p.rule, anyOf, allOf⟩ :: (← runPlans e signal read workingDirectory rest)

/-- A failed evaluation. -/
def failed (f : Failure) : Failure := f.under .evaluation "evaluation failed"

/-- Tells of a failure; if the run was interrupted, of the interruption. -/
def failWith {α : Type} (signal : Signal) (f : Failure) : RunM α := do
  match ← RunM.look signal with
  | some i => throw (failed i.failure)
  | none => throw (failed f)

/-- Makes the rules of a profile ready. -/
def compileRules : List Rule → Except Failure (List Rule.Compiled)
  | [] => .ok []
  | r :: rest =>
    match r.compile with
    | .error e => .error (failed e.failure)
    | .ok c => (compileRules rest).map (c :: ·)

/-- Evaluates a profile over given files or, without them, over those that are listed. -/
def evaluate (e : Engine) (signal : Signal) (d : Disk) (rules : List Rule)
    (files : Option (List String)) (exclude : List String) : RunM Evaluation := do
  let globs ← match GlobSet.ofPatterns exclude with
    | .ok globs => pure globs
    | .error err => throw (failed (err.failure.during "exclude"))
  let compiled ← match compileRules rules with
    | .ok compiled => pure compiled
    | .error f => throw f
  let listed ← match files with
    | some files => pure files
    | none =>
      tryCatch (e.lister signal d e.root) fun f => failWith signal (f.during "list files")
  let known := universeOf globs listed
  let reader := FileReader.make e.root e.maxFileSize
  let searched ← tryCatch
    (runPlans e signal (reader.load d) d.directory (compiled.map (planOf known)))
    (failWith signal)
  match ← RunM.look signal with
  | some i => throw (failed i.failure)
  | none => return conclude e.effectiveMarker known searched

end Engine

end RuleScan
