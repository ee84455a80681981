import RuleScan.Report.Sarif
import RuleScan.Settings.Effective
import RuleScan.Spec.Read

/-!
# Scans

A scan evaluates a profile over a directory and writes a report.  The profile is asked for by name
or path, or else comes from the specification of the project.  What there is to evaluate is looked
up again for every scan.
-/

namespace RuleScan

/-- What scans are done with, once the settings are known. -/
structure Scanner where
  engine : Engine
  settings : Settings
  root : String
  /-- The nanoseconds that an evaluation may take; zero is no limit. -/
  timeLimit : Int
  /-- The profile that is asked for; empty for none. -/
  profile : String := ""
  /-- The only files to look at; without any, all are. -/
  files : List String := []
  /-- More globs of files to leave out. -/
  exclude : List String := []
  /-- The file for the report; empty for the output. -/
  output : String := ""

/-- Whom and what a scan depends on beside the files. -/
structure Circumstances where
  /-- What the run is known by. -/
  trace : String := ""
  build : Build := {}
  deriving Inhabited

namespace Scanner

/-- A scanner with the settings that are in effect. -/
def make (environment : List String) (root : String) (s : Settings) : Except Failure Scanner := do
  let options ← (s.engine.options environment).mapError (·.during "configure engine")
  let timeLimit ← s.engine.timeLimit.mapError (·.during "configure engine")
  let engine := options.foldl Engine.set { root }
  return { engine, settings := s, root, timeLimit }

/-- What is evaluated in a scan, and how it is judged. -/
structure Plan where
  rules : List Rule
  thresholds : Option Thresholds := none
  /-- What the report calls the profile. -/
  label : String
  exclude : List String

/-- The profile that someone asks for: a file if there is one, or else a profile by name. -/
def resolveProfile (d : Disk) (c : Catalog) (ref : String) : Except Failure Profile :=
  match d.stat ref with
  | .ok _ => Profile.loadFile d ref
  | .error _ =>
    if c.has ref then c.load d ref
    else
      let front := "unknown profile: " ++ Text.quoted ref
      .error (.of .unknownProfile (match c.suggest ref with
        | similar :: _ => front ++ ", did you mean " ++ Text.quoted similar ++ "?"
        | [] => front ++ " is neither a file nor one of " ++ ", ".intercalate c.names))

/-- What there is to evaluate now. -/
def plan (s : Scanner) (d : Disk) : Except Failure Plan := do
  let catalog : Catalog := { root := s.root }
  let exclude := s.settings.exclude ++ s.exclude
  if s.profile ≠ "" then
    let p ← resolveProfile d catalog s.profile
    return { rules := p.rules, label := p.name, exclude }
  else
    let (spec, _) ← Spec.load d s.settings.specPath (some catalog)
    return {
      rules := (spec.combine catalog d).rules
      thresholds := some spec.thresholds
      label := ",".intercalate spec.profiles
      exclude := exclude ++ spec.exclusions }

/-- The signal of an evaluation with a time limit.  A limit of less than a microsecond is over
before the evaluation can start; longer ones are never reached, since here an evaluation takes no
time. -/
def limited (timeLimit : Int) (signal : Signal) : Signal :=
  if 0 < timeLimit && timeLimit < 1000 then fun n => (signal n).or (some .expired) else signal

/-- Evaluates once and builds the report. -/
def report (s : Scanner) (c : Circumstances) (signal : Signal) (d : Disk) : RunM Report := do
  let p ← match s.plan d with
    | .ok p => pure p
    | .error f => throw f
  let files := if s.files.isEmpty then none else some s.files
  let e ← s.engine.evaluate (limited s.timeLimit signal) d p.rules files p.exclude
  return Report.build e.findings p.label 0
    { thresholds := p.thresholds, trace := c.trace, diagnostics := e.diagnostics }

/-- The format of reports; without a choice it is the one for programs. -/
def format (s : Scanner) : Except Failure Format :=
  match s.settings.report.format with
  | none | some "" => .ok .json
  | some name => Format.parse name

/-- What becomes of a scan. -/
structure Outcome where
  status : Status
  /-- What is written. -/
  text : String

/-- Scans once; gives the status and the report as text. -/
def scan (s : Scanner) (c : Circumstances) (signal : Signal) (d : Disk) : RunM Outcome := do
  let r ← s.report c signal d
  if s.output ≠ "" then
    match d.write s.output [] with
    | .ok _ => pure ()
    | .error f => throw (f.during "create output file")
  match s.format with
  | .ok f => return ⟨r.status, r.render c.build f⟩
  | .error f => throw f

end Scanner

end RuleScan
