import RuleScan.Engine.Finding
import RuleScan.Rule.Severity

/-!
# Reports and thresholds

How many findings are accepted, and the reports whose verdicts depend on it.
-/

/-!
## Thresholds

How many findings of each severity are accepted before a verdict gets worse.
-/

namespace RuleScan

/-- The accepted number of findings of each known severity. -/
structure Thresholds where
  critical : Int
  high : Int
  medium : Int
  low : Int
  deriving Repr, DecidableEq, Inhabited

namespace Thresholds

/-- The thresholds of a project that sets none. -/
def default : Thresholds := ⟨0, 0, 10, 50⟩

/-- No finding of any known severity is accepted. -/
def none : Thresholds := ⟨0, 0, 0, 0⟩

/-- The threshold of a severity; an unknown one has zero. -/
def get (t : Thresholds) : Severity → Int
  | .critical => t.critical
  | .high => t.high
  | .medium => t.medium
  | .low => t.low
  | .other _ => 0

/-- Sets the threshold of a severity; an unknown one is left alone. -/
def set (t : Thresholds) (s : Severity) (n : Int) : Thresholds :=
  match s with
  | .critical => { t with critical := n }
  | .high => { t with high := n }
  | .medium => { t with medium := n }
  | .low => { t with low := n }
  | .other _ => t

/-- What was set is what is read, for every known severity. -/
theorem get_set_same (t : Thresholds) (s : Severity) (n : Int) (h : s.isKnown = true) :
    (t.set s n).get s = n := by
  cases s <;> simp_all [get, set, Severity.isKnown]

/-- Setting one severity leaves the others. -/
theorem get_set_other (t : Thresholds) {s s' : Severity} (n : Int) (h : s ≠ s') :
    (t.set s n).get s' = t.get s' := by
  cases s <;> cases s' <;> simp_all [get, set]

end Thresholds

end RuleScan

/-!
## Reports

A report counts findings by severity, compares the counts with thresholds and carries the verdict.
Reports are also read back from documents, where anything may be missing, so the lists may be
absent and the verdict may be any word.
-/

namespace RuleScan

/-- The verdict of a report. -/
inductive Status where
  | pass
  | warning
  | fail
  /-- Any other word, as a report that was read may have it. -/
  | other (name : String)
  deriving Repr, DecidableEq, Inhabited

namespace Status

/-- The word for a verdict. -/
def name : Status → String
  | .pass => "pass"
  | .warning => "warning"
  | .fail => "fail"
  | .other name => name

/-- The verdict of a word. -/
def ofName (name : String) : Status :=
  if name = "pass" then .pass
  else if name = "warning" then .warning
  else if name = "fail" then .fail
  else .other name

@[simp] theorem name_ofName (s : String) : (ofName s).name = s := by
  unfold ofName
  repeat' split
  all_goals simp_all [name]

/-- The number with which a program ends that reached the verdict. -/
def exitCode : Status → Nat
  | .pass => 0
  | .fail => 1
  | .warning => 2
  | .other _ => 3

end Status

/-- The counts of a report. -/
structure Summary where
  /-- How many findings have each severity. -/
  bySeverity : Option (List (Severity × Int)) := none
  /-- How many files have a finding. -/
  files : Int := 0
  total : Int := 0
  milliseconds : Int := 0
  deterministic : Bool := false
  deriving Repr, DecidableEq, Inhabited

/-- The number of findings with a severity. -/
def Summary.count (s : Summary) (severity : Severity) : Int :=
  (((s.bySeverity.getD []).find? (·.1 = severity)).map (·.2)).getD 0

/-- How a report came about. -/
structure Provenance where
  command : String := ""
  profile : String := ""
  trace : String := ""
  deriving Repr, DecidableEq, Inhabited

/-- The outcome of a scan. -/
structure Report where
  status : Status := .other ""
  findings : Option (List Finding) := none
  summary : Summary := {}
  provenance : Provenance := {}
  diagnostics : List Diagnostic := []
  deriving Repr, DecidableEq, Inhabited

/-- What a report is built with beside the findings. -/
structure Report.Options where
  thresholds : Option Thresholds := none
  command : String := "scan"
  trace : String := ""
  diagnostics : List Diagnostic := []
  deriving Repr, DecidableEq, Inhabited

namespace Report

/-- The findings; a report without a list has none. -/
def allFindings (r : Report) : List Finding := r.findings.getD []

/-- How many findings have a severity. -/
def countOf (findings : List Finding) (s : Severity) : Nat :=
  findings.countP (·.severity = s)

/-- The severities that a count is given for, by name: the known ones and those that occur. -/
def severitiesOf (findings : List Finding) : List Severity :=
  (Severity.all ++ findings.map Finding.severity).eraseDups.mergeSort fun a b => a.name ≤ b.name

/-- The counts of all severities. -/
def countsOf (findings : List Finding) : List (Severity × Int) :=
  (severitiesOf findings).map fun s => (s, (countOf findings s : Int))

/-- The verdict on findings: more serious ones than accepted make it fail, others than accepted
make it a warning. -/
def verdict (t : Thresholds) (findings : List Finding) : Status :=
  let exceeds (s : Severity) : Bool := countOf findings s > t.get s
  if exceeds .critical || exceeds .high then .fail
  else if exceeds .medium || exceeds .low then .warning
  else .pass

/-- Whole milliseconds, toward zero. -/
def millisecondsOf (microseconds : Int) : Int := microseconds.tdiv 1000

/-- The report on findings.  Without thresholds no finding is accepted. -/
def build (findings : List Finding) (profile : String) (microseconds : Int)
    (o : Options := {}) : Report :=
  { status := verdict (o.thresholds.getD Thresholds.none) findings
    findings := some (Finding.sort findings)
    summary :=
      { bySeverity := some (countsOf findings)
        files := (findings.map Finding.file).eraseDups.length
        total := findings.length
        milliseconds := millisecondsOf microseconds
        deterministic := true }
    provenance := { command := o.command, profile, trace := o.trace }
    diagnostics := o.diagnostics }

end Report

end RuleScan
