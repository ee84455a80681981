import RuleScan.Diff.Unified
import RuleScan.Report.Basic
import RuleScan.Report.Document
import RuleScan.Report.Sarif
import RuleScan.Text.Width
import RuleScan.Unicode.Case

/-!
# Forms of a report

A report is written for people, as a JSON document or as a SARIF log, and two reports are compared.
-/

/-!
## Reports for people

One line for each finding with its place, severity, rule and message, the matched line below it,
then what could not be done, and a last line with the verdict and the counts.
-/

namespace RuleScan

/-- The place of a finding in its file. -/
def Finding.place (f : Finding) : String :=
  f.file ++ ":" ++ toString f.line ++ (if f.column > 0 then ":" ++ toString f.column else "")

namespace Report

/-- The lines of a finding. -/
def findingText (f : Finding) : String :=
  Text.block f.place ++ " " ++ Text.block f.severity.name ++ " " ++ Text.block f.rule ++ " " ++
    f.message ++ "\n" ++
    (if f.snippet.isEmpty then "" else "    " ++ Text.textOf f.snippet ++ "\n")

/-- The line of a diagnostic. -/
def diagnosticText (d : Diagnostic) : String :=
  Text.block d.kind ++ " " ++ Text.block d.rule ++ " " ++ d.pattern ++ ": " ++
    Text.block d.message ++ "\n"

/-- The counts of the known severities. -/
def countsText (s : Summary) : String :=
  ", ".intercalate (Severity.all.map fun severity =>
    severity.name ++ " " ++ toString (s.count severity))

/-- The last line. -/
def verdictText (r : Report) : String :=
  let profile := if r.provenance.profile = "" then "-" else r.provenance.profile
  Unicode.upperText r.status.name ++ " " ++ toString r.summary.total ++ " findings in " ++
    toString r.summary.files ++ " files " ++
    Text.block ("(" ++ countsText r.summary ++ ") profile " ++ profile ++ ", " ++
      toString r.summary.milliseconds ++ "ms") ++ "\n"

/-- A report for people. -/
def plainText (r : Report) : String :=
  let findings := r.allFindings
  String.join (findings.map findingText) ++ String.join (r.diagnostics.map diagnosticText) ++
    (if findings.isEmpty && r.diagnostics.isEmpty then "" else "\n") ++ r.verdictText

end Report

end RuleScan

namespace RuleScan

/-- A form in which a report is written. -/
inductive Format where
  | plain
  | json
  | sarif
  deriving Repr, DecidableEq, Inhabited

namespace Format

/-- The name of a form. -/
def name : Format → String
  | .plain => "text"
  | .json => "json"
  | .sarif => "sarif"

/-- The form of a name. -/
def ofName? (name : String) : Option Format :=
  if name = "text" then some .plain
  else if name = "json" then some .json
  else if name = "sarif" then some .sarif
  else none

/-- The refusal of a name. -/
def unknown (name : String) : Failure :=
  .of .unknownFormat ("unknown format: " ++ Text.quoted name)

/-- The form that a user names; case and blanks around the name do not matter. -/
def parse (name : String) : Except Failure Format :=
  match ofName? (Unicode.lowerText (Text.trim name)) with
  | some f => .ok f
  | none => .error (unknown name)

end Format

/-- A report in a form. -/
def Report.render (r : Report) (b : Build) : Format → String
  | .plain => r.plainText
  | .json => r.document
  | .sarif => Sarif.render b r

end RuleScan

/-!
## Differences between reports

Two reports are compared by their findings, one entry each, in the order of findings.
-/

namespace RuleScan

/-- A finding as an entry of a difference. -/
def Finding.entry (f : Finding) : String :=
  f.rule ++ " " ++ f.file ++ ":" ++ toString f.line ++ ":" ++ toString f.column ++ " [" ++
    f.severity.name ++ "] " ++ f.message ++ "\n"

namespace Report

/-- The entries of a report. -/
def entries (r : Report) : List String := (Finding.sort r.allFindings).map Finding.entry

/-- The difference between the findings of two reports; empty if they have the same entries.  There
is none if an entry cannot be told from others, or if the edits cannot be shown: the program then
breaks down. -/
def diff? (d : Diff.Differ) (oldLabel : String) (old : Report) (newLabel : String)
    (new : Report) : Option String :=
  let text := String.join old.entries
  if text = String.join new.entries then some ""
  else do
    let edits ← d.entryEdits? old.entries new.entries
    d.unified? oldLabel newLabel text edits

/-- The difference as it is found and shown here; empty also if there is none. -/
def diff (oldLabel : String) (old : Report) (newLabel : String) (new : Report) : String :=
  (diff? .standard oldLabel old newLabel new).getD ""

end Report

end RuleScan
