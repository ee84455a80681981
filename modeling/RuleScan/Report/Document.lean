import RuleScan.Failure
import RuleScan.Json.Fill
import RuleScan.Json.Write
import RuleScan.Report.Basic

/-!
# Reports as JSON documents

The canonical form of a report, which other programs read and which `Report.read` reads back.
Equal reports have equal documents.
-/

namespace RuleScan

namespace Summary

/-- The counts as a value. -/
def toJson (s : Summary) : Json :=
  .object [
    ("findingsBySeverity", match s.bySeverity with
      | some counts => .object (counts.map fun (severity, n) => (severity.name, .int n))
      | none => .null),
    ("filesScanned", .int s.files), ("findingsTotal", .int s.total),
    ("executionMs", .int s.milliseconds), ("deterministic", .bool s.deterministic)]

/-- Reads the counts. -/
def fill : Json.Fill Summary :=
  .object [
    .part "findingsBySeverity" bySeverity (fun s v => { s with bySeverity := v })
      (.counts Severity.ofName Severity.name),
    .part "filesScanned" files (fun s v => { s with files := v }) .int,
    .part "findingsTotal" total (fun s v => { s with total := v }) .int,
    .part "executionMs" milliseconds (fun s v => { s with milliseconds := v }) .int,
    .part "deterministic" deterministic (fun s v => { s with deterministic := v }) .bool]

end Summary

namespace Provenance

/-- The provenance as a value. -/
def toJson (p : Provenance) : Json :=
  .ofFields [("command", some (.string p.command)), ("profile", textField? p.profile),
    ("traceId", some (.string p.trace))]

/-- Reads the provenance. -/
def fill : Json.Fill Provenance :=
  .object [.part "command" command (fun p v => { p with command := v }) .text,
    .part "profile" profile (fun p v => { p with profile := v }) .text,
    .part "traceId" trace (fun p v => { p with trace := v }) .text]

end Provenance

/-- A finding while it is read. -/
structure FindingForm where
  finding : Finding := {}
  references : Json.Slots String := {}
  deriving Inhabited

namespace FindingForm

/-- The finding that was read. -/
def done (f : FindingForm) : Finding :=
  { f.finding with references := f.references.list.getD [] }

/-- A field of the finding itself. -/
def field {β : Type} (name : String) (get : Finding → β) (set : Finding → β → Finding)
    (f : Json.Fill β) : Json.Fill.Field FindingForm :=
  .part name (fun r => get r.finding) (fun r v => { r with finding := set r.finding v }) f

/-- Reads a finding. -/
def fill : Json.Fill FindingForm :=
  .object [field "rule" Finding.rule (fun f v => { f with rule := v }) .text,
    field "message" Finding.message (fun f v => { f with message := v }) .text,
    field "file" Finding.file (fun f v => { f with file := v }) .text,
    field "severity" Finding.severity (fun f v => { f with severity := v })
      (.word Severity.ofName),
    field "category" Finding.category (fun f v => { f with category := v }) .text,
    field "confidence" Finding.confidence (fun f v => { f with confidence := v })
      (.word Confidence.ofName),
    field "snippet" Finding.snippet (fun f v => { f with snippet := v }) (.word Text.bytesOf),
    field "cweId" Finding.cweId (fun f v => { f with cweId := v }) .text,
    .part "references" references (fun r v => { r with references := v }) (.list "" .text),
    field "line" Finding.line (fun f v => { f with line := v }) .int,
    field "column" Finding.column (fun f v => { f with column := v }) .int]

end FindingForm

/-- Reads a diagnostic. -/
def Diagnostic.fill : Json.Fill Diagnostic :=
  .object [.part "kind" kind (fun d v => { d with kind := v }) .text,
    .part "rule" rule (fun d v => { d with rule := v }) .text,
    .part "pattern" pattern (fun d v => { d with pattern := v }) .text,
    .part "message" message (fun d v => { d with message := v }) .text]

namespace Report

/-- A report as a value. -/
def toJson (r : Report) : Json :=
  .ofFields [("status", some (.string r.status.name)),
    ("findings", some (match r.findings with
      | some fs => .array (fs.map Finding.toJson)
      | none => .null)),
    ("summary", some r.summary.toJson),
    ("meta", some r.provenance.toJson),
    ("diagnostics", listField? (r.diagnostics.map Diagnostic.toJson))]

/-- A report as a document. -/
def document (r : Report) : String := r.toJson.pretty ++ "\n"

end Report

/-- A report while it is read. -/
structure ReportForm where
  report : Report := {}
  findings : Json.Slots FindingForm := {}
  diagnostics : Json.Slots Diagnostic := {}
  deriving Inhabited

namespace ReportForm

/-- The report that was read. -/
def done (r : ReportForm) : Report :=
  { r.report with
    findings := r.findings.list.map (·.map FindingForm.done)
    diagnostics := r.diagnostics.list.getD [] }

/-- A field of the report itself. -/
def field {β : Type} (name : String) (get : Report → β) (set : Report → β → Report)
    (f : Json.Fill β) : Json.Fill.Field ReportForm :=
  .part name (fun r => get r.report) (fun r v => { r with report := set r.report v }) f

/-- Reads a report. -/
def fill : Json.Fill ReportForm :=
  .object [field "status" Report.status (fun r v => { r with status := v }) (.word Status.ofName),
    .part "findings" findings (fun r v => { r with findings := v }) (.list {} FindingForm.fill),
    field "summary" Report.summary (fun r v => { r with summary := v }) Summary.fill,
    field "meta" Report.provenance (fun r v => { r with provenance := v }) Provenance.fill,
    .part "diagnostics" diagnostics (fun r v => { r with diagnostics := v })
      (.list { kind := "" } Diagnostic.fill)]

end ReportForm

namespace Report

/-- The report at the front of a text; what follows it is left. -/
def read (text : String) : Except Failure Report :=
  match Json.front text with
  | .error .ended =>
    .error (.plain (if (Json.skipBlanks text.toList).isEmpty then "decode report: EOF"
      else "decode report: unexpected EOF"))
  | .error .malformed => .error (.of .json "decode report: malformed JSON")
  | .ok (v, _) =>
    match ReportForm.fill v {} with
    | some r => .ok r.done
    | none => .error (.of .json "decode report: JSON of another kind")

end Report

end RuleScan
