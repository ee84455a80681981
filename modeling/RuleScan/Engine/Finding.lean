import RuleScan.Rule.Document

/-!
# Findings

A match is a line that a pattern matched; a finding is what a rule says about a match.  Findings
have an order — by rule, file, line and column — and a report shows each place once.
-/

namespace RuleScan

open RuleScan.Text (Bytes)

/-- A line matched by a pattern. -/
structure Match where
  file : String
  /-- The line without its end. -/
  text : Bytes
  /-- Counted from one. -/
  line : Int
  /-- The byte where the first match on the line starts, counted from one. -/
  column : Int
  deriving Repr, DecidableEq, Inhabited

/-- How strongly a finding points at a real problem. -/
inductive Confidence where
  | high
  | medium
  | low
  /-- Any other word, as reports of others may have it. -/
  | other (name : String)
  deriving Repr, DecidableEq, Inhabited

/-- The word for a confidence. -/
def Confidence.name : Confidence → String
  | .high => "high"
  | .medium => "medium"
  | .low => "low"
  | .other name => name

/-- The confidence of a word. -/
def Confidence.ofName (name : String) : Confidence :=
  if name = "high" then .high
  else if name = "medium" then .medium
  else if name = "low" then .low
  else .other name

/-- What a rule says about a place. -/
structure Finding where
  rule : String := ""
  message : String := ""
  file : String := ""
  severity : Severity := .other ""
  category : String := ""
  confidence : Confidence := .other ""
  snippet : Bytes := []
  cweId : String := ""
  references : List String := []
  line : Int := 0
  column : Int := 0
  deriving Repr, DecidableEq, Inhabited

namespace Finding

/-- The order of findings: by rule, file, line and column. -/
def compare (a b : Finding) : Ordering :=
  (Ord.compare a.rule b.rule).then ((Ord.compare a.file b.file).then
    ((Ord.compare a.line b.line).then (Ord.compare a.column b.column)))

/-- Whether a finding does not come after another. -/
def notAfter (a b : Finding) : Bool := compare a b ≠ .gt

/-- Findings in order; those with equal places keep their order. -/
def sort (findings : List Finding) : List Finding := findings.mergeSort notAfter

/-- Whether findings are in order. -/
def isSorted : List Finding → Bool
  | a :: b :: rest => notAfter a b && isSorted (b :: rest)
  | _ => true

/-- The place of a finding: what the order looks at. -/
def key (f : Finding) : String × String × Int × Int := (f.rule, f.file, f.line, f.column)

/-- Drops a finding whose place is that of the one before. -/
def dropRepeated : List Finding → List Finding
  | a :: b :: rest => if a.key = b.key then dropRepeated (a :: rest) else a :: dropRepeated (b :: rest)
  | short => short
termination_by fs => fs.length

/-- Findings in order, each place once: the first finding of a place is kept. -/
def distinct (findings : List Finding) : List Finding := dropRepeated (sort findings)

/-- How many bytes of a line are shown. -/
def maxSnippet : Nat := 200

/-- The greatest place up to `n` where a character starts. -/
def cutPlace (bs : Bytes) : Nat → Nat
  | 0 => 0
  | n + 1 => if (bs[n + 1]?).any Text.isTail then cutPlace bs n else n + 1

/-- A line as it is shown: without blanks around it, and not longer than the limit. -/
def snippetOf (line : Bytes) : Bytes :=
  let s := Text.trimBytes line
  if s.length ≤ maxSnippet then s else s.take (cutPlace s maxSnippet)

/-- What a rule says about a match. -/
def ofMatch (r : Rule) (confidence : Confidence) (m : Match) : Finding :=
  { rule := r.id
    message := r.description
    file := m.file
    line := m.line
    column := m.column
    severity := r.severity
    category := r.findingCategory
    confidence
    snippet := snippetOf m.text
    cweId := r.cwe
    references := r.references.getD [] }

/-- A finding as a value. -/
def toJson (f : Finding) : Json :=
  .ofFields [("rule", some (.string f.rule)), ("message", some (.string f.message)),
    ("file", some (.string f.file)), ("severity", some (.string f.severity.name)),
    ("category", some (.string f.category)), ("confidence", some (.string f.confidence.name)),
    ("snippet", if f.snippet.isEmpty then none else some (.bytes f.snippet)),
    ("cweId", textField? f.cweId),
    ("references", listField? (f.references.map .string)),
    ("line", some (.int f.line)),
    ("column", if f.column = 0 then none else some (.int f.column))]

end Finding

/-- How much a match of a pattern says. -/
def Pattern.confidence (p : Pattern) : Confidence :=
  if p.kind = .regex then .medium else .high

/-- A part of an evaluation that could not be done: a pattern that could not be searched for, so
that nothing was found for it. -/
structure Diagnostic where
  kind : String := "search-unavailable"
  rule : String := ""
  pattern : String := ""
  message : String := ""
  deriving Repr, DecidableEq, Inhabited

namespace Diagnostic

/-- The order of diagnostics. -/
def compare (a b : Diagnostic) : Ordering :=
  (Ord.compare a.kind b.kind).then ((Ord.compare a.rule b.rule).then
    ((Ord.compare a.pattern b.pattern).then (Ord.compare a.message b.message)))

/-- Diagnostics in order. -/
def sort (list : List Diagnostic) : List Diagnostic :=
  list.mergeSort fun a b => compare a b ≠ .gt

/-- A diagnostic as a value. -/
def toJson (d : Diagnostic) : Json :=
  .object [("kind", .string d.kind), ("rule", .string d.rule), ("pattern", .string d.pattern),
    ("message", .string d.message)]

end Diagnostic

end RuleScan
