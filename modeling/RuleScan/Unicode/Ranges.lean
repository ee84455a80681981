/-!
# Sets of code points

A set of code points is a list of spans.  The tables of this folder are kept as text in a short
notation and read into spans once.
-/

namespace RuleScan.Unicode

/-- The code points `lo, lo + step, ..., hi`. -/
structure Span where
  lo : Nat
  hi : Nat
  step : Nat
  deriving Repr, DecidableEq, Inhabited

/-- A set of code points. -/
abbrev Ranges := List Span

/-- The value of a hexadecimal digit, either case. -/
def hexDigit? (c : Char) : Option Nat :=
  if '0' ≤ c ∧ c ≤ '9' then some (c.toNat - 0x30)
  else if 'a' ≤ c ∧ c ≤ 'f' then some (c.toNat - 0x61 + 10)
  else if 'A' ≤ c ∧ c ≤ 'F' then some (c.toNat - 0x41 + 10)
  else none

/-- Reads a hexadecimal number; no digits at all is no number. -/
def hexNumber? (digits : List Char) : Option Nat :=
  if digits.isEmpty then none
  else digits.foldl (fun acc c => do return (← acc) * 16 + (← hexDigit? c)) (some 0)

/-- Reads `a`, `a-b` or `a-b/s`, all in hexadecimal. -/
def Span.read? (text : String) : Option Span :=
  match text.splitOn "/" with
  | [range] => ends range 1
  | [range, step] => (hexNumber? step.toList).bind (ends range)
  | _ => none
where
  /-- The two ends of a span, or one code point standing for both. -/
  ends (range : String) (step : Nat) : Option Span :=
    match range.splitOn "-" with
    | [one] => (hexNumber? one.toList).map fun n => ⟨n, n, step⟩
    | [lo, hi] => do return ⟨← hexNumber? lo.toList, ← hexNumber? hi.toList, step⟩
    | _ => none

/-- The entries of a table, separated by blanks and line ends. -/
def tableEntries (text : String) : List String :=
  ((text.map fun c => if c = '\n' then ' ' else c).splitOn " ").filter (· ≠ "")

namespace Ranges

/-- Reads spans separated by blanks. -/
def read (text : String) : Ranges :=
  (tableEntries text).filterMap Span.read?

/-- Membership in a set of code points. -/
def contains (ranges : Ranges) (code : Nat) : Bool :=
  ranges.any fun s => s.lo ≤ code && code ≤ s.hi && (code - s.lo) % s.step = 0

end Ranges

end RuleScan.Unicode
