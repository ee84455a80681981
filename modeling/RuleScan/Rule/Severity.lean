import RuleScan.Text.Quoted

/-!
# Severities

How serious a finding is.  A document may name any severity, so an unknown name is kept; it ranks
behind the four known ones and no valid rule has it.
-/

namespace RuleScan

/-- The severity of a finding. -/
inductive Severity where
  | critical
  | high
  | medium
  | low
  /-- A name that is none of the four; the empty name stands for none given. -/
  | other (name : String)
  deriving Repr, DecidableEq, Inhabited

namespace Severity

/-- The four known severities, the most serious first. -/
def all : List Severity := [.critical, .high, .medium, .low]

/-- The name as it is written in documents. -/
def name : Severity → String
  | .critical => "critical"
  | .high => "high"
  | .medium => "medium"
  | .low => "low"
  | .other name => name

/-- The severity of a name. -/
def ofName (name : String) : Severity :=
  if name = "critical" then .critical
  else if name = "high" then .high
  else if name = "medium" then .medium
  else if name = "low" then .low
  else .other name

@[simp] theorem name_ofName (s : String) : (ofName s).name = s := by
  unfold ofName
  repeat' split
  all_goals simp_all [name]

/-- The place in the order of severities; unknown ones come last. -/
def rank : Severity → Nat
  | .critical => 0
  | .high => 1
  | .medium => 2
  | .low => 3
  | .other _ => 4

/-- Whether this is one of the four. -/
def isKnown : Severity → Bool
  | .other _ => false
  | _ => true

/-- A name that is not one of the four known severities. -/
structure Unknown where
  name : String
  deriving Repr, DecidableEq, Inhabited

/-- The text of the refusal. -/
def Unknown.message (e : Unknown) : String := "unknown severity: " ++ Text.quoted e.name

/-- Reads a severity; the empty name means medium. -/
def parse (name : String) : Except Unknown Severity :=
  if name = "" then .ok .medium
  else match ofName name with
    | .other n => .error ⟨n⟩
    | s => .ok s

end Severity

end RuleScan
