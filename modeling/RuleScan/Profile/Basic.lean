import RuleScan.Rule.Basic

/-!
# Profiles

A profile is a named collection of rules.  A draft may still have gaps among its rules; what is
wrong with it is told problem by problem, and a draft without problems has no gaps.
-/

namespace RuleScan

/-- A named collection of rules. -/
structure Profile where
  metadata : List (String × Json) := []
  name : String := ""
  description : String := ""
  version : String := ""
  rules : List Rule := []
  deriving Inhabited

/-- A profile in the making: a rule may be missing from its place. -/
structure Profile.Draft where
  metadata : List (String × Json) := []
  name : String := ""
  description : String := ""
  version : String := ""
  rules : List (Option Rule) := []
  deriving Inhabited

namespace Profile

/-- The profile as a draft. -/
def draft (p : Profile) : Draft :=
  { metadata := p.metadata
    name := p.name
    description := p.description
    version := p.version
    rules := p.rules.map some }

/-- The rule with an id. -/
def rule? (p : Profile) (id : String) : Option Rule := p.rules.find? (·.id = id)

/-- Fills in the defaults of the rules. -/
def withDefaults (p : Profile) : Profile := { p with rules := p.rules.map Rule.withDefaults }

/-- Whether two profiles say the same; their metadata does not count. -/
def same (a b : Profile) : Bool :=
  a.name = b.name && a.description = b.description && a.version = b.version &&
    a.rules = b.rules

namespace Draft

/-- Fills in the defaults of the rules. -/
def withDefaults (d : Draft) : Draft :=
  { d with rules := d.rules.map (·.map Rule.withDefaults) }

/-- What is wrong with a draft. -/
inductive Problem where
  | nameRequired
  | noRules
  | missingRule (index : Nat)
  | rule (index : Nat) (problem : Rule.Problem)
  | duplicate (index : Nat) (id : String) (first : Nat)
  deriving Inhabited

/-- The text of a problem. -/
def Problem.message : Problem → String
  | .nameRequired => "name: required"
  | .noRules => "rules: at least one rule is required"
  | .missingRule i => "rules[" ++ toString i ++ "]: must be an object"
  | .rule i p => "rules[" ++ toString i ++ "]." ++ p.message
  | .duplicate i id first =>
    "rules[" ++ toString i ++ "].id: duplicate id " ++ Text.quoted id ++ " (first used by rules[" ++
      toString first ++ "])"

/-- The place where an id is used first among some rules. -/
def firstUse? (id : String) (rules : List (Option Rule)) : Option Nat :=
  rules.findIdx? fun
    | some r => r.id = id
    | none => false

/-- What is wrong with the rule at an index, given the rules before it. -/
def ruleProblems (before : List (Option Rule)) (index : Nat) : Option Rule → List Problem
  | none => [.missingRule index]
  | some r =>
    r.problems.map (.rule index) ++
      match firstUse? r.id before with
      | some first => if r.id = "" then [] else [.duplicate index r.id first]
      | none => []

/-- Everything that is wrong with a draft. -/
def problems (d : Draft) : List Problem :=
  (if Text.trim d.name = "" then [.nameRequired] else []) ++
    (if d.rules.isEmpty then [.noRules] else []) ++
    d.rules.zipIdx.flatMap fun (r, i) => ruleProblems (d.rules.take i) i r

end Draft

/-- Everything that is wrong with a profile. -/
def problems (p : Profile) : List Draft.Problem := p.draft.problems

end Profile

end RuleScan
