import RuleScan.Schema.Number
import RuleScan.Text.Quoted
import RuleScan.Yaml.Path

/-!
# Faults and violations

What can be wrong with a value in one place, and how all that is wrong with it is put together.
-/

/-!
## What can be wrong with a value

Each keyword of a schema has its own fault, and the wording of all of them stands here.
-/

namespace RuleScan.Schema

/-- The text of a value between single quotes. -/
def quoteWith (quoted : String) : String :=
  let s := (quoted.replace "\\\"" "\"").replace "'" "\\'"
  "'" ++ String.ofList (s.toList.drop 1).dropLast ++ "'"

/-- A text between single quotes. -/
def quote (s : String) : String := quoteWith (Text.quoted s)

/-- Names between single quotes, with commas between them. -/
def quoteAll (names : List String) : String := ", ".intercalate (names.map quote)

/-- A value in messages; lists and objects have no text. -/
def display? : Json → Option String
  | .string s => some (quote s)
  | .bytes b => some (quoteWith (Text.quotedBytes b))
  | .null => some "<nil>"
  | .bool b => some (if b then "true" else "false")
  | .int n => some (toString n)
  | .float x => some (Decimal.generalStyle.text x)
  | .binary _ | .moment _ | .array _ | .object _ => none

/-- What can be wrong with a value. -/
inductive Fault where
  /-- The schema allows no value. -/
  | nothingAllowed
  /-- Two ways through the schema lead back to the same place of it. -/
  | cycle (first second address : String)
  /-- A value that no schema knows. -/
  | unknownKind (name : String)
  | wrongType (got : String) (want : List String)
  | notTheConstant (want : Json)
  | notAmong (want : List Json)
  | notInFormat (got : Json) (format problem : String)
  /-- A size is out of bounds. -/
  | size (keyword : String) (got want : Int)
  /-- A number is out of bounds. -/
  | number (keyword : String) (got want : Exact)
  | missing (names : List String)
  | missingWith (names : List String) (present : String)
  | additionalFields (names : List String)
  | additionalElements (count : Nat)
  | equalElements (i j : Nat)
  | unlikePattern (got : Json) (pattern : String)
  | refuted
  | notAll
  | notAny
  | noneOf
  | severalOf (i j : Nat)
  | noneContained
  | fewContained (want : Int) (places : List Nat)
  | manyContained (want : Int) (places : List Nat)
  | reference (address : String)
  | fieldName (name : String)
  | several
  deriving Inhabited

/-- Places in a list, one after the other. -/
def placesText (places : List Nat) : String := " ".intercalate (places.map toString)

/-- The wording of a fault. -/
def Fault.message : Fault → String
  | .nothingAllowed => "false schema"
  | .cycle first second address =>
    "both " ++ first ++ " and " ++ second ++ " resolve to " ++ Text.quoted address ++
      " causing reference cycle"
  | .unknownKind name => "invalid jsonType " ++ name
  | .wrongType got want => "got " ++ got ++ ", want " ++ " or ".intercalate want
  | .notTheConstant want =>
    match display? want with
    | some s => "value must be " ++ s
    | none => "'const' failed"
  | .notAmong want =>
    match want.mapM display? with
    | none => "'enum' failed"
    | some [one] => "value must be " ++ one
    | some list => "value must be one of " ++ ", ".intercalate list
  | .notInFormat got format problem =>
    (display? got).getD "value" ++ " is not valid " ++ format ++ ": " ++ problem
  | .size keyword got want => keyword ++ ": got " ++ grouped got ++ ", want " ++ grouped want
  | .number keyword got want =>
    keyword ++ ": got " ++ floatMessage got.toFloat ++ ", want " ++ floatMessage want.toFloat
  | .missing names =>
    (if names.length = 1 then "missing property " else "missing properties ") ++ quoteAll names
  | .missingWith names present =>
    "properties " ++ quoteAll names ++ " required, if " ++ quote present ++ " exists"
  | .additionalFields names => "additional properties " ++ quoteAll names ++ " not allowed"
  | .additionalElements count =>
    "last " ++ grouped count ++ " additionalItem(s) not allowed"
  | .equalElements i j => "items at " ++ grouped i ++ " and " ++ grouped j ++ " are equal"
  | .unlikePattern got pattern =>
    (display? got).getD "value" ++ " does not match pattern " ++ quote pattern
  | .refuted => "'not' failed"
  | .notAll => "'allOf' failed"
  | .notAny => "'anyOf' failed"
  | .noneOf => "'oneOf' failed, none matched"
  | .severalOf i j =>
    "'oneOf' failed, subschemas " ++ grouped i ++ ", " ++ grouped j ++ " matched"
  | .noneContained => "no items match contains schema"
  | .fewContained want places =>
    "min " ++ grouped want ++ " items required to match contains schema, but " ++
      if places.isEmpty then "none matched"
      else "matched " ++ grouped places.length ++ " items at " ++ placesText places
  | .manyContained want places =>
    "max " ++ grouped want ++ " items required to match contains schema, but matched " ++
      grouped places.length ++ " items at " ++ placesText places
  | .reference address => "validation failed with " ++ quote address
  | .fieldName name => "invalid propertyName " ++ quote name
  | .several => "validation failed"

end RuleScan.Schema

/-!
## Violations of a schema

What is wrong with a value is a tree: a leaf says what is wrong at a place, an inner node gathers
the problems that together make a rule of the schema fail.  For a report the leaves are listed with
their places, each once, and the place that is described most exactly is pointed at.
-/

namespace RuleScan.Schema

/-- A tree of violations; the place is given by names and indices from the root of the value. -/
inductive Violation where
  | node (location : List String) (message : String) (causes : List Violation)
  deriving Inhabited

namespace Violation

/-- The place of a violation. -/
def location : Violation → List String
  | .node l _ _ => l

/-- What stands below a violation. -/
def causes : Violation → List Violation
  | .node _ _ c => c

/-- A violation without causes, with its place in front. -/
def line (location : List String) (message : String) : String :=
  Yaml.locationText location ++ ": " ++ message

mutual

/-- The leaves of a tree as lines, from left to right. -/
def leaves : Violation → List String
  | .node l m causes => if causes.isEmpty then [line l m] else leavesAll causes

/-- The leaves of several trees as lines. -/
def leavesAll : List Violation → List String
  | [] => []
  | v :: rest => leaves v ++ leavesAll rest

end

mutual

/-- The longest place in a tree; of several the first from above and from the left. -/
def deepest : Violation → List String
  | .node l _ causes => deepestAll l causes

/-- The longest of a place and the longest places of several trees. -/
def deepestAll (best : List String) : List Violation → List String
  | [] => best
  | v :: rest =>
    let found := deepest v
    deepestAll (if found.length > best.length then found else best) rest

end

/-- Drops elements that equal the one before. -/
def dropRepeats : List String → List String
  | a :: b :: rest => if a = b then dropRepeats (b :: rest) else a :: dropRepeats (b :: rest)
  | short => short

/-- All problems in order, each once. -/
def listing (v : Violation) : List String := dropRepeats (v.leaves.mergeSort (· ≤ ·))

end Violation

end RuleScan.Schema
