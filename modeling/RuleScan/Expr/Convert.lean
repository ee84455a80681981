import RuleScan.Decimal.Read
import RuleScan.Expr.Arithmetic
import RuleScan.Expr.Format

/-!
# Conversions between values

Every type has a function of its name that makes its values from others.
-/

namespace RuleScan.Expr

open RuleScan.Text RuleScan.Time

/-- A whole number in decimal, with an optional sign. -/
def readInt? (s : String) : Option Int :=
  let (negative, ds) := match s.toList with
    | '-' :: ds => (true, ds)
    | '+' :: ds => (false, ds)
    | ds => (false, ds)
  if ds.isEmpty || !ds.all Char.isDigit then none
  else
    let n := Decimal.digitsNumber ds
    some (if negative then -(n : Int) else n)

/-- The whole part of a double, if it is a number. -/
def truncate? (x : Float) : Option Int :=
  match Decimal.classify x with
  | .finite b =>
    let n : Int := if 0 ≤ b.q then b.m * Nat.pow 2 b.q.toNat else (b.m / Nat.pow 2 (-b.q).toNat : Nat)
    some (if b.negative then -n else n)
  | _ => none

/-- The types that the functions named for types make their values from. -/
def conversionSources : List (String × List String) :=
  let duration := "google.protobuf.Duration"
  let moment := "google.protobuf.Timestamp"
  [("bool", ["bool", "string"]),
   ("bytes", ["bytes", "string"]),
   ("double", ["double", "int", "string", "uint"]),
   ("duration", [duration, "int", "string"]),
   ("int", ["int", "double", duration, "string", moment, "uint"]),
   ("string", ["string", "bool", "bytes", "double", duration, "int", moment, "uint"]),
   ("timestamp", [moment, "int", "string"]),
   ("uint", ["uint", "double", "int", "string"])]

/-- The full name of the type that a function is named for. -/
def targetName (function : String) : String :=
  if function = "duration" then "google.protobuf.Duration"
  else if function = "timestamp" then "google.protobuf.Timestamp"
  else function

/-- The whole number of a value. -/
def toInt? : Val → Option Outcome
  | .uint n => some (checkedInt n)
  | .double x => some (match truncate? x with
    | some n => if intMin < n ∧ n < intMax then .ok (.int n) else .error .overflow
    | none => .error .overflow)
  | .string s => ((readInt? s).filter fun n => intMin ≤ n && n ≤ intMax).map (.ok ∘ .int)
  | .duration n => some (.ok (.int n))
  | .moment m => some (.ok (.int m.seconds))
  | _ => none

/-- The number without sign of a value. -/
def toUint? : Val → Option Outcome
  | .int n => some (checkedUint n)
  | .double x => some (match truncate? x with
    | some n => if 0 ≤ n ∧ n < Word.size ∧ 0 ≤ x then .ok (.uint n.toNat)
      else .error .unsignedOverflow
    | none => .error .unsignedOverflow)
  | .string s =>
    let n := Decimal.digitsNumber s.toList
    if !s.isEmpty && s.all Char.isDigit && n < Word.size then some (.ok (.uint n)) else none
  | _ => none

/-- The text of a value. -/
def toText? : Val → Option Outcome
  | .int n => some (.ok (.string (toString n)))
  | .uint n => some (.ok (.string (toString n)))
  | .bool b => some (.ok (.string (toString b)))
  | .double x => some (.ok (.string (Decimal.generalStyle.text x)))
  | .bytes b =>
    some (if (decode b).any fun r => r.code = replacement && r.width = 1 then .error .notText
      else .ok (.string (textOf b)))
  | .duration n => some (.ok (.string (secondsText n)))
  | .moment m => some (.ok (.string m.text))
  | _ => none

/-- The double of a value. -/
def toDouble? : Val → Option Outcome
  | .int n => some (.ok (.double (Val.doubleOf n)))
  | .uint n => some (.ok (.double (Val.doubleOf n)))
  | .string s => ((Decimal.read? s).filter (!·.tooLarge)).map fun w => .ok (.double w.value)
  | _ => none

/-- The truth value of a text. -/
def toBool? : Val → Option Outcome
  | .string s =>
    if ["1", "t", "T", "true", "TRUE", "True"].contains s then some (.ok (.bool true))
    else if ["0", "f", "F", "false", "FALSE", "False"].contains s then some (.ok (.bool false))
    else none
  | _ => none

/-- The moment of a number of seconds or of a text. -/
def toMoment? : Val → Option Outcome
  | .int n => some (checkedMoment { seconds := n })
  | .string s => (Moment.parse? s).map checkedMoment
  | _ => none

/-- The duration of a text. -/
def toDuration? : Val → Option Outcome
  | .string s => (Duration.parse s).toOption.map (.ok ∘ .duration)
  | _ => none

/-- The value that a function named for a type makes of another one. -/
def convert (function : String) (v : Val) : Outcome :=
  let target := targetName function
  if v.typeName = target then .ok v
  else
    let converted := match function with
      | "int" => toInt? v
      | "uint" => toUint? v
      | "string" => toText? v
      | "double" => toDouble? v
      | "bool" => toBool? v
      | "timestamp" => toMoment? v
      | "duration" => toDuration? v
      | _ => match v with
        | .string s => some (.ok (.bytes (bytesOf s)))
        | _ => none
    converted.getD (.error (.conversion v.typeName target))

/-- Functions named for types. -/
def conversion? (name : String) (args : List Val) : Option Outcome :=
  match conversionSources.find? (·.1 = name), args with
  | some (_, sources), [v] => if sources.contains v.typeName then some (convert name v) else none
  | _, _ => none

end RuleScan.Expr
