import RuleScan.Expr.Desugar
import RuleScan.Expr.Value

/-!
# Operators of scope expressions

Operators fail on operands they are not made for.  The failure names the operator when the left
operand knows nothing of it; an operand that answers calls of any kind only says that it has no
such operation.
-/

namespace RuleScan.Expr

open RuleScan.Text RuleScan.Time

/-- Whether a value answers calls of any name itself. -/
def Val.answersCalls : Val → Bool
  | .string _ | .duration _ | .moment _ => true
  | _ => false

/-- The failure of a function that its first operand knows nothing of. -/
def lacking (function : String) (v : Val) : Outcome :=
  .error (if v.answersCalls then .noOverload else .noOverloadNamed function)

/-- A whole number within bounds. -/
def checkedInt (n : Int) : Outcome :=
  if intMin ≤ n ∧ n ≤ intMax then .ok (.int n) else .error .overflow

/-- A number without sign within bounds. -/
def checkedUint (n : Int) : Outcome :=
  if 0 ≤ n ∧ n < Word.size then .ok (.uint n.toNat) else .error .unsignedOverflow

/-- A duration within bounds. -/
def checkedDuration (n : Int) : Outcome :=
  if intMin ≤ n ∧ n ≤ intMax then .ok (.duration n) else .error .durationOverflow

/-- The first and the last second of the years from 1 to 9999. -/
def firstSecond : Int := -62135596800
def lastSecond : Int := 253402300799

/-- A moment within bounds. -/
def checkedMoment (m : Moment) : Outcome :=
  if firstSecond ≤ m.seconds ∧ m.seconds ≤ lastSecond then .ok (.moment m)
  else .error .momentOverflow

/-- One list behind the other; an empty one changes nothing. -/
def joinLists (a b : Val) (x y : List Val) : Val :=
  if x.isEmpty then b else if y.isEmpty then a else .list .joined (x ++ y)

/-- Sums and concatenations. -/
def add : Val → Val → Outcome
  | .int a, .int b => checkedInt (a + b)
  | .uint a, .uint b => checkedUint (a + b)
  | .double a, .double b => .ok (.double (a + b))
  | .string a, .string b => .ok (.string (a ++ b))
  | .bytes a, .bytes b => .ok (.bytes (a ++ b))
  | .duration a, .duration b => checkedDuration (a + b)
  | .duration a, .moment b => checkedMoment (b.later a)
  | .moment a, .duration b => checkedMoment (a.later b)
  | .list k x, .list l y => .ok (joinLists (.list k x) (.list l y) x y)
  | a, _ =>
    match a with
    | .null | .bool _ | .map _ | .type _ | .record _ => lacking "_+_" a
    | _ => .error .noOverload

/-- Differences. -/
def subtract : Val → Val → Outcome
  | .int a, .int b => checkedInt (a - b)
  | .uint a, .uint b => checkedUint ((a : Int) - b)
  | .double a, .double b => .ok (.double (a - b))
  | .duration a, .duration b => checkedDuration (a - b)
  | .moment a, .duration b => checkedMoment (a.later (-b))
  | .moment a, .moment b => checkedDuration (a.since b)
  | a, _ => if a.isNumber then .error .noOverload else lacking "_-_" a

/-- Products. -/
def multiply : Val → Val → Outcome
  | .int a, .int b => checkedInt (a * b)
  | .uint a, .uint b => checkedUint (a * b)
  | .double a, .double b => .ok (.double (a * b))
  | a, _ => if a.isNumber then .error .noOverload else lacking "_*_" a

/-- Quotients, rounded toward zero. -/
def divide : Val → Val → Outcome
  | .int a, .int b => if b = 0 then .error .divisionByZero else checkedInt (a.tdiv b)
  | .uint a, .uint b => if b = 0 then .error .divisionByZero else .ok (.uint (a / b))
  | .double a, .double b => .ok (.double (a / b))
  | a, _ => if a.isNumber then .error .noOverload else lacking "_/_" a

/-- Remainders, with the sign of the dividend. -/
def modulo : Val → Val → Outcome
  | .int a, .int b =>
    if b = 0 then .error .modulusByZero
    else if a = intMin ∧ b = -1 then .error .overflow
    else .ok (.int (a.tmod b))
  | .uint a, .uint b => if b = 0 then .error .modulusByZero else .ok (.uint (a % b))
  | a, _ =>
    match a with
    | .int _ | .uint _ => .error .noOverload
    | _ => lacking "_%_" a

/-- Negation. -/
def negate : Val → Outcome
  | .int a => checkedInt (-a)
  | .double a => .ok (.double (-a))
  | .duration a => checkedDuration (-a)
  | .bool _ => .error .noOverload
  | a => lacking "-_" a

/-- Comparisons. -/
def compareWith (function : String) (accept : Ordering → Bool) (a b : Val) : Outcome :=
  if a.isComparable then (a.order b).map fun o => .bool (accept o) else lacking function a

/-! ## Containers -/

/-- Whether a value can be the key of a map at all. -/
def hashable (v : Val) : Except Failure Unit :=
  match v with
  | .bytes _ => .error (.unhashable v.kindName)
  | _ => .ok ()

/-- Membership in a list, or of a key in a map. -/
def member? (a b : Val) : Outcome :=
  match b with
  | .map [] => .ok (.bool false)
  | .map entries => do
    hashable a
    return .bool (Val.lookup? entries a).isSome
  | .list _ es => .ok (.bool (es.any fun e => Val.equal a e))
  | _ => .error .noOverload

/-- The position an index denotes. -/
def indexValue (i : Val) : Except Failure Int :=
  if i.isNumber then
    match i.exactInt? with
    | some n => .ok n
    | none => .error (.badIndexValue i.shown)
  else .error (.badIndexType (Val.spelledType i.typeName))

/-- The element of a list or the value of a key, if it is there. -/
def found? (container i : Val) : Except Failure (Option Val) :=
  match container with
  | .map entries => .ok (Val.lookup? entries i)
  | .list _ es => do
    let n ← indexValue i
    return if 0 ≤ n then es[n.toNat]? else none
  | _ => .ok none

/-- Whether a value can be used to look something up. -/
def isQualifier : Val → Bool
  | .string _ | .int _ | .uint _ | .double _ | .bool _ => true
  | _ => false

/-- The element of a list or the value of a key. -/
def index (container i : Val) : Outcome := do
  if !isQualifier i then throw (.badQualifier i.kindName)
  match ← found? container i, container with
  | some v, _ => return v
  | none, .list _ _ => throw (.outOfBounds i.shown)
  | none, _ => throw (.noSuchKey i.shown)

/-- The value of a field, or whether it is there. -/
def selectField (v : Val) (field : String) (test : Bool) : Outcome := do
  match ← found? v (.string field), test with
  | found, true => return .bool found.isSome
  | some v, false => return v
  | none, false => throw (.noSuchKey field)

end RuleScan.Expr
