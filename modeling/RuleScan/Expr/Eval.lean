import RuleScan.Expr.Check
import RuleScan.Expr.Functions
import RuleScan.Expr.Records

/-!
# Evaluating scope expressions

`&&` and `||` yield an answer whenever one operand decides it, even if the other one fails; all
other operators fail with their first failing operand.
-/

namespace RuleScan.Expr

/-- What the variables hold; the result of a fold so far may be a failure. -/
abbrev Env := List (String × Outcome)

/-- A constant as a value. -/
def Const.val : Const → Val
  | .null => .null
  | .bool b => .bool b
  | .int n => .int n
  | .uint n => .uint n
  | .double x => .double x
  | .string s => .string s
  | .bytes b => .bytes b

/-- The value of a name that no variable has: a type, or a number. -/
def namedValue? (name : String) : Option Val :=
  let type := (namedTypes.find? (·.1 = name)).map fun (n, _) => Val.type n
  let number := (namedNumbers.find? (·.1 = name)).map fun (_, n) => Val.int n
  type <|> number

/-- The value of a name. -/
def nameValue (env : Env) (name : String) : Outcome :=
  let name := plainName name
  match env.find? (·.1 = name) with
  | some (_, v) => v
  | none =>
    match namedValue? name with
    | some v => .ok v
    | none => .error (.noSuchAttribute name)

/-- Two operands of `&&` or `||`: `decided` is the value either of them may decide on. -/
def logical (decided : Bool) (a b : Outcome) : Outcome :=
  if decides a || decides b then .ok (.bool decided)
  else match failed a, failed b with
    | some f, _ => .error f
    | none, some f => .error f
    | none, none => .ok (.bool !decided)
where
  /-- The failure of an operand, which also fails when it is no boolean. -/
  failed : Outcome → Option Failure
    | .error f => some f
    | .ok (.bool _) => none
    | .ok _ => some .noOverload
  /-- Whether an operand decides the answer alone. -/
  decides : Outcome → Bool
    | .ok (.bool x) => x = decided
    | _ => false

/-- The values of operands, or the failure of the first that fails. -/
def allValues : List Outcome → Except Failure (List Val)
  | [] => .ok []
  | .error f :: _ => .error f
  | .ok v :: rest => (allValues rest).map (v :: ·)

/-- Puts entries into a map one after the other, up to the first part that fails. -/
def buildMap : List (Outcome × Outcome) → List (Val × Val) → Outcome
  | [], built => .ok (.map built)
  | (k, v) :: rest, built => do
    let k ← k
    let v ← v
    hashable k
    buildMap rest (Val.insert built k v)

/-- The values of the fields of a record, or the failure of the first that fails. -/
def allFields : List (String × Outcome) → Except Failure (List (String × Val))
  | [] => .ok []
  | (name, v) :: rest => do return (name, ← v) :: (← allFields rest)

/-- The value of a function or operator from the outcomes of its operands.  Only the logical
operators and the choice look past a failing operand. -/
def applyOperator (name : String) (operands : List Outcome) : Outcome :=
  match name, operands with
  | "_&&_", [a, b] => logical false a b
  | "_||_", [a, b] => logical true a b
  | "_?_:_", [c, a, b] =>
    match c with
    | .ok (.bool true) => a
    | .ok (.bool false) => b
    | .ok _ => .error .noOverload
    | .error f => .error f
  | "@not_strictly_false", [.ok (.bool false)] => .ok (.bool false)
  | "@not_strictly_false", [_] => .ok (.bool true)
  | name, operands => (allValues operands).bind (applyFunction name)

/-- The elements a fold runs over. -/
def rangeOf (v : Val) : Except Failure (List Val) :=
  match v with
  | .map entries => .ok (entries.map (·.1))
  | v =>
    match v.elements? with
    | some es => .ok es
    | none => .error (.notIterable v.kindName)

/-- Runs a fold: `goOn` and `step` see an element and the result so far. -/
def runFold (goOn step : Val → Outcome → Outcome) : List Val → Outcome → Outcome
  | [], acc => acc
  | v :: rest, acc =>
    match goOn v acc with
    | .ok (.bool false) => acc
    | _ => runFold goOn step rest (step v acc)

/-- A list that was collected by a fold from nothing. -/
def collected (start final : Outcome) : Outcome :=
  match start, final with
  | .ok (.list _ []), .ok (.list _ es) => .ok (.list .built es)
  | _, final => final

mutual

/-- The value of an expression. -/
def eval : Expr → Env → Outcome
  | .const _ c, _ => .ok c.val
  | .ident _ name, env => nameValue env name
  | .select _ operand field test, env => do
    let qualified := if test then none else (operand.dottedName?).map (· ++ "." ++ field)
    match qualified.bind fun n => namedValue? (plainName n) with
    | some v => return v
    | none => selectField (← eval operand env) field test
  | .call _ name none args, env => applyOperator (plainName name) (evalAll args env)
  | .call _ name (some receiver) args, env =>
    let operands := evalAll args env
    let method := applyOperator name (eval receiver env :: operands)
    match (receiver.dottedName?).map (· ++ "." ++ name) with
    | some qualified =>
      if (signatures? qualified).isSome then applyOperator (plainName qualified) operands
      else method
    | none => method
  | .list _ elements, env => (allValues (evalAll elements env)).map (.list .built)
  | .map _ entries, env => buildMap (evalEntries entries env) []
  | .fold _ range var acc init goOn step result, env => do
    let elements ← rangeOf (← eval range env)
    let start := eval init env
    let outcome := collected start <| runFold
      (fun v a => eval goOn ((var, .ok v) :: (acc, a) :: env))
      (fun v a => eval step ((var, .ok v) :: (acc, a) :: env))
      elements start
    eval result ((acc, outcome) :: env)
  | .record _ name fields, env => do
    let values ← allFields (evalFields fields env)
    match RecordType.ofName? (plainName name) with
    | some r => r.build (plainName name) values
    | none => throw (.noSuchAttribute name)

/-- The outcomes of several expressions. -/
def evalAll : List Expr → Env → List Outcome
  | [], _ => []
  | e :: rest, env => eval e env :: evalAll rest env

/-- The outcomes of the entries of a map. -/
def evalEntries : List (Expr × Expr) → Env → List (Outcome × Outcome)
  | [], _ => []
  | (k, v) :: rest, env => (eval k env, eval v env) :: evalEntries rest env

/-- The outcomes of the fields of a record. -/
def evalFields : List (Nat × String × Expr) → Env → List (String × Outcome)
  | [], _ => []
  | (_, name, e) :: rest, env => (name, eval e env) :: evalFields rest env

end

end RuleScan.Expr
