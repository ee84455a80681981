import RuleScan.Expr.Eval
import RuleScan.Text.Quoted

/-!
# Expressions as conditions

Before an expression becomes a condition it is looked through for parts that could never be
evaluated.
-/

/-!
## Expressions that cannot be evaluated

Some expressions have a type and still cannot be evaluated at all: they name a type that is no
value, build a record of a type that is none, or look something up by a constant that cannot be
looked up.
-/

namespace RuleScan.Expr

/-- Why an expression cannot be evaluated. -/
inductive PlanError where
  | undefinedType (name : String)
  | unknownType (name : String)
  | badQualifier (kind : String)
  deriving Repr, DecidableEq, Inhabited

/-- The text of the refusal. -/
def PlanError.message : PlanError → String
  | .undefinedType name => "reference to undefined type: " ++ name
  | .unknownType name => "unknown type: " ++ name
  | .badQualifier kind => "invalid qualifier type: " ++ kind

/-- The value of an expression that is a constant. -/
def constant? : Expr → Option Val
  | .const _ c => some c.val
  | .ident _ name => namedValue? (plainName name)
  | .select _ operand field false =>
    (operand.dottedName?).bind fun n => namedValue? (plainName (n ++ "." ++ field))
  | _ => none

/-- Why nothing can be looked up by an expression. -/
def qualifierError? (e : Expr) : Option PlanError :=
  ((constant? e).filter fun v => !isQualifier v).map fun v => .badQualifier v.kindName

/-- Why a name cannot be evaluated; `undefinedTypes` are the names that stand for types without
being the name of one. -/
def nameError? (undefinedTypes : List String) (name : String) : Option PlanError :=
  let name := plainName name
  if undefinedTypes.contains name then some (.undefinedType name) else none

mutual

/-- The first reason why an expression cannot be evaluated. -/
def planError? (undefinedTypes : List String) : Expr → Option PlanError
  | .const _ _ => none
  | .ident _ name => nameError? undefinedTypes name
  | .select _ operand field test =>
    let qualified := if test then none else (operand.dottedName?).map (· ++ "." ++ field)
    match qualified.bind fun n => RecordType.ofName? (plainName n) with
    | some _ => qualified.bind (nameError? undefinedTypes)
    | none => planError? undefinedTypes operand
  | .call _ name none args =>
    let index := match name, args with
      | "_[_]", [_, i] => qualifierError? i
      | _, _ => none
    planErrorAmong? undefinedTypes args <|> index
  | .call _ name (some receiver) args =>
    let qualified := (receiver.dottedName?).any fun n => (signatures? (n ++ "." ++ name)).isSome
    let target := if qualified then none else planError? undefinedTypes receiver
    target <|> planErrorAmong? undefinedTypes args
  | .list _ elements => planErrorAmong? undefinedTypes elements
  | .map _ entries => planErrorInMap? undefinedTypes entries
  | .fold _ range _ _ init goOn step result =>
    planError? undefinedTypes init <|> planError? undefinedTypes range <|>
      planError? undefinedTypes goOn <|> planError? undefinedTypes step <|>
      planError? undefinedTypes result
  | .record _ name fields =>
    if (RecordType.ofName? (plainName name)).isNone then some (.unknownType (plainName name))
    else planErrorInFields? undefinedTypes fields

/-- The first reason among several expressions. -/
def planErrorAmong? (undefinedTypes : List String) : List Expr → Option PlanError
  | [] => none
  | e :: rest => planError? undefinedTypes e <|> planErrorAmong? undefinedTypes rest

/-- The first reason among the entries of a map. -/
def planErrorInMap? (undefinedTypes : List String) : List (Expr × Expr) → Option PlanError
  | [] => none
  | (k, v) :: rest =>
    planError? undefinedTypes k <|> planError? undefinedTypes v <|>
      planErrorInMap? undefinedTypes rest

/-- The first reason among the fields of a record. -/
def planErrorInFields? (undefinedTypes : List String) :
    List (Nat × String × Expr) → Option PlanError
  | [] => none
  | (_, _, e) :: rest =>
    planError? undefinedTypes e <|> planErrorInFields? undefinedTypes rest

end

end RuleScan.Expr

/-!
## Conditions on files

A condition is a scope expression that yields a boolean for the path of a file.  It is refused
when it cannot be read, cannot be typed, or is known to yield something else.
-/

namespace RuleScan

/-- A condition on the path of a file. -/
structure Predicate where
  text : String
  expr : Expr
  deriving Inhabited

namespace Predicate

/-- Why a text is no condition. -/
inductive CompileError where
  | grammar
  | issues (text : String) (list : List Expr.Issue)
  | notBool (type : Expr.Ty)
  | plan (cause : Expr.PlanError)
  deriving Repr, Inhabited

/-- The text of the refusal. -/
def CompileError.message : CompileError → String
  | .grammar => "compile expression: Syntax error"
  | .issues text list => "compile expression: " ++ Expr.displayAll text list
  | .notBool t => "expression must evaluate to a bool, got " ++ t.fullName
  | .plan cause => "create program: " ++ cause.message

/-- Why a condition yields no answer for a file. -/
inductive EvalError where
  | failed (text : String) (cause : Expr.Failure)
  | notBool (text holder : String)
  deriving Repr, Inhabited

/-- The text of the failure. -/
def EvalError.message : EvalError → String
  | .failed text cause => "evaluate " ++ Text.quoted text ++ ": " ++ cause.message
  | .notBool text holder =>
    "evaluate " ++ Text.quoted text ++ ": expression must evaluate to a bool, got " ++ holder

/-- Reads and types a condition. -/
def compile (text : String) : Except CompileError Predicate :=
  match Expr.parse text with
  | .error .grammar => .error .grammar
  | .error (.issues list) => .error (.issues text list)
  | .ok e =>
    match Expr.typed e with
    | .error list => .error (.issues text list)
    | .ok t =>
      if t.ty = .bool || t.ty = .dyn then
        match Expr.planError? t.undefinedTypes e with
        | some cause => .error (.plan cause)
        | none => .ok ⟨text, e⟩
      else .error (.notBool t.ty)

/-- The answer of a condition for a file. -/
def eval (p : Predicate) (file : String) : Except EvalError Bool :=
  match Expr.eval p.expr [("file", .ok (.string file))] with
  | .ok (.bool b) => .ok b
  | .ok v => .error (.notBool p.text v.holderName)
  | .error f => .error (.failed p.text f)

end Predicate

end RuleScan
