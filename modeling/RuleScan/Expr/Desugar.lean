import RuleScan.Decimal.Read
import RuleScan.Expr.Parse
import RuleScan.Expr.Syntax

/-!
# From sentences to expressions

`has`, `all`, `exists`, `exists_one`, `map`, `filter` and `sortBy` are spelled out as the folds
they stand for, and constants get their values.  Problems of a name or a number are collected with
their places, so that one run reports them all.
-/

namespace RuleScan.Expr

/-- Why an expression could not be read. -/
inductive ParseError where
  /-- It does not follow the grammar. -/
  | grammar
  /-- It does, but some of it is unacceptable. -/
  | issues (list : List Issue)
  deriving Repr, Inhabited

/-- A step of spelling out: it collects problems, newest first, and may stop early. -/
abbrev Desugar := ExceptT Unit (StateM (List Issue))

namespace Desugar

/-- Notes a problem; the value in its place is of no consequence. -/
def report (offset : Nat) (message : String) : Desugar Expr := do
  modify fun issues => ⟨some offset, message⟩ :: issues
  return .const offset .null

/-- Goes one level down; beyond the greatest depth nothing more is read. -/
def deeper (depth : Nat) : Desugar Nat := do
  if depth < maxDepth then return depth + 1
  modify fun issues => ⟨none, "max recursion depth exceeded"⟩ :: issues
  throw ()

end Desugar

open RuleScan.Expr.Desugar

/-- Names that must not be used as variables or functions. -/
def reservedNames : List String :=
  ["as", "break", "const", "continue", "else", "for", "function", "if", "import", "let", "loop",
   "package", "namespace", "return", "var", "void", "while"]

/-- The least and greatest whole numbers. -/
def intMin : Int := -Word.half
def intMax : Int := Word.half - 1

/-- The value of a number's digits, which may be hexadecimal. -/
def digitsValue (digits : String) : Nat :=
  match digits.toList with
  | '0' :: 'x' :: hex => (Unicode.hexNumber? hex).getD 0
  | ds => Decimal.digitsNumber ds

/-- The constant of a word, or a problem. -/
def literal (offset : Nat) (negative : Bool) : Word → Desugar Expr
  | .int digits =>
    let n : Int := if negative then -(digitsValue digits : Int) else digitsValue digits
    if intMin ≤ n ∧ n ≤ intMax then return .const offset (.int n)
    else report offset "invalid int literal"
  | .uint digits =>
    let n := digitsValue digits
    if n < Word.size then return .const offset (.uint n) else report offset "invalid uint literal"
  | .double text =>
    match Decimal.read? text with
    | some w =>
      if w.tooLarge then report offset "invalid double literal"
      else return .const offset (.double (if negative then -w.value else w.value))
    | none => report offset "invalid double literal"
  | .string s => return .const offset (.string s)
  | .bytes b => return .const offset (.bytes b)
  | .badQuoted problem => report offset problem
  | .symbol "true" => return .const offset (.bool true)
  | .symbol "false" => return .const offset (.bool false)
  | _ => return .const offset .null

/-! ## Folds -/

/-- The name of the variable that holds the result of a fold so far. -/
def accName : String := "@result"

/-- The name of the list that is being sorted by a key. -/
def sortedName : String := "@__sortBy_input__"

/-- A variable of a fold must be a plain name other than that of the result. -/
def foldVar (arg : Expr) (whenNot : String) (build : String → Expr) : Desugar Expr :=
  match arg with
  | .ident p name =>
    if name = accName || name = "__result__" then
      report p "iteration variable overwrites accumulator variable"
    else return build name
  | e => report e.offset whenNot

/-- Whether a list to sort may be spelled this way. -/
def isSortable : Expr → Bool
  | .list _ _ | .select _ _ _ _ | .ident _ _ | .fold _ _ _ _ _ _ _ _ | .call _ _ _ _ => true
  | _ => false

/-- The list of the values of `f`, where a variable runs over a range. -/
def mapping (p : Nat) (range f : Expr) (var : String) : Expr :=
  let acc := Expr.ident p accName
  .fold p range var accName (.list p []) (.const p (.bool true))
    (.call p "_+_" none [acc, .list p [f]]) acc

/-- A range sorted by the values of a key. -/
def sorting (p : Nat) (range key : Expr) (var : String) : Expr :=
  let input := Expr.ident p sortedName
  .fold p (.list p []) "#unused" sortedName range (.const p (.bool false)) input
    (.call p "@sortByAssociatedKeys" (some input) [mapping p input key var])

/-- The fold a method call stands for, if it stands for one. -/
def methodFold? (p : Nat) (name : String) (range : Expr) (args : List Expr) :
    Option (Desugar Expr) :=
  let acc := Expr.ident p accName
  let call (f : String) (args : List Expr) : Expr := .call p f none args
  let true_ := Expr.const p (.bool true)
  let one := Expr.const p (.int 1)
  let plainName := "argument must be a simple name"
  let noName := "argument is not an identifier"
  match name, args with
  | "all", [v, test] =>
    some <| foldVar v plainName fun x =>
      .fold p range x accName true_ (call "@not_strictly_false" [acc])
        (call "_&&_" [acc, test]) acc
  | "exists", [v, test] =>
    some <| foldVar v plainName fun x =>
      .fold p range x accName (.const p (.bool false))
        (call "@not_strictly_false" [call "!_" [acc]]) (call "_||_" [acc, test]) acc
  | "exists_one", [v, test] =>
    some <| foldVar v plainName fun x =>
      .fold p range x accName (.const p (.int 0)) true_
        (call "_?_:_" [test, call "_+_" [acc, one], acc]) (call "_==_" [acc, one])
  | "map", [v, f] => some <| foldVar v noName fun x => mapping p range f x
  | "map", [v, test, f] =>
    some <| foldVar v noName fun x =>
      .fold p range x accName (.list p []) true_
        (call "_?_:_" [test, call "_+_" [acc, .list p [f]], acc]) acc
  | "filter", [v, test] =>
    some <| foldVar v noName fun x =>
      .fold p range x accName (.list p []) true_
        (call "_?_:_" [test, call "_+_" [acc, .list p [v]], acc]) acc
  | "sortBy", [v, key] =>
    some <|
      if isSortable range then foldVar v noName fun x => sorting p range key x
      else report range.offset
        "sortBy can only be applied to a list, identifier, comprehension, call or select expression"
  | _, _ => none

/-- The expression a call of a function stands for. -/
def plainCall (p : Nat) (name : String) (args : List Expr) : Desugar Expr :=
  match name, args with
  | "has", [.select _ operand field _] => return .select p operand field true
  | "has", [e] => report e.offset "invalid argument to has() macro"
  | _, _ => return .call p name none args

/-- The complaint about a name between backquotes. -/
def escapedProblem : String := "unsupported syntax: '`'"

mutual

/-- The expression of a sentence, at some depth. -/
def Tree.desugar : Tree → Nat → Desugar Expr
  | .literal p negative w, _ => Expr.literal p negative w
  | .ident start p leading name, _ =>
    if reservedNames.contains name then report start ("reserved identifier: " ++ name)
    else return .ident p (if leading then "." ++ name else name)
  | .call start p leading name args, depth => do
    if reservedNames.contains name then report start ("reserved identifier: " ++ name)
    else plainCall p (if leading then "." ++ name else name) (← desugarAll args depth)
  | .select operand dot optional field, depth => do
    let depth ← deeper depth
    let e ← operand.desugar depth
    if field.escaped then let _ ← report field.offset escapedProblem
    if optional then report dot "unsupported syntax '.?'"
    else return .select dot e field.name false
  | .method operand name p args, depth => do
    let depth ← deeper depth
    let e ← operand.desugar depth
    let args ← desugarAll args depth
    (methodFold? p name e args).getD (return .call p name (some e) args)
  | .index operand p optional i, depth => do
    let depth ← deeper depth
    let e ← operand.desugar depth
    let i ← i.desugar depth
    if optional then report p "unsupported syntax '[?'"
    else return .call p "_[_]" none [e, i]
  | .list p elements, depth => do return .list p (← desugarElements elements depth)
  | .map p entries, depth => do return .map p (← desugarEntries entries depth)
  | .record p name fields, depth => do
    let start := match fields with
      | (mark, field, _, _) :: _ => mark.getD field.offset
      | [] => p
    return .record p name (← desugarFields start fields depth)
  | .unary f ps operand, depth => do
    let e ← operand.desugar depth
    return if ps.length % 2 = 0 then e else .call (ps.headD 0) f none [e]
  | .binary f p a b, depth => do
    let depth ← deeper depth
    let a ← a.desugar depth
    let b ← b.desugar depth
    return .call p f none [a, b]
  | .logical f first rest, depth => do
    let first ← first.desugar depth
    let rest ← desugarRest rest depth
    return rest.foldl (fun e (p, next) => .call p f none [e, next]) first
  | .choice p c a b, depth => do
    let depth ← deeper depth
    let c ← c.desugar depth
    let a ← a.desugar depth
    let b ← b.desugar depth
    return .call p "_?_:_" none [c, a, b]

/-- The expressions of arguments. -/
def desugarAll : List Tree → Nat → Desugar (List Expr)
  | [], _ => return []
  | e :: rest, depth => do
    let e ← e.desugar depth
    return e :: (← desugarAll rest depth)

/-- The expressions of list elements, none of which may be left out. -/
def desugarElements : List (Option Nat × Tree) → Nat → Desugar (List Expr)
  | [], _ => return []
  | (mark, e) :: rest, depth => do
    let e ← e.desugar depth
    if let some p := mark then let _ ← report p "unsupported syntax '?'"
    return e :: (← desugarElements rest depth)

/-- The expressions of map entries; an entry that may be left out is not looked at. -/
def desugarEntries : List (Option Nat × Tree × Tree) → Nat → Desugar (List (Expr × Expr))
  | [], _ => return []
  | (some p, _, _) :: rest, depth => do
    let _ ← report p "unsupported syntax '?'"
    desugarEntries rest depth
  | (none, k, v) :: rest, depth => do
    let k ← k.desugar depth
    let v ← v.desugar depth
    return (k, v) :: (← desugarEntries rest depth)

/-- The expressions of record fields. -/
def desugarFields (start : Nat) :
    List (Option Nat × FieldName × Nat × Tree) → Nat → Desugar (List (Nat × String × Expr))
  | [], _ => return []
  | (some p, _, _, _) :: rest, depth => do
    let _ ← report p "unsupported syntax '?'"
    desugarFields start rest depth
  | (none, field, colon, v) :: rest, depth => do
    if field.escaped then
      let _ ← report start escapedProblem
      desugarFields start rest depth
    else
      let v ← v.desugar depth
      return (colon, field.name, v) :: (← desugarFields start rest depth)

/-- The further operands of a logical operator. -/
def desugarRest : List (Nat × Tree) → Nat → Desugar (List (Nat × Expr))
  | [], _ => return []
  | (p, e) :: rest, depth => do
    let e ← e.desugar depth
    return (p, e) :: (← desugarRest rest depth)

end

/-- How many characters an expression may have. -/
def maxLength : Nat := 100000

/-- Reads an expression. -/
def parse (text : String) : Except ParseError Expr :=
  if text.length > maxLength then
    .error (.issues [⟨none, "expression code point size exceeds limit: size: " ++
      toString text.length ++ ", limit " ++ toString maxLength⟩])
  else
    match Tree.ofText text with
    | .error .grammar => .error .grammar
    | .error .tooDeep =>
      .error (.issues [⟨none, "expression recursion limit exceeded: " ++ toString maxDepth⟩])
    | .ok tree =>
      match ((tree.desugar 0).run).run [] with
      | (.ok e, []) => .ok e
      | (_, issues) => .error (.issues issues.reverse)

end RuleScan.Expr
