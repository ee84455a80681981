import RuleScan.Schema.Source.Expression

/-!
# Statements and definitions as they are written

The bodies of functions, and the definitions of constants, variables, types and functions inside
and outside of them.
-/

namespace RuleScan.Schema.Source.Read

variable (g : Grammar)

/-- Expressions that commas join. -/
def expressionList (inValue : Bool) : Read (List Term) := asValue inValue do
  let x ← g.expression
  repeated (fun (xs : List Term) => do
    if !(← sees ",") then return .ok xs
    next
    return .error (xs ++ [← g.expression])) g.fuel [x]

/-! ## Definitions -/

/-- What is imported. -/
def importEntry : Read Unit := do
  let t ← here
  if t.shape = .name || t.is "." then next
  let t ← here
  if t.shape = .text then next
  else if t.isLiteral then
    complain t.place "import path must be a string"
    next
  else
    complain t.place "missing import path; require quoted string"
    skip endsExpression
  discard expectEnd

/-- A constant or a variable. -/
def valueEntry (variable' : Bool) : Read Unit := do
  discard name
  repeated (fun () => do
    if !(← sees ",") then return .ok ()
    next
    discard name
    return .error ()) g.fuel ()
  let t ← here
  let assigned : Read Unit := do
    if ← sees "=" then
      next
      discard (expressionList g true)
  if variable' then
    if !t.is "=" then discard g.type
    assigned
  else if t.shape ≠ .ended && !t.isEnd && !t.is ")" then
    discard g.type?
    assigned
  discard expectEnd

/-- What stands in square brackets behind the name of a type: parameters and the type, or the
length of a list and the type of its elements. -/
def bracketedType : Read Unit := do
  let first ← place
  next
  if (← here).shape ≠ .name then
    discard (listType g first false)
    return
  let n ← name
  let front : Term := .name n.place n.text
  let x ← if ← sees "[" then pure front else inside do
    let x ← primary g (some front)
    g.binary (some x) 1
  let generic (n : Name) (t : Option Term) : Read Unit := do
    discard (parameterList g (some n) t "]" false)
    discard (expect "]")
    if ← sees "=" then next
    discard g.type
  match x.splitName (← sees ",") with
  | some (n, some t) => generic n (some t)
  | some (n, none) =>
    if ← sees "]" then discard (listType g first true) else generic n none
  | none => discard (listType g first true)

/-- A type. -/
def typeEntry (lead : List String) : Read Unit := do
  let n ← name
  remark (.type n.text lead)
  if ← sees "[" then bracketedType g
  else
    if ← sees "=" then next
    discard g.type
  discard expectEnd

/-- One of the things that a word defines; `lead` is the comment above it. -/
def entry (word : String) (lead : List String) : Read Unit :=
  if word = "import" then importEntry
  else if word = "type" then typeEntry g lead
  else valueEntry g (word = "var")

/-- A definition, or a group of them in brackets. -/
def definition (word : String) : Read Unit := do
  remark (.definitions (← led).lead)
  discard (expect word)
  if ← sees "(" then
    next
    repeated (fun () => do
      if (← sees ")") || (← atEnd) then return .ok ()
      entry g word (← led).lead
      return .error ()) g.fuel ()
    discard (expect ")")
    discard expectEnd
  else entry g word []

/-- A function or a method. -/
def functionDefinition : Read Unit := do
  discard (expect "func")
  let ofType ← sees "("
  if ofType then parameters g false
  discard name
  if ← sees "[" then
    let p ← typeParameters g
    if let (some p, true) := (p, ofType) then complain p "method must have no type parameters"
  parameters g false
  results g
  if ← sees "\x7b" then
    g.block
    discard expectEnd
  else if (← here).isEnd then
    next
    if ← sees "\x7b" then
      complain (← place) "unexpected semicolon or newline before \x7b"
      g.block
      discard expectEnd
  else discard expectEnd

/-- A definition of any kind; where none starts, reading is taken up at a piece that is `good`. -/
def anyDefinition (good : Token → Bool) : Read Unit := do
  let t ← here
  if t.is "func" then functionDefinition g
  else if t.isAmong definitionWords then definition g t.text
  else
    missingHere "declaration"
    skip good

/-! ## Simple statements -/

/-- A statement without words of its own. -/
inductive Simple where
  | expression (x : Term)
  | assignment (left : List Term) (sign : Place) (mark : String) (right : List Term)
  /-- A loop over the elements of something, and what they are assigned to. -/
  | elements (left : List Term)
  | labelled
  | other (first : Place)
  deriving Inhabited

/-- What may be read as a simple statement besides. -/
inductive Besides where
  | nothing
  | label
  | elements
  deriving Repr, DecidableEq, Inhabited

/-- The marks of assignments. -/
def assignments : List String :=
  [":=", "=", "+=", "-=", "*=", "/=", "%=", "&=", "|=", "^=", "<<=", ">>=", "&^="]

/-- The place where the first of some terms starts. -/
def firstOf (xs : List Term) : Place := (xs.head?.map Term.first).getD {}

/-- A simple statement. -/
def simple (besides : Besides) : Read Simple := do
  let xs ← expressionList g false
  let t ← here
  if t.isAmong assignments then
    next
    if besides = .elements && (← sees "range") && (t.is ":=" || t.is "=") then
      next
      discard g.value
      return .elements xs
    return .assignment xs t.place t.text (← expressionList g true)
  if 1 < xs.length then missing (firstOf xs) "1 expression"
  if t.is ":" then
    next
    match besides, xs with
    | .label, .name _ _ :: _ =>
      g.statement
      return .labelled
    | _, _ =>
      complain t.place "illegal label declaration"
      return .other (firstOf xs)
  if t.is "<-" then
    next
    discard g.value
    return .other (firstOf xs)
  if t.is "++" || t.is "--" then
    next
    return .other (firstOf xs)
  match xs with
  | x :: _ => return .expression x
  | [] => return .other {}

/-- Checks that a simple statement is an expression. -/
def checkExpression (wanted : String) : Option Simple → Read Unit
  | none | some (.expression _) => return
  | some s => do
    let (first, found) := match s with
      | .assignment left _ _ _ => (firstOf left, "assignment")
      | .elements left => (firstOf left, "assignment")
      | .other first => (first, "simple statement")
      | _ => ({}, "simple statement")
    complain first ("expected " ++ wanted ++ ", found " ++ found ++
      " (missing parentheses around composite literal?)")

/-- A call behind the word `go` or `defer`. -/
def callStatement (word : String) : Read Unit := do
  discard (expect word)
  let x ← g.value
  if x.isInParens then
    complain x.first ("expression in " ++ word ++ " must not be parenthesized")
  match x.bare with
  | .call .. | .bad _ => pure ()
  | _ => complain (← get).past ("expression in " ++ word ++ " must be function call")
  discard expectEnd

/-! ## Blocks -/

/-- Statements up to the end of a block or of a case. -/
def statements : Read Unit :=
  repeated (fun () => do
    let t ← here
    if t.shape = .ended || t.isAmong ["case", "default", "\x7d"] then return .ok ()
    g.statement
    return .error ()) g.fuel ()

/-- A block of statements. -/
def blockForm : Read Unit := do
  discard (expect "\x7b")
  statements g
  discard (expect "\x7d")

/-- What stands between the word `if` and the block. -/
def conditionHeader : Read Unit := do
  if ← sees "\x7b" then
    complain (← place) "missing condition in if statement"
    return
  beforeBlock do
    let first ← if (← here).isEnd then pure none else do
      if ← sees "var" then
        next
        complain (← place) "var declaration not allowed in if initializer"
      pure (some (← simple g .nothing))
    if ← sees "\x7b" then checkExpression "boolean expression" first
    else
      let t ← here
      if t.isEnd then next else discard (expect ";")
      if ← sees "\x7b" then
        if t.shape = .lineEnd then
          complain t.place "unexpected newline, expecting \x7b after if clause"
        else if t.isEnd then complain t.place "missing condition in if statement"
      else checkExpression "boolean expression" (some (← simple g .nothing))

/-- A statement with a condition. -/
def conditionForm : Read Unit := do
  discard (expect "if")
  conditionHeader g
  g.block
  if ← sees "else" then
    next
    if ← sees "if" then g.condition
    else if ← sees "\x7b" then
      g.block
      discard expectEnd
    else missingHere "if statement or block"
  else discard expectEnd

/-- The cases of a statement, each with its front. -/
def cases (front : Read Unit) : Read Unit := do
  discard (expect "\x7b")
  repeated (fun () => do
    if ← sees "case" then
      next
      front
    else if ← sees "default" then next
    else return .ok ()
    discard (expect ":")
    statements g
    return .error ()) g.fuel ()
  discard (expect "\x7d")
  discard expectEnd

/-- Whether the header of a choice asks for the type of a value. -/
def asksType : Option Simple → Read Bool
  | some (.expression (.typeOf _)) => return true
  | some (.assignment [_] sign mark [.typeOf _]) => do
    if mark = "=" then
      complain sign "expected ':=', found '='"
    return mark = "=" || mark = ":="
  | _ => return false

/-- A choice by a value or a type. -/
def choice : Read Unit := do
  discard (expect "switch")
  let header ← if ← sees "\x7b" then pure none else beforeBlock do
    let first ← if (← here).isEnd then pure none else pure (some (← simple g .nothing))
    if (← here).isEnd then
      next
      if ← sees "\x7b" then pure none else pure (some (← simple g .nothing))
    else pure first
  let byType ← asksType header
  cases g (discard (expressionList g true))
  if !byType then checkExpression "switch expression" header

/-- What stands before the colon of a case that sends or receives. -/
def communication : Read Unit := do
  let left ← expressionList g false
  let t ← here
  if t.is "<-" then
    if 1 < left.length then missing (firstOf left) "1 expression"
    next
    discard g.value
  else if t.is "=" || t.is ":=" then
    if 2 < left.length then missing (firstOf left) "1 or 2 expressions"
    next
    discard g.value
  else if 1 < left.length then missing (firstOf left) "1 expression"

/-- The header of a loop: its condition, or what the elements are assigned to. -/
def loopHeader : Read (Option Simple) := beforeBlock do
  let first ←
    if (← here).isEnd then pure none
    else if ← sees "range" then do
      next
      discard g.value
      pure (some (.elements []))
    else pure (some (← simple g .elements))
  match first with
  | some (.elements left) => return some (.elements left)
  | _ =>
    if !(← here).isEnd then return first
    next
    let condition ← if (← here).isEnd then pure none else pure (some (← simple g .nothing))
    discard expectEnd
    if !(← sees "\x7b") then discard (simple g .nothing)
    return condition

/-- A loop. -/
def loop : Read Unit := do
  discard (expect "for")
  let header ← if ← sees "\x7b" then pure none else loopHeader g
  g.block
  discard expectEnd
  match header with
  | some (.elements left) =>
    if 2 < left.length then
      missing ((left.getLast?.map Term.first).getD {}) "at most 2 expressions"
  | header => checkExpression "boolean or range expression" header

/-! ## All statements -/

/-- The marks and words with which a simple statement starts. -/
def simpleFronts : List String :=
  ["func", "(", "[", "struct", "map", "chan", "interface", "+", "-", "*", "&", "^", "<-", "!", "~"]

/-- A statement. -/
def statementForm : Read Unit := do
  let t ← here
  if t.isAmong ["const", "type", "var"] then anyDefinition g startsStatement
  else if t.isLiteral || t.isAmong simpleFronts then
    match ← simple g .label with
    | .labelled => return
    | _ => discard expectEnd
  else if t.is "go" || t.is "defer" then callStatement g t.text
  else if t.is "return" then
    next
    let t ← here
    if !t.isEnd && !t.is "\x7d" then discard (expressionList g true)
    discard expectEnd
  else if t.isAmong ["break", "continue", "goto", "fallthrough"] then
    next
    if t.is "goto" || (!t.is "fallthrough" && (← here).shape = .name) then discard name
    discard expectEnd
  else if t.is "\x7b" then
    g.block
    discard expectEnd
  else if t.is "if" then g.condition
  else if t.is "switch" then choice g
  else if t.is "select" then
    next
    cases g (communication g)
  else if t.is "for" then loop g
  else if t.isEnd then next
  else if t.is "\x7d" then return
  else
    missingHere "statement"
    skip startsStatement

end RuleScan.Schema.Source.Read
