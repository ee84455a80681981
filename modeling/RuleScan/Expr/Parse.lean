import RuleScan.Expr.Token

/-!
# Reading scope expressions

The grammar, from the weakest to the strongest binding: a choice `c ? a : b`, `||`, `&&`, the
comparisons and `in`, `+` and `-`, `*`, `/` and `%`, the prefixes `!` and `-`, and then selection,
calls and indexing.

An expression that does not follow the grammar is refused as a whole, and so is one in which a
rule of the grammar is entered from within itself too many times.
-/

/-!
## Sentences of the expression language

The shape of an expression as it is written, before the words that stand for folds are spelled
out.  Every node keeps the offsets that a complaint about it may point at.
-/

namespace RuleScan.Expr

/-- The name of a field as it is written. -/
structure FieldName where
  offset : Nat
  name : String
  /-- Whether it stands between backquotes. -/
  escaped : Bool := false
  deriving Repr, DecidableEq, Inhabited

/-- Expressions as they are written. -/
inductive Tree where
  /-- A constant; a number may have a minus of its own. -/
  | literal (offset : Nat) (negative : Bool) (word : Word)
  /-- A name; `start` is the offset of the dot in front of it, if there is one. -/
  | ident (start offset : Nat) (leading : Bool) (name : String)
  | call (start opening : Nat) (leading : Bool) (name : String) (args : List Tree)
  | select (operand : Tree) (dot : Nat) (optional : Bool) (field : FieldName)
  | method (operand : Tree) (name : String) (opening : Nat) (args : List Tree)
  | index (operand : Tree) (opening : Nat) (optional : Bool) (at_ : Tree)
  /-- List elements, each with the offset of a question mark in front of it. -/
  | list (opening : Nat) (elements : List (Option Nat × Tree))
  /-- Entries: the question mark of the key, the key and the value. -/
  | map (opening : Nat) (entries : List (Option Nat × Tree × Tree))
  /-- Fields: the question mark, the name, the offset of the colon and the value. -/
  | record (opening : Nat) (name : String)
      (fields : List (Option Nat × FieldName × Nat × Tree))
  /-- Prefixes of one kind, by their offsets. -/
  | unary (function : String) (offsets : List Nat) (operand : Tree)
  /-- Two operands of an arithmetic operator or of a comparison. -/
  | binary (function : String) (offset : Nat) (left right : Tree)
  /-- Operands of `&&` or `||`. -/
  | logical (function : String) (first : Tree) (rest : List (Nat × Tree))
  | choice (offset : Nat) (condition yes no : Tree)
  deriving Repr, Inhabited

end RuleScan.Expr

namespace RuleScan.Expr

/-- Why the words of an expression make no sentence. -/
inductive ParseFault where
  /-- They do not follow the grammar. -/
  | grammar
  /-- They are nested too deeply. -/
  | tooDeep
  deriving Repr, DecidableEq, Inhabited

/-- A step of reading; its state is what is left to read. -/
abbrev Parser := StateT (List Token) (Except ParseFault)

namespace Parser

/-- The next piece, which stays. -/
def peek : Parser (Option Token) := do return (← get).head?

/-- Takes the next piece. -/
def take : Parser Token := do
  match ← get with
  | [] => throw .grammar
  | t :: rest => set rest; return t

/-- Whether a symbol comes next. -/
def nextIs (symbol : String) : Parser Bool := do
  return (← peek).any (·.word = .symbol symbol)

/-- Takes a symbol if it comes next, and gives its offset. -/
def accept? (symbol : String) : Parser (Option Nat) := do
  match ← peek with
  | some t => if t.word = .symbol symbol then do let _ ← take; return some t.offset else return none
  | none => return none

/-- Takes a symbol that must come next. -/
def expect (symbol : String) : Parser Nat := do
  match ← accept? symbol with
  | some p => return p
  | none => throw .grammar

end Parser

open RuleScan.Expr.Parser

/-- How often a rule of the grammar may be entered from within itself. -/
def maxDepth : Nat := 250

/-- How often the rules that can be entered again have been: for whole expressions, comparisons
and arithmetic. -/
structure Depth where
  whole : Nat := 0
  comparison : Nat := 0
  arithmetic : Nat := 0
  deriving Repr, DecidableEq, Inhabited

namespace Depth

/-- A step further, if the limit allows. -/
def checked (d : Depth) : Parser Depth :=
  if d.whole > maxDepth || d.comparison > maxDepth || d.arithmetic > maxDepth then throw .tooDeep
  else return d

/-- Within another whole expression. -/
def inWhole (d : Depth) : Parser Depth := { d with whole := d.whole + 1 }.checked

/-- Within another comparison. -/
def inComparison (d : Depth) : Parser Depth := { d with comparison := d.comparison + 1 }.checked

/-- Within other arithmetic. -/
def inArithmetic (d : Depth) : Parser Depth := { d with arithmetic := d.arithmetic + 1 }.checked

end Depth

/-- The functions the binary operators stand for. -/
def comparisonName? : Word → Option String
  | .symbol "<" => some "_<_"
  | .symbol "<=" => some "_<=_"
  | .symbol ">=" => some "_>=_"
  | .symbol ">" => some "_>_"
  | .symbol "==" => some "_==_"
  | .symbol "!=" => some "_!=_"
  | .symbol "in" => some "@in"
  | _ => none

/-- The functions of sums. -/
def sumName? : Word → Option String
  | .symbol "+" => some "_+_"
  | .symbol "-" => some "_-_"
  | _ => none

/-- The functions of products. -/
def productName? : Word → Option String
  | .symbol "*" => some "_*_"
  | .symbol "/" => some "_/_"
  | .symbol "%" => some "_%_"
  | _ => none

/-- Operands joined by operators of one strength, to the left. -/
def leftChain (operator? : Word → Option String) (operand : Parser Tree) :
    Nat → Tree → Parser Tree
  | 0, e => return e
  | n + 1, e => do
    match ← peek with
    | some t =>
      match operator? t.word with
      | some f =>
        let _ ← take
        let right ← operand
        leftChain operator? operand n (.binary f t.offset e right)
      | none => return e
    | none => return e

/-- Operands joined by one logical operator. -/
def logicalChain (symbol : String) (operand : Parser Tree) : Nat → Parser (List (Nat × Tree))
  | 0 => return []
  | n + 1 => do
    match ← accept? symbol with
    | none => return []
    | some p =>
      let e ← operand
      return (p, e) :: (← logicalChain symbol operand n)

/-- Takes as many prefixes of one kind as there are, and gives their places. -/
def prefixes (symbol : String) : Nat → Parser (List Nat)
  | 0 => return []
  | n + 1 => do
    match ← accept? symbol with
    | none => return []
    | some p => return p :: (← prefixes symbol n)

/-- The names of a dotted name, if one follows that is itself followed by a brace. -/
def recordName? : List Token → Option (List String × List Token)
  | ⟨.ident a, _⟩ :: ⟨.symbol ".", _⟩ :: rest =>
    (recordName? rest).map fun (names, left) => (a :: names, left)
  | ⟨.ident a, _⟩ :: rest =>
    match rest with
    | ⟨.symbol "\x7b", _⟩ :: _ => some ([a], rest)
    | _ => none
  | _ => none

mutual

/-- An expression. -/
def expr : Nat → Depth → Parser Tree
  | 0, _ => throw .grammar
  | fuel + 1, d => do
    let d ← d.inWhole
    let c ← disjunction fuel d
    match ← accept? "?" with
    | none => return c
    | some p =>
      let a ← disjunction fuel d
      let _ ← expect ":"
      let b ← expr fuel d
      return .choice p c a b

/-- Expressions joined by `||`. -/
def disjunction : Nat → Depth → Parser Tree
  | 0, _ => throw .grammar
  | fuel + 1, d => do
    let e ← conjunction fuel d
    match ← logicalChain "||" (conjunction fuel d) fuel with
    | [] => return e
    | rest => return .logical "_||_" e rest

/-- Expressions joined by `&&`. -/
def conjunction : Nat → Depth → Parser Tree
  | 0, _ => throw .grammar
  | fuel + 1, d => do
    let e ← comparison fuel d
    match ← logicalChain "&&" (comparison fuel d) fuel with
    | [] => return e
    | rest => return .logical "_&&_" e rest

/-- Comparisons. -/
def comparison : Nat → Depth → Parser Tree
  | 0, _ => throw .grammar
  | fuel + 1, d => do
    let d ← d.inComparison
    let e ← sum fuel d
    leftChain comparisonName? (do sum fuel (← d.inComparison)) fuel e

/-- Sums. -/
def sum : Nat → Depth → Parser Tree
  | 0, _ => throw .grammar
  | fuel + 1, d => do
    let d ← d.inArithmetic
    let e ← product fuel d
    leftChain sumName? (do product fuel (← d.inArithmetic)) fuel e

/-- Products. -/
def product : Nat → Depth → Parser Tree
  | 0, _ => throw .grammar
  | fuel + 1, d => do
    let e ← unary fuel d
    leftChain productName? (do unary fuel (← d.inArithmetic)) fuel e

/-- Prefixed expressions.  A single minus before a number belongs to the number. -/
def unary : Nat → Depth → Parser Tree
  | 0, _ => throw .grammar
  | fuel + 1, d => do
    if ← nextIs "!" then
      let ps ← prefixes "!" fuel
      return .unary "!_" ps (← member fuel d)
    else if ← nextIs "-" then
      let ps ← prefixes "-" fuel
      match ps, ← peek with
      | [p], some t =>
        match t.word with
        | .int _ | .double _ =>
          let _ ← take
          suffixes fuel d (.literal p true t.word)
        | _ => return .unary "-_" ps (← member fuel d)
      | _, _ => return .unary "-_" ps (← member fuel d)
    else member fuel d

/-- A primary expression and what is selected from it. -/
def member : Nat → Depth → Parser Tree
  | 0, _ => throw .grammar
  | fuel + 1, d => do
    let e ← primary fuel d
    suffixes fuel d e

/-- Selections, method calls and indices behind an expression. -/
def suffixes : Nat → Depth → Tree → Parser Tree
  | 0, _, e => return e
  | fuel + 1, d, e => do
    if let some dot ← accept? "." then
      let optional := (← accept? "?").isSome
      let t ← take
      match t.word with
      | .ident name =>
        match optional, ← nextIs "(" with
        | false, true =>
          let p ← expect "("
          let args ← arguments fuel d
          let _ ← expect ")"
          suffixes fuel d (.method e name p args)
        | _, _ => suffixes fuel d (.select e dot optional ⟨t.offset, name, false⟩)
      | .escapedIdent name => suffixes fuel d (.select e dot optional ⟨t.offset, name, true⟩)
      | _ => throw .grammar
    else if let some p ← accept? "[" then
      let optional := (← accept? "?").isSome
      let index ← expr fuel d
      let _ ← expect "]"
      suffixes fuel d (.index e p optional index)
    else return e

/-- The arguments of a call, separated by commas, up to its closing bracket. -/
def arguments : Nat → Depth → Parser (List Tree)
  | 0, _ => throw .grammar
  | fuel + 1, d => do
    if ← nextIs ")" then return []
    let e ← expr fuel d
    match ← accept? "," with
    | none => return [e]
    | some _ =>
      if ← nextIs ")" then throw .grammar
      return e :: (← arguments fuel d)

/-- List elements: like arguments, but a comma may also stand last. -/
def elements : Nat → Depth → Parser (List (Option Nat × Tree))
  | 0, _ => throw .grammar
  | fuel + 1, d => do
    if ← nextIs "]" then return []
    let mark ← accept? "?"
    let e ← expr fuel d
    match ← accept? "," with
    | none => return [(mark, e)]
    | some _ => return (mark, e) :: (← elements fuel d)

/-- The entries of a map. -/
def entries : Nat → Depth → Parser (List (Option Nat × Tree × Tree))
  | 0, _ => throw .grammar
  | fuel + 1, d => do
    if ← nextIs "\x7d" then return []
    let mark ← accept? "?"
    let k ← expr fuel d
    let _ ← expect ":"
    let v ← expr fuel d
    match ← accept? "," with
    | none => return [(mark, k, v)]
    | some _ => return (mark, k, v) :: (← entries fuel d)

/-- The fields of a record. -/
def fields : Nat → Depth → Parser (List (Option Nat × FieldName × Nat × Tree))
  | 0, _ => throw .grammar
  | fuel + 1, d => do
    if ← nextIs "\x7d" then return []
    let mark ← accept? "?"
    let t ← take
    let name ← match t.word with
      | .ident n => pure ⟨t.offset, n, false⟩
      | .escapedIdent n => pure ⟨t.offset, n, true⟩
      | _ => throw .grammar
    let colon ← expect ":"
    let v ← expr fuel d
    match ← accept? "," with
    | none => return [(mark, name, colon, v)]
    | some _ => return (mark, name, colon, v) :: (← fields fuel d)

/-- Names, calls, constants, lists, maps and parenthesised expressions. -/
def primary : Nat → Depth → Parser Tree
  | 0, _ => throw .grammar
  | fuel + 1, d => do
    let dot ← accept? "."
    let leading := dot.isSome
    if let some (names, rest) := recordName? (← get) then
      set rest
      let p ← expect "\x7b"
      let fs ← if (← accept? ",").isSome then pure [] else fields fuel d
      let _ ← expect "\x7d"
      return .record p ((if leading then "." else "") ++ ".".intercalate names) fs
    let t ← take
    match t.word with
    | .ident name =>
      let start := dot.getD t.offset
      match ← accept? "(" with
      | none => return .ident start t.offset leading name
      | some p =>
        let args ← arguments fuel d
        let _ ← expect ")"
        return .call start p leading name args
    | w =>
      if leading then throw .grammar
      match w with
      | .int _ | .uint _ | .double _ | .string _ | .bytes _ | .badQuoted _
      | .symbol "true" | .symbol "false" | .symbol "null" => return .literal t.offset false w
      | .symbol "(" =>
        let e ← expr fuel d
        let _ ← expect ")"
        return e
      | .symbol "[" =>
        let es ← if (← accept? ",").isSome then pure [] else elements fuel d
        let _ ← expect "]"
        return .list t.offset es
      | .symbol "\x7b" =>
        let es ← if (← accept? ",").isSome then pure [] else entries fuel d
        let _ ← expect "\x7d"
        return .map t.offset es
      | _ => throw .grammar

end

/-- The tree of an expression.  Between two pieces of the text at most ten rules of the grammar are
entered, which bounds the depth of the recursion. -/
def Tree.ofText (text : String) : Except ParseFault Tree :=
  match Token.scan? text with
  | none => .error .grammar
  | some tokens =>
    match (expr (12 * (tokens.length + 2)) {}).run tokens with
    | .error fault => .error fault
    | .ok (e, rest) => if rest.isEmpty then .ok e else .error .grammar

end RuleScan.Expr
