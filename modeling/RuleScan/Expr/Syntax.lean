import RuleScan.Text.Utf8

/-!
# Scope expressions

A rule's scope may carry a condition over the path of a file, written in a small expression
language with booleans, numbers, texts, lists, maps and functions.  This module holds its abstract
form.  Quantifiers and list transformations are all folds over a range, so they need no
constructors of their own.

Every node knows the offset, in characters, of the text that introduced it: a refusal points
there.
-/

namespace RuleScan

/-- Constants of the expression language. -/
inductive Expr.Const where
  | null
  | bool (b : Bool)
  | int (n : Int)
  | uint (n : Nat)
  | double (x : Float)
  | string (s : String)
  | bytes (b : Text.Bytes)
  deriving Repr, Inhabited

/-- Expressions. -/
inductive Expr where
  | const (pos : Nat) (c : Expr.Const)
  | ident (pos : Nat) (name : String)
  /-- A field of a value, or with `test` whether it is there. -/
  | select (pos : Nat) (operand : Expr) (field : String) (test : Bool)
  /-- A function call; a method call has a receiver. -/
  | call (pos : Nat) (function : String) (receiver : Option Expr) (args : List Expr)
  | list (pos : Nat) (elements : List Expr)
  | map (pos : Nat) (entries : List (Expr × Expr))
  /-- Folds `step` over a range: `var` holds the element, `acc` the result so far; the fold goes
  on while `goOn` holds and `result` is its value. -/
  | fold (pos : Nat) (range : Expr) (var acc : String) (init goOn step result : Expr)
  /-- A value of a named record type; every field has a place of its own. -/
  | record (pos : Nat) (name : String) (fields : List (Nat × String × Expr))
  deriving Repr, Inhabited

namespace Expr

/-- Where a node was introduced. -/
def offset : Expr → Nat
  | .const p _ | .ident p _ | .select p _ _ _ | .call p _ _ _ | .list p _ | .map p _
  | .fold p _ _ _ _ _ _ _ | .record p _ _ => p

/-- The dotted name an expression spells, if it is one. -/
def dottedName? : Expr → Option String
  | .ident _ name => some name
  | .select _ operand field false => (dottedName? operand).map (· ++ "." ++ field)
  | _ => none

/-- A problem in an expression, at an offset in its text or with the expression as a whole. -/
structure Issue where
  offset : Option Nat
  message : String
  deriving Repr, DecidableEq, Inhabited

/-- Problems with the whole come before all others. -/
def Issue.isBefore (a b : Issue) : Bool :=
  match a.offset, b.offset with
  | none, _ => true
  | some _, none => false
  | some p, some q => p ≤ q

/-- The line, counted from one, and the column, counted from zero, of an offset; and the text of
that line. -/
def locate (text : String) (offset : Nat) : Nat × Nat × String :=
  go text.toList offset 1 [] 0
where
  /-- `line` is the current line so far, newest character first. -/
  go : List Char → Nat → Nat → List Char → Nat → Nat × Nat × String
    | rest, 0, number, line, column =>
      (number, column, String.ofList (line.reverse ++ rest.takeWhile (· ≠ '\n')))
    | [], _ + 1, number, line, column => (number, column, String.ofList line.reverse)
    | c :: rest, n + 1, number, line, column =>
      if c = '\n' then go rest n (number + 1) [] 0
      else go rest n number (c :: line) (column + 1)

/-- An issue with the line it is about and a mark below the place.  Characters that take more than
one byte are marked with wide dots. -/
def Issue.display (text : String) (issue : Issue) : String :=
  match issue.offset with
  | none => "ERROR: <input>:-1:0: " ++ issue.message
  | some offset =>
    let (line, column, snippet) := locate text offset
    let snippet := snippet.map fun c => if c = '\t' then ' ' else c
    let wide (c : Char) : Bool := c.utf8Size > 1
    let dots := (snippet.toList.take column).map fun c => if wide c then "．" else "."
    let mark := if (snippet.toList[column]?).any wide then "＾" else "^"
    "ERROR: <input>:" ++ toString line ++ ":" ++ toString (column + 1) ++ ": " ++ issue.message ++
      "\n | " ++ snippet ++ "\n | " ++ String.join dots ++ mark

/-- How many issues are shown. -/
def maxIssues : Nat := 100

/-- The first issues in the order of their places, and how many there are beside them. -/
def displayAll (text : String) (issues : List Issue) : String :=
  let shown := (issues.take maxIssues).mergeSort Issue.isBefore
  let more := issues.length - maxIssues
  "\n".intercalate (shown.map (·.display text) ++
    if more = 0 then [] else [toString more ++ " more errors were truncated"])

end Expr

end RuleScan
