import RuleScan.Yaml.Token
import RuleScan.Yaml.Path

/-!
# Errors and where they are shown

An error points at a place of the document and shows the lines around it.
-/

/-!
## Lines around a token

A message about a place in a document shows up to three lines before it and three behind it, each
with its number, and a mark below the column.  The lines are put together from the stretches that
the tokens were cut from.
-/

namespace RuleScan.Yaml.Excerpt

/-- Whether a character ends a line. -/
def isLineEnd (c : Char) : Bool := c = '\n' || c = '\r'

/-- The number of line ends; a pair of carriage return and line feed is one. -/
def lineEnds : List Char → Nat
  | [] => 0
  | '\r' :: '\n' :: rest => lineEnds rest + 1
  | c :: rest => if isLineEnd c then lineEnds rest + 1 else lineEnds rest

/-- Whether the last character of a stretch, blanks aside, ends a line; the first character of
the stretch does not count. -/
def endsLine (stretch : List Char) : Bool :=
  match (stretch.drop 1).reverse.dropWhile (· = ' ') with
  | c :: _ => isLineEnd c
  | [] => false

/-- The last line that a token reaches. -/
def lastLine (t : Token) : Nat :=
  let stretch := t.origin.toList
  let n := t.pos.line + lineEnds (stretch.dropWhile isLineEnd)
  if endsLine stretch then n - 1 else n

/-- The first token of the excerpt, going back in the chain while the line is not before
`least`. -/
def goBack (tokens : Tokens) (least : Nat) : Nat → Token → Token
  | 0, t => t
  | fuel + 1, t =>
    match t.prev.bind (tokens[·]?) with
    | none => t
    | some p => if p.pos.line < least then t else goBack tokens least fuel p

/-- The tokens from a token on in the chain while the line is not behind `most`. -/
def goOn (tokens : Tokens) (most : Nat) : Nat → Option Token → List Token
  | 0, _ => []
  | _, none => []
  | fuel + 1, some t =>
    if t.pos.line ≤ most then t :: goOn tokens most fuel (t.next.bind (tokens[·]?)) else []

/-- The front of a line with its number; the line of the token is marked. -/
def margin (marked n : Nat) : String :=
  let digits := toString n
  let padded := if digits.length < 2 then " " ++ digits else digits
  (if n = marked then "> " else "  ") ++ padded ++ " | "

/-- Puts stretches together into numbered lines; the last line so far comes first. -/
def numbered (marked : Nat) : List String → Nat → List String → List String
  | [], _, lines => lines
  | stretch :: rest, n, lines =>
    let step : List String × Nat × Bool → String → List String × Nat × Bool :=
      fun (lines, n, joins) piece =>
        match joins, lines with
        | true, last :: before => ((last ++ piece) :: before, n, false)
        | _, _ => ((margin marked n ++ piece) :: lines, n + 1, false)
    let (lines, n, _) := (Text.splitLines stretch).foldl step (lines, n, true)
    numbered marked rest n lines

/-- Stretches as numbered lines from a line on. -/
def display (marked first : Nat) (stretches : List String) : String :=
  "\n".intercalate (numbered marked stretches first []).reverse

/-- The lines around a token. -/
def around (tokens : Tokens) (t : Token) : String :=
  let fuel := tokens.size + 1
  let extent := lastLine t
  let least := max (t.pos.line - 3) 1
  let start := goBack tokens least fuel t
  let blanks := match start.prev.bind (tokens[·]?) with
    | some p => (p.origin.toList.reverse.takeWhile (· = ' ')).length
    | none => 0
  let opening := String.ofList
    ((List.replicate blanks ' ' ++ start.origin.toList).dropWhile isLineEnd)
  let shown := goOn tokens extent fuel (start.next.bind (tokens[·]?))
  let last := shown.getLast?.getD start
  let stretches := opening :: shown.map Token.origin
  let ending := (stretches.getLast?.getD "").toList
  let kept := Text.dropEndWhile isLineEnd (Text.dropEndWhile (· = ' ') ending)
  let tail := ending.drop kept.length
  let carried := if tail.length > 1 then
      (match tail with
        | c :: r => if isLineEnd c then r else tail
        | [] => [])
    else []
  let before := display t.pos.line start.pos.line (stretches.dropLast ++ [String.ofList kept])
  let mark := String.ofList
    (List.replicate ((margin 0 t.pos.line).length + t.pos.column - 1) ' ') ++ "^"
  let after := match goOn tokens (extent + 3) fuel (last.next.bind (tokens[·]?)) with
    | [] => ""
    | next :: rest =>
      let head := String.ofList ((carried ++ next.origin.toList).dropWhile isLineEnd)
      display t.pos.line next.pos.line (head :: rest.map Token.origin)
  before ++ "\n" ++ mark ++ "\n" ++ after

end RuleScan.Yaml.Excerpt

/-!
## Errors in documents

An error in a document knows its place, either as a token or as a path together with the text of
the document.  Its message then starts with the line and column and shows the lines around them.
-/

namespace RuleScan.Yaml

/-- A token with the chain it belongs to. -/
structure Anchor where
  token : Token
  tokens : Tokens
  deriving Inhabited

/-- An error in a document. -/
structure Error where
  /-- What is wrong; an error without a cause says nothing. -/
  cause : Option String
  path : Option Path := none
  token : Option Anchor := none
  source : String := ""
  /-- Every single problem, when there are several. -/
  details : List String := []
  deriving Inhabited

/-- The error for a fault in a document. -/
def Error.ofFault (f : Fault) : Error :=
  { cause := some f.message
    token := (f.token.bind (f.tokens[·]?)).map fun t => ⟨t, f.tokens⟩ }

namespace Error

/-- The token at which an error stands. -/
def place? (e : Error) : Option Anchor :=
  match e.token, e.path with
  | some t, _ => some t
  | none, some p =>
    if e.source = "" then none
    else match parse e.source with
      | .error _ => none
      | .ok stream =>
        (Path.token? stream p).bind fun i =>
          (stream.tokens[i]?).map fun t => ⟨t, stream.tokens⟩
  | none, none => none

/-- The line and column of an error; zeros when they are not known. -/
def position (e : Error) : Nat × Nat :=
  match e.place? with
  | some a => (a.token.pos.line, a.token.pos.column)
  | none => (0, 0)

/-- The message of an error. -/
def message (e : Error) : String :=
  match e.cause with
  | none => ""
  | some cause =>
    match e.place? with
    | some a =>
      let front := "[" ++ toString a.token.pos.line ++ ":" ++ toString a.token.pos.column ++ "] " ++
        cause
      let excerpt := Excerpt.around a.tokens a.token
      if Text.trim excerpt = "" then front else front ++ "\n" ++ excerpt
    | none =>
      match e.path with
      | some p => "error at " ++ p.text ++ ": " ++ cause
      | none => cause

/-- Gives an error the text of its document. -/
def within (source : String) (e : Error) : Error := { e with source }

end Error

end RuleScan.Yaml
