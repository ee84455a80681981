import RuleScan.Yaml.Token

/-!
# The cursor of a YAML document

The state in which a document is cut into tokens: the place reached, the indentation, the stretch
collected since the last token, and how a block text is being read.  A document that cannot be cut
at some place yields an invalid token there and is cut further behind it.
-/

namespace RuleScan.Yaml

/-- How the indentation of the current line compares with the column of the last mark. -/
inductive Shift where
  | level
  | deeper
  | back
  /-- The line has already begun. -/
  | inside
  deriving Repr, DecidableEq, Inhabited

/-- The kinds of block texts. -/
inductive Block.Style where
  /-- Line ends are kept. -/
  | literal
  /-- Lines are joined. -/
  | folded
  /-- A plain text that goes on over lines that start with a dash. -/
  | plain
  deriving Repr, DecidableEq, Inhabited

/-- The state of reading a block text; a column of zero is not known yet. -/
structure Block where
  style : Block.Style
  /-- What stands behind the mark in the header. -/
  option : String := ""
  /-- The column in which the text starts. -/
  first : Nat := 0
  /-- The column in which the line before started. -/
  before : Nat := 0
  /-- The column in which this line starts. -/
  here : Nat := 0
  /-- The column in which the last line with text started. -/
  lastSolid : Nat := 0
  /-- The width of the last line of blanks before the text. -/
  blankWidth : Nat := 0
  /-- Whether a line end is still to be joined. -/
  joining : Bool := false
  deriving Repr, Inhabited

namespace Block

/-- The option of a header without the signs at its ends that say what becomes of the line ends
of the text. -/
def optionBody (option : String) : List Char :=
  let strip (cs : List Char) : List Char :=
    let cs := match cs with
      | '-' :: r => r
      | r => r
    match cs with
    | '+' :: r => r
    | r => r
  (strip (strip option.toList).reverse).reverse

/-- A decimal number of 64 bits that may have a sign. -/
def signed? (cs : List Char) : Option Int :=
  let fits (n : Int) : Option Int := if Word.fits n then some n else none
  match cs with
  | '-' :: ds => (digitsIn? 10 ds).bind fun n => fits (-(n : Int))
  | '+' :: ds => (digitsIn? 10 ds).bind fun n => fits n
  | ds => (digitsIn? 10 ds).bind fun n => fits n

/-- The number in a header, which fixes the indentation of the text. -/
def declared (option : String) : Int := (signed? (optionBody option)).getD 0

/-- The state at the start of a block text. -/
def start (style : Block.Style) (lastMark : Nat) (option : String) : Block :=
  let n := declared option
  { style, option, first := if n > 0 then lastMark + n.toNat else 0 }

/-- Whether all line ends at the end are dropped. -/
def strips (b : Block) : Bool :=
  b.option.toList.head? = some '-' || b.option.toList.getLast? = some '-' || b.style = .plain

/-- Whether all line ends at the end are kept. -/
def keeps (b : Block) : Bool :=
  b.option.toList.head? = some '+' || b.option.toList.getLast? = some '+'

/-- Notes the column of the first character of a line. -/
def noteColumn (b : Block) (column : Nat) : Block :=
  { b with
    first := if b.first = 0 then column else b.first
    here := if b.here = 0 then column else b.here }

/-- Whether a line is as deep as a header with a number demands. -/
def isDeepEnough (b : Block) : Bool := declared b.option = 0 || b.first ≤ b.here

/-- Notes the end of a line. -/
def noteLineEnd (b : Block) (width : Nat) : Block :=
  { b with
    blankWidth := if b.first = 0 then width else b.blankWidth
    before := b.here
    lastSolid := if b.here = 0 then b.lastSolid else b.here
    joining := true
    here := 0 }

/-- Whether a column belongs to the indentation of the text. -/
def isIndentation (b : Block) (column : Nat) : Bool :=
  if b.first = 0 then column = 1 else b.first > column

end Block

/-- The state of cutting a document. -/
structure Cursor where
  /-- What is still to be cut. -/
  rest : List Char
  /-- The character before, if there is one since the last invalid stretch. -/
  last : Option Char := none
  line : Nat := 1
  column : Nat := 1
  /-- The column of the last mark that fixes an indentation. -/
  lastMark : Nat := 0
  indent : Nat := 0
  atLineStart : Bool := true
  inAnchor : Bool := false
  inAlias : Bool := false
  inDirective : Bool := false
  openLists : Int := 0
  openMaps : Int := 0
  shift : Shift := .level
  /-- Where the collected value started, if it goes on over several lines. -/
  saved : Option Position := none
  /-- The value collected so far. -/
  value : Array Char := #[]
  /-- The length of the value without the blanks at its end. -/
  solid : Nat := 0
  /-- The stretch collected so far. -/
  origin : Array Char := #[]
  /-- The length of the stretch without the blanks at its end. -/
  originSolid : Nat := 0
  block : Option Block := none
  tokens : Tokens := #[]
  deriving Inhabited

namespace Cursor

/-- Whether a character ends a line. -/
def isLineEnd (c : Char) : Bool := c = '\n' || c = '\r'

/-- A blank on a line. -/
def isBlank (c : Char) : Bool := c = ' ' || c = '\t'

/-- The place reached. -/
def pos (s : Cursor) : Position := ⟨s.line, s.column⟩

/-- Whether at most one character is left. -/
def atLast (s : Cursor) : Bool :=
  match s.rest with
  | _ :: _ :: _ => false
  | _ => true

/-- The character after the next. -/
def following (s : Cursor) : Option Char := s.rest[1]?

/-- Passes `n` characters without counting columns. -/
def pass (s : Cursor) (n : Nat) : Cursor :=
  { s with
    rest := s.rest.drop n
    last := match (s.rest.take n).getLast? with
      | some c => some c
      | none => s.last }

/-- Passes `n` characters of a line. -/
def advance (s : Cursor) (n : Nat) : Cursor := { s.pass n with column := s.column + n }

/-- Passes the end of a line. -/
def newLine (s : Cursor) : Cursor :=
  { s.pass 1 with
    column := 1
    line := s.line + 1
    indent := 0
    atLineStart := true
    inAnchor := false
    inAlias := false
    inDirective := false }

/-- Adds a character to the value; blanks at its start are dropped. -/
def addValue (s : Cursor) (c : Char) : Cursor :=
  if s.value.isEmpty && isBlank c then s
  else
    { s with
      value := s.value.push c
      solid := if isBlank c then s.solid else s.value.size + 1 }

/-- Adds a character of a block text to the value; only spaces at its start are dropped. -/
def addBlockValue (s : Cursor) (c : Char) : Cursor :=
  if s.value.isEmpty && c = ' ' then s
  else
    { s with
      value := s.value.push c
      solid := if c = ' ' then s.solid else s.value.size + 1 }

/-- Adds a character to the stretch. -/
def addOrigin (s : Cursor) (c : Char) : Cursor :=
  { s with
    origin := s.origin.push c
    originSolid := if isBlank c then s.originSolid else s.origin.size + 1 }

/-- Adds characters to the stretch. -/
def addOrigins (s : Cursor) (cs : List Char) : Cursor := cs.foldl addOrigin s

/-- Forgets what was collected. -/
def reset (s : Cursor) : Cursor :=
  { s with value := #[], solid := 0, origin := #[], originSolid := 0 }

/-- Forgets what was collected and leaves a block text. -/
def clear (s : Cursor) : Cursor := { s.reset with block := none }

/-- The stretch as text. -/
def originText (s : Cursor) : String := String.ofList s.origin.toList

/-- Drops line ends from the end. -/
def dropLineEnds (cs : List Char) : List Char := Text.dropEndWhile (· = '\n') cs

/-- A block text with the end that its header asks for. -/
def finishBlock (b : Block) (cs : List Char) : List Char :=
  let text :=
    if b.strips then Text.dropEndWhile (· = ' ') (dropLineEnds cs)
    else if b.keeps then cs
    else
      let body := dropLineEnds cs
      if body.length = cs.length then body else body ++ ['\n']
  let text := if text = ['\n'] then [] else text
  if b.keeps && text.isEmpty then ['\n'] else text

/-- The value collected, without the blanks at its end. -/
def collected (s : Cursor) : List Char :=
  let cs := s.value.toList.take s.solid
  match s.block with
  | some b => finishBlock b cs
  | none => cs

/-- Whether a value has been collected. -/
def hasValue (s : Cursor) : Bool := !s.collected.isEmpty

/-- Adds a token. -/
def add (s : Cursor) (t : Token) : Cursor := { s with tokens := s.tokens.push t }

/-- The token added last. -/
def lastToken? (s : Cursor) : Option Token := s.tokens.back?

/-- The tags that say of which kind the next value is. -/
def knownTags : List String :=
  ["!!int", "!!float", "!!null", "!!seq", "!!map", "!!str", "!!binary", "!!omap", "!!set",
    "!!timestamp", "!!bool", "!!merge"]

/-- The kind of a plain word, which is a text after a tag of one's own. -/
def plainKind (s : Cursor) (word : String) : Token.Kind :=
  let tagged := match s.lastToken? with
    | some t => (match t.kind with
      | .tag => !knownTags.contains t.value
      | _ => false)
    | none => false
  if tagged || s.block.isSome then .plain .text else .plain (Scalar.ofWord word)

/-- The place where one list of characters occurs in another, counted in bytes from one; zero if
it does not occur. -/
def occurrence (hay needle : List Char) : Nat :=
  match Text.cut? needle hay with
  | some (before, _) => Text.total (before.map (·.utf8Size)) + 1
  | none => 0

/-- The place where the collected value started. -/
def valuePos (s : Cursor) : Position :=
  match s.saved with
  | some p => p
  | none =>
    if s.block.isSome then
      ⟨s.line - s.value.toList.count '\n', occurrence s.origin.toList s.value.toList⟩
    else ⟨s.line, s.column - s.value.size⟩

/-- Cuts what was collected as a token, if there is a value. -/
def cut? (s : Cursor) : Option Token × Cursor :=
  let cs := s.collected
  if cs.isEmpty then (none, { s with value := #[], solid := 0, saved := none })
  else
    let word := String.ofList cs
    (some { kind := s.plainKind word, value := word, origin := s.originText, pos := s.valuePos },
      { s.reset with saved := none })

/-- Cuts what was collected and adds it. -/
def flush (s : Cursor) : Cursor :=
  match s.cut? with
  | (some t, s) => s.add t
  | (none, s) => s

/-- Adds an invalid token for the stretch collected so far, at a place. -/
def refuseAt (s : Cursor) (pos : Position) (reason : String) : Cursor :=
  { (s.add { kind := .invalid reason, value := "", origin := s.originText, pos }).clear with
    last := none }

/-- Adds an invalid token for the stretch collected so far, at the place reached. -/
def refuse (s : Cursor) (reason : String) : Cursor := s.refuseAt s.pos reason

/-- Adds a mark that consists of the stretch collected so far and passes `n` characters. -/
def mark (s : Cursor) (kind : Token.Kind) (value : String) (n : Nat) : Cursor :=
  ((s.add { kind, value, origin := s.originText, pos := s.pos }).advance n).clear

/-- Whether the text ahead is a line that separates documents. -/
def separatorAhead (cs : List Char) : Bool :=
  let front := cs.take 4
  let word := if front.length ≤ 3 then front
    else Text.dropEndWhile (fun c => isBlank c || isLineEnd c) front
  word = ['-', '-', '-'] || word = ['.', '.', '.']

end Cursor

end RuleScan.Yaml
