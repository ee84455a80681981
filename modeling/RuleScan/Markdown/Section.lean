import RuleScan.Text.Space
import RuleScan.Unicode.Case

/-!
# Documents in sections

A document is read line by line: first what stands in fenced blocks is told apart, then headings
divide the rest.
-/

/-!
## Lines and fences

A document is a list of lines.  A line that starts with three or more backquotes or tildes opens a
fenced block; a line of at least as many of the same marks, and nothing else, closes it.  Between
the two nothing else counts as a fence, so reading a document is a walk with one state: the fence
that is open.
-/

namespace RuleScan.Markdown

open RuleScan.Text (Bytes)

/-- A line without its end. -/
abbrev Line := Bytes

/-- A line without the line ends behind it. -/
def Line.ofPiece (piece : Bytes) : Line :=
  (piece.reverse.dropWhile fun b => b = 0x0d || b = 0x0a).reverse

/-- The lines of a document; an end of line at its end starts no other line. -/
def linesOf (content : Bytes) : List Line :=
  let pieces := Text.splitBytes 0x0a content
  (if pieces.getLast? = some [] then pieces.dropLast else pieces).map Line.ofPiece

/-- The characters of a line without the blanks around it. -/
def Line.trimmed (line : Line) : List Char := Text.trimWhile Text.isSpace (Text.textOf line).toList

/-- The marks that open a block. -/
structure Fence where
  mark : Char
  length : Nat
  deriving Repr, DecidableEq, Inhabited

namespace Fence

/-- The number of marks at the front. -/
def count (mark : Char) (cs : List Char) : Nat := (cs.takeWhile (· = mark)).length

/-- The fence that a line starts with. -/
def ofLine? (line : Line) : Option Fence :=
  let cs := line.trimmed
  (['\x60', '~'].find? fun mark => 3 ≤ count mark cs).map fun mark => ⟨mark, count mark cs⟩

/-- Whether a line closes a block. -/
def closedBy (f : Fence) (line : Line) : Bool :=
  match ofLine? line with
  | some g => g.mark = f.mark && f.length ≤ g.length && line.trimmed.length = g.length
  | none => false

/-- The fence that is open behind a line. -/
def after (opened : Option Fence) (line : Line) : Option Fence :=
  match opened with
  | some f => if f.closedBy line then none else some f
  | none => ofLine? line

end Fence

/-- A fenced block. -/
structure Block where
  /-- The first word behind the opening fence, without regard to case. -/
  info : String
  body : List Line
  deriving Repr, DecidableEq, Inhabited

/-- The first word behind a fence. -/
def infoOf (f : Fence) (line : Line) : String :=
  Unicode.foldFully ((Text.words (String.ofList (line.trimmed.drop f.length))).headD "")

/-- The blocks of some lines, after an open one with its lines so far, the last one first.  A block
that is not closed runs to the end. -/
def blocksFrom : Option (Fence × String × List Line) → List Line → List Block
  | none, [] => []
  | some (_, info, body), [] => [⟨info, body.reverse⟩]
  | none, line :: rest =>
    match Fence.ofLine? line with
    | some f => blocksFrom (some (f, infoOf f line, [])) rest
    | none => blocksFrom none rest
  | some (f, info, body), line :: rest =>
    if f.closedBy line then ⟨info, body.reverse⟩ :: blocksFrom none rest
    else blocksFrom (some (f, info, line :: body)) rest

/-- The blocks of some lines. -/
def blocks (lines : List Line) : List Block := blocksFrom none lines

/-- The text of a block. -/
def Block.text (b : Block) : String := "\n".intercalate (b.body.map Text.textOf)

end RuleScan.Markdown

/-!
## Sections

A heading is a line that starts with one to six number signs and a blank, outside any block.  Its
body runs to the next heading of the same or a higher level.
-/

namespace RuleScan.Markdown

/-- A blank inside a line. -/
def isBlank (c : Char) : Bool := c = ' ' || c = '\t' || c = '\x0c' || c = '\r' || c = '\n'

/-- The title of a heading: without marks of emphasis and a colon around it, its words with one
blank between them, without regard to case. -/
def titleOf (cs : List Char) : String :=
  let bare := Text.trimWhile (fun c => c = '*' || c = '_' || c = '\x60') cs
  let s := Text.trim (String.ofList bare)
  let s := (Text.stripEnd? ":" s).getD s
  Unicode.foldFully (" ".intercalate (Text.words s))

/-- The level and the title of a heading. -/
def heading? (line : Line) : Option (Nat × String) :=
  let cs := (Text.textOf line).toList
  let level := Fence.count '#' cs
  let rest := cs.drop level
  if 1 ≤ level && level ≤ 6 && rest.head?.any isBlank then
    let rest := Text.dropEndWhile isBlank (rest.dropWhile isBlank)
    let rest := Text.dropEndWhile isBlank (Text.dropEndWhile (· = '#') rest)
    some (level, titleOf rest)
  else none

/-- A heading with the place of its body: from the line `start` to before the line `stop`. -/
structure Heading where
  level : Nat
  title : String
  start : Nat
  stop : Nat
  deriving Repr, DecidableEq, Inhabited

/-- The heading that a line is, given the fence that is open before it. -/
def headingAt? (opened : Option Fence) (line : Line) : Option (Nat × String) :=
  match opened, Fence.ofLine? line with
  | none, none => heading? line
  | _, _ => none

/-- The headings of the lines from the line `n` on, each with its level, its title and the line
behind it. -/
def headingsFrom (opened : Option Fence) (n : Nat) : List Line → List (Nat × String × Nat)
  | [] => []
  | line :: rest =>
    ((headingAt? opened line).map fun (level, title) => (level, title, n + 1)).toList ++
      headingsFrom (Fence.after opened line) (n + 1) rest

/-- Gives every heading the end of its body. -/
def withStops (total : Nat) : List (Nat × String × Nat) → List Heading
  | [] => []
  | (level, title, start) :: rest =>
    let stop := match rest.find? (·.1 ≤ level) with
      | some (_, _, next) => next - 1
      | none => total
    ⟨level, title, start, stop⟩ :: withStops total rest

/-- The headings of some lines. -/
def headings (lines : List Line) : List Heading :=
  withStops lines.length (headingsFrom none 0 lines)

/-- The body of a heading. -/
def Heading.body (h : Heading) (lines : List Line) : List Line := (lines.take h.stop).drop h.start

/-- The body of the first heading with a title. -/
def section? (lines : List Line) (title : String) : Option (List Line) :=
  ((headings lines).find? (·.title = title)).map (·.body lines)

end RuleScan.Markdown
