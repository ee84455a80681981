import RuleScan.Path
import RuleScan.Schema.Source.Literal

/-!
# Pieces and comments

A source file is cut into pieces; the comments among them are put together in groups.  A comment may
say that what follows comes from elsewhere.
-/

/-!
## Where a source file says it comes from

A comment that starts with `line` can say that what follows comes from another file, from a line
and perhaps a column of it.  Messages about what follows then name that place.
-/

namespace RuleScan.Schema.Source

/-- What a comment says about what follows it. -/
structure Origin where
  /-- The bytes before what follows. -/
  offset : Nat
  /-- The line on which that starts. -/
  base : Nat
  /-- The file it comes from; none for the one named last. -/
  file : Option String
  line : Nat
  /-- The column it comes from; zero if that is not said. -/
  column : Nat
  deriving Repr, DecidableEq, Inhabited

/-- A place as it is shown. -/
structure Spot where
  file : String
  line : Nat
  column : Nat
  deriving Repr, DecidableEq, Inhabited

/-- A place as text. -/
def Spot.text (s : Spot) : String :=
  (if s.file = "" then "" else s.file ++ ":") ++ toString s.line ++
    (if s.column = 0 then "" else ":" ++ toString s.column)

/-- Whether one place is shown before another. -/
def Spot.isBefore (a b : Spot) : Bool :=
  if a.file ≠ b.file then decide (a.file < b.file)
  else if a.line ≠ b.line then a.line < b.line
  else a.column < b.column

/-- A file and what its comments say about where it comes from. -/
structure Origins where
  file : String
  stated : List Origin := []
  deriving Repr, Inhabited

/-- The statement that holds at a place, with the file it means. -/
def Origins.statement? (o : Origins) (offset : Nat) : Option (Origin × String) :=
  o.stated.foldl (fun acc s =>
    if s.offset ≤ offset then
      some (s, s.file.getD ((acc.map Prod.snd).getD o.file))
    else acc) none

/-- How a place is shown. -/
def Origins.spot (o : Origins) (p : Place) : Spot :=
  match o.statement? p.offset with
  | none => ⟨o.file, p.line, p.column⟩
  | some (s, file) =>
    let down := p.line - s.base
    let column :=
      if s.column = 0 then 0
      else if down = 0 then s.column + (p.offset - s.offset)
      else p.column
    ⟨file, s.line + down, column⟩

/-- Adds a statement.  It counts if it stands behind the others and before the end of the file. -/
def Origins.add (o : Origins) (size : Nat) (s : Origin) : Origins :=
  if (o.stated.getLast?.all fun last => last.offset < s.offset) && s.offset < size then
    { o with stated := o.stated ++ [s] }
  else o

/-! ### Statements in comments -/

/-- The greatest line or column that can be stated. -/
def greatestLine : Nat := 0x40000000

/-- The number behind the last colon of some text, with what precedes the colon; nothing if there is
no colon. -/
def lastNumber (gs : List Glyph) : Option (List Glyph × List Glyph × Option Nat) :=
  if gs.any (·.char = ':') then
    let digits := (gs.reverse.takeWhile (·.char ≠ ':')).reverse
    let before := gs.take (gs.length - digits.length - 1)
    let value := digits.foldl (fun n g => n * 10 + digitValue g.char) 0
    let good := !digits.isEmpty && digits.all (digitValue ·.char < 10) &&
      value < 0x10000000000000000
    some (before, digits, if good then some value else none)
  else none

/-- The text of some characters. -/
def glyphText (gs : List Glyph) : String := String.ofList (gs.map Glyph.char)

/-- What a comment states, given its text behind the word `line`; what follows the comment starts
behind `offset` bytes on the line `base`, and `directory` is that of the file. -/
def Origin.read (directory : String) (offset base : Nat) (stop : Place) (gs : List Glyph) :
    Except Mistake (Option Origin) :=
  match lastNumber gs with
  | none => .ok none
  | some (before, digits, value) =>
    match value with
    | none => .error ⟨placeAt stop digits, "invalid line number: " ++ glyphText digits⟩
    | some n =>
      let named (name : List Glyph) : String :=
        let file := glyphText name
        if file = "" then ""
        else if Path.isAbs file then Path.clean file
        else Path.join [directory, Path.clean file]
      match lastNumber before with
      | some (name, lineDigits, some line) =>
        if n = 0 || greatestLine < n then
          .error ⟨placeAt stop digits, "invalid column number: " ++ glyphText digits⟩
        else if line = 0 || greatestLine < line then
          .error ⟨placeAt stop lineDigits, "invalid line number: " ++ glyphText lineDigits⟩
        else
          .ok (some ⟨offset, base, if name.isEmpty then none else some (named name), line, n⟩)
      | _ =>
        if n = 0 || greatestLine < n then
          .error ⟨placeAt stop digits, "invalid line number: " ++ glyphText digits⟩
        else .ok (some ⟨offset, base, some (named before), n, 0⟩)

end RuleScan.Schema.Source

/-!
## Pieces of a Go source file

The notes in a schema come from the comments in the Go files where the records are defined, so
these files are split into names, keywords, literals, marks and comments, each with its place and
with what is wrong about it.  As the language has it, a line that could end a statement ends it:
such a line end is a piece too.
-/

namespace RuleScan.Schema.Source

/-- What a piece of a source file is. -/
inductive Shape where
  | name
  | keyword
  | text
  /-- A number or a character. -/
  | number
  | mark
  /-- A line end that ends a statement. -/
  | lineEnd
  | comment
  /-- A character that may not stand here. -/
  | illegal
  /-- The end of the file. -/
  | ended
  deriving Repr, DecidableEq, Inhabited

/-- A piece of a source file. -/
structure Token where
  shape : Shape
  text : String
  place : Place
  /-- The place behind it. -/
  past : Place
  /-- What is wrong with it and with the blanks before it. -/
  mistakes : List Mistake := []
  /-- What it says about where the file comes from. -/
  origin : Option Origin := none
  deriving Repr, DecidableEq, Inhabited

namespace Token

/-- Whether a piece is a certain mark or keyword. -/
def is (t : Token) (text : String) : Bool :=
  (t.shape = .mark || t.shape = .keyword) && t.text = text

/-- Whether a piece is one of some marks or keywords. -/
def isAmong (t : Token) (texts : List String) : Bool :=
  (t.shape = .mark || t.shape = .keyword) && texts.contains t.text

/-- Whether a piece ends a statement. -/
def isEnd (t : Token) : Bool := t.shape = .lineEnd || t.is ";"

/-- Whether a piece is a name, a number or a text. -/
def isLiteral (t : Token) : Bool := t.shape = .name || t.shape = .text || t.shape = .number

/-- The line on which a piece ends. -/
def lastLine (t : Token) : Nat := t.place.line + (t.text.toList.filter (· = '\n')).length

end Token

/-- The words of the language. -/
def keywords : List String :=
  ["break", "case", "chan", "const", "continue", "default", "defer", "else", "fallthrough", "for",
    "func", "go", "goto", "if", "import", "interface", "map", "package", "range", "return",
    "select", "struct", "switch", "type", "var"]

/-- The keywords that can end a statement. -/
def endingKeywords : List String := ["break", "continue", "fallthrough", "return"]

/-- The marks that can end a statement. -/
def endingMarks : List String := ["++", "--", ")", "]", "\x7d"]

/-- The marks of the language, longer ones before those they start with. -/
def marks : List String :=
  ["<<=", ">>=", "&^=", "...", "&&", "||", "<-", "++", "--", "==", "!=", "<=", ">=", ":=", "+=",
    "-=", "*=", "/=", "%=", "&=", "|=", "^=", "<<", ">>", "&^", "+", "-", "*", "/", "%", "&", "|",
    "^", "<", ">", "=", "!", "(", ")", "[", "]", "\x7b", "\x7d", ",", ";", ".", ":", "~"]

/-- A character at the front of a name. -/
def isNameFront (c : Char) : Bool := c = '_' || Unicode.isLetter c.toNat

/-- A character of a name. -/
def isNamePart (c : Char) : Bool := isNameFront c || Unicode.isDigit c.toNat

/-- What follows the end of a comment of several lines; nothing if it does not end. -/
def pastComment? : List Glyph → Option (List Glyph)
  | a :: b :: rest => if a.char = '*' && b.char = '/' then some rest else pastComment? (b :: rest)
  | _ => none

/-- What is wrong with a character that starts no piece. -/
def illegalText (c : Char) : String :=
  if c = '\u201C' || c = '\u201D' then
    "curly quotation mark " ++ Text.quotedChar c ++ " (use neutral '\"')"
  else "illegal character " ++ numbered c

/-- The piece at the front of some characters of which the first is not blank: its shape and its
extent.  `fuel` is at least the number of characters. -/
def front (stop : Place) (fuel : Nat) (g : Glyph) (rest : List Glyph) : Shape × Extent :=
  let c := g.char
  if isNameFront c then
    let word := c :: (rest.takeWhile fun g => isNamePart g.char).map Glyph.char
    (if keywords.contains (String.ofList word) then .keyword else .name,
      ⟨rest.drop (word.length - 1), []⟩)
  else if c.isDigit || (c = '.' && (frontChar rest).any Char.isDigit) then
    (.number, number stop (g :: rest))
  else if c = '"' then (.text, textExtent stop g.place fuel rest)
  else if c = '\'' then (.number, charExtent stop g.place 0 true fuel rest)
  else if c = '\x60' then (.text, rawExtent g.place rest)
  else if c = '/' && frontChar rest = some '/' then
    (.comment, ⟨rest.dropWhile fun g => g.char ≠ '\n', []⟩)
  else if c = '/' && frontChar rest = some '*' then
    match pastComment? (rest.drop 1) with
    | some others => (.comment, ⟨others, []⟩)
    | none => (.comment, ⟨[], [⟨g.place, "comment not terminated"⟩]⟩)
  else
    match marks.find? fun m => m.toList.isPrefixOf (c :: (rest.take 2).map Glyph.char) with
    | some m => (.mark, ⟨rest.drop (m.length - 1), []⟩)
    | none =>
      (.illegal, ⟨rest, if c = byteOrderMark then [] else [⟨g.place, illegalText c⟩]⟩)

/-- Whether a line end behind a piece ends a statement; `ends` says whether one before it would
have. -/
def endsStatement (shape : Shape) (text : String) (ends : Bool) : Bool :=
  match shape with
  | .name | .text | .number => true
  | .keyword => endingKeywords.contains text
  | .mark => endingMarks.contains text
  | .comment | .illegal => ends
  | _ => false

/-- The characters of a comment of several lines without carriage returns; those between the last
star and the last slash stay. -/
def withoutReturns (written : Nat) (last : Char) : List Char → List Char
  | [] => []
  | c :: rest =>
    if c ≠ '\r' || (2 < written && last = '*' && rest.head? = some '/') then
      c :: withoutReturns (written + 1) c rest
    else withoutReturns written last rest

/-- The text of a piece: carriage returns are dropped from comments and from texts between back
quotes. -/
def keptText (shape : Shape) (cs : List Char) : List Char :=
  match shape, cs with
  | .comment, '/' :: '*' :: _ => withoutReturns 0 ' ' cs
  | .comment, _ => cs.filter (· ≠ '\r')
  | .text, '\x60' :: _ => cs.filter (· ≠ '\r')
  | _, _ => cs

/-- What a comment says about where the file comes from; `rest` follows the comment.  One up to the
end of the line has to start at the front of the line. -/
def stated (directory : String) (stop : Place) (piece rest : List Glyph) :
    Except Mistake (Option Origin) :=
  let text := glyphText piece
  let place := placeAt stop piece
  match Text.stripFront? "/*line " text, Text.stripFront? "//line " text with
  | some _, _ =>
    let next := placeAt stop rest
    Origin.read directory next.offset next.line stop ((piece.drop 7).take (piece.length - 9))
  | _, some _ =>
    if place.column ≠ 1 then .ok none
    else
      let body := match (piece.drop 7).getLast? with
        | some g => if g.char = '\r' then (piece.drop 7).dropLast else piece.drop 7
        | none => []
      let next := (placeAt stop rest).offset + if rest.isEmpty then 0 else 1
      Origin.read directory next (place.line + 1) stop body
  | _, _ => .ok none

/-- Splits a text.  `ends` says whether a line end here ends a statement, and `raised` is what is
wrong with the characters read since the last piece. -/
def tokensFrom (directory : String) (stop : Place) (fuel : Nat) (ends : Bool)
    (raised : List Mistake) (gs : List Glyph) : List Token :=
  let raise (g : List Glyph) : List Mistake := raised ++ (g.head?.bind Glyph.mistake?).toList
  match fuel with
  | 0 => []
  | fuel + 1 =>
    match gs with
    | [] =>
      if ends then [⟨.lineEnd, "\n", stop, stop, raised, none⟩, ⟨.ended, "", stop, stop, [], none⟩]
      else [⟨.ended, "", stop, stop, raised, none⟩]
    | g :: rest =>
      if g.char = '\n' && ends then
        ⟨.lineEnd, "\n", g.place, placeAt stop rest, raise rest, none⟩ ::
          tokensFrom directory stop fuel false [] rest
      else if g.char = ' ' || g.char = '\t' || g.char = '\r' || g.char = '\n' then
        tokensFrom directory stop fuel ends (raise rest) rest
      else
        let (shape, extent) := front stop (fuel + 1) g rest
        let piece := upTo (placeAt stop extent.rest) gs
        let read := (gs.drop 1).take piece.length
        let text := String.ofList (keptText shape (piece.map Glyph.char))
        let ends' := endsStatement shape text ends
        let whole := shape = .comment && extent.mistakes.isEmpty
        let (origin, wrong) : Option Origin × List Mistake :=
          if whole then
            match stated directory stop piece extent.rest with
            | .ok origin => (origin, [])
            | .error m => (none, [m])
          else (none, [])
        let t : Token := ⟨shape, text, g.place, placeAt stop extent.rest,
          raised ++ read.filterMap Glyph.mistake? ++ extent.mistakes ++ wrong, origin⟩
        let broken := if shape = .comment && frontChar rest = some '*' && ends then
            piece.find? (·.char = '\n')
          else none
        match broken with
        | some line =>
          t :: ⟨.lineEnd, "\n", line.place, line.place, [], none⟩ ::
            tokensFrom directory stop fuel false [] extent.rest
        | none => t :: tokensFrom directory stop fuel ends' [] extent.rest

/-- The pieces of a source file in a directory. -/
def tokens (directory : String) (s : Script) : List Token :=
  tokensFrom directory s.stop (s.glyphs.length + 1) false
    (s.glyphs.head?.bind Glyph.mistake?).toList s.glyphs

/-- A file and what its pieces say about where it comes from. -/
def originsOf (file : String) (size : Nat) (tokens : List Token) : Origins :=
  (tokens.filterMap Token.origin).foldl (fun o s => o.add size s) { file }

end RuleScan.Schema.Source

/-!
## Comments and what they belong to

Comments that follow each other line by line make a group.  A group right above a piece leads it;
a group behind a piece on its line, with nothing after it, trails it.  The text of a group is what
is written in it without the marks of comments and without directives to tools.
-/

namespace RuleScan.Schema.Source

/-- A piece together with the group that leads it and the group that trails the piece before. -/
structure Led where
  token : Token
  lead : List String := []
  trail : List String := []
  /-- What is wrong with the piece and the comments before it. -/
  mistakes : List Mistake := []
  deriving Repr, DecidableEq, Inhabited

/-- The comments at the front that make one group: each starts at most `gap` lines below the end of
the one before.  Gives the group, its last line and the other comments. -/
def takeGroup (gap : Nat) (last : Nat) : List Token → List String × Nat × List Token
  | [] => ([], last, [])
  | c :: rest =>
    if c.place.line ≤ last + gap then
      let (group, last, others) := takeGroup gap c.lastLine rest
      (c.text :: group, last, others)
    else ([], last, c :: rest)

/-- The last group of some comments and its last line. -/
def lastGroup (fuel : Nat) (comments : List Token) : Option (List String × Nat) :=
  match fuel, comments with
  | 0, _ | _, [] => none
  | fuel + 1, c :: rest =>
    let (group, last, others) := takeGroup 1 c.place.line (c :: rest)
    (lastGroup fuel others).or (some (group, last))

/-- A piece with the groups among the comments before it; `line` is the line of the piece before
these. -/
def ledBy (line : Nat) (comments : List Token) (t : Token) : Led :=
  let (trail, others) := match comments with
    | [] => ([], [])
    | c :: _ =>
      if c.place.line = line then
        let (group, last, others) := takeGroup 0 line comments
        let next := others.head?.getD t
        if next.place.line ≠ last || t.shape = Shape.lineEnd || t.is ";" || t.shape = Shape.ended then
          (group, others)
        else ([], others)
      else ([], comments)
  let lead := match lastGroup others.length others with
    | some (group, last) => if last + 1 = t.place.line then group else []
    | none => []
  { token := t, lead, trail, mistakes := comments.flatMap Token.mistakes ++ t.mistakes }

/-- The pieces of a file with their groups; `waiting` are the comments since the last piece, the
newest first, and `line` is its line. -/
def attach (line : Nat) (waiting : List Token) : List Token → List Led
  | [] => []
  | t :: rest =>
    if t.shape = .comment then attach line (t :: waiting) rest
    else ledBy line waiting.reverse t :: attach t.place.line [] rest

/-! ### Texts -/

/-- Whether a comment, without its mark, is a directive to a tool. -/
def isDirective (cs : List Char) : Bool :=
  let small (c : Char) : Bool := c.isLower || c.isDigit
  if ["line ", "extern ", "export "].any fun w => w.toList.isPrefixOf cs then true
  else
    match Text.cut? [':'] cs with
    | some (before, c :: _) => !before.isEmpty && before.all small && small c
    | _ => false

/-- The lines of a comment; a directive has none. -/
def linesOf (comment : String) : List (List Char) :=
  match comment.toList with
  | '/' :: '/' :: [] => [[]]
  | '/' :: '/' :: ' ' :: rest => [rest]
  | '/' :: '/' :: rest => if isDirective rest then [] else [rest]
  | '/' :: '*' :: rest => Text.splitWhere (· = '\n') (rest.take (rest.length - 2))
  | _ => []

/-- Drops the empty lines at the front, and keeps one of several in a row. -/
def squeeze (afterText : Bool) : List (List Char) → List (List Char)
  | [] => []
  | [] :: rest => if afterText then [] :: squeeze false rest else squeeze false rest
  | line :: rest => line :: squeeze true rest

/-- The text of a group of comments; every line has an end. -/
def groupText (group : List String) : String :=
  let blank (c : Char) : Bool := c = ' ' || c = '\t' || c = '\n' || c = '\r'
  let lines := squeeze false ((group.flatMap linesOf).map (Text.dropEndWhile blank))
  let lines := if lines.getLast?.any (! ·.isEmpty) then lines ++ [[]] else lines
  String.ofList (['\n'].intercalate lines)

end RuleScan.Schema.Source
