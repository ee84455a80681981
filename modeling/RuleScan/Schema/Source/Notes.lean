import RuleScan.Text.Space
import RuleScan.Unicode.Case
import RuleScan.Schema.Source.Statement

/-!
# Notes

The sentences that comments begin with, and the types and fields that they are about.
-/

/-!
## The first sentence of a comment

A record is described by the first sentence of its comment, on one line.  Comments that start with
a heading, a list or an example give none, nor do notices of rights.
-/

namespace RuleScan.Schema.Source

/-- The characters of the first sentence.  A point ends it before a blank, unless it follows one
single capital; the full stops of East Asian scripts always end it.  `a`, `b` and `c` are the
characters before, the nearest last. -/
def sentence (a b c : Char) : List Char → List Char
  | [] => []
  | d :: rest =>
    let d' := if d = '\n' || d = '\r' || d = '\t' then ' ' else d
    if d' = ' ' && c = '.' && (!Unicode.isUpper b.toNat || Unicode.isUpper a.toNat) then []
    else if c = '\u3002' || c = '\uFF0E' then []
    else d :: sentence b c d' rest

/-- The first sentence of a text. -/
def firstSentence (text : String) : String :=
  String.ofList (sentence '\x00' '\x00' '\x00' text.toList)

/-- The fronts of notices of rights. -/
def noticeFronts : List String := ["copyright", "all rights", "author"]

/-! ### Blocks -/

/-- Whether a line has nothing in it. -/
def isBlankLine (cs : List Char) : Bool := cs.all Text.isSpace

/-- The blanks at the front of a line. -/
def margin (cs : List Char) : List Char := cs.takeWhile fun c => c = ' ' || c = '\t'

/-- The common front of two texts. -/
def commonFront : List Char → List Char → List Char
  | a :: as, b :: bs => if a = b then a :: commonFront as bs else []
  | _, _ => []

/-- Lines without the blank ones at both ends. -/
def trimLines (lines : List (List Char)) : List (List Char) :=
  ((lines.dropWhile isBlankLine).reverse.dropWhile isBlankLine).reverse

/-- Lines without what their margins have in common; a blank line is empty. -/
def withoutMargin (lines : List (List Char)) : List (List Char) :=
  match trimLines lines with
  | [] => []
  | first :: rest =>
    let common := rest.foldl (fun m l => if isBlankLine l then m else commonFront m (margin l))
      (margin first)
    (first :: rest).map fun l =>
      if isBlankLine l then []
      else if common.isPrefixOf l then l.drop common.length else l

/-- Whether a line has a margin. -/
def isIndented (cs : List Char) : Bool := cs.head?.any fun c => c = ' ' || c = '\t'

/-- Whether a line starts with the sign of a list item. -/
def isItem (cs : List Char) : Bool :=
  let body (rest : List Char) : Bool := isIndented rest && !isBlankLine rest
  match Text.trimWhile Text.isSpace cs with
  | [] => false
  | c :: rest =>
    if c = '\u2022' || c = '*' || c = '+' || c = '-' then body rest
    else if c.isDigit then
      match rest.dropWhile Char.isDigit with
      | mark :: rest => (mark = '.' || mark = ')') && body rest
      | [] => false
    else false

/-- Whether a line is a heading. -/
def isHeading : List Char → Bool
  | '#' :: c :: _ :: _ => c = ' ' || c = '\t'
  | _ => false

/-- The lines at the front that make the first paragraph, if the text starts with one.  Lines that
seem to belong to an indented part below, because they are items or open a bracket, are left
to it. -/
def firstParagraph? (lines : List (List Char)) : Option (List (List Char)) :=
  let plain := lines.takeWhile fun l => !l.isEmpty && !isIndented l
  let next := (lines.drop plain.length).head?
  let opens (l : List Char) : Bool := l.getLast?.any fun c => c = '\x7b' || c = '\\'
  let kept := match next, plain.getLast? with
    | some n, some last =>
      if n.isEmpty || isItem n then plain
      else if isItem last then (plain.reverse.dropWhile isItem).reverse
      else if opens last then plain.dropLast
      else plain
    | _, _ => plain
  match kept with
  | [] => none
  | [line] => if isHeading line then none else some [line]
  | kept => some kept

/-! ### Text -/

/-- Replaces doubled quotes by round ones, except among three or more. -/
def roundQuotes : List Char → List Char
  | '\x60' :: '\x60' :: '\x60' :: rest =>
    '\x60' :: '\x60' :: '\x60' :: keepTicks rest
  | '\x60' :: '\x60' :: rest => '\u201C' :: roundQuotes rest
  | '\'' :: '\'' :: rest => '\u201D' :: roundQuotes rest
  | c :: rest => c :: roundQuotes rest
  | [] => []
where
  /-- Goes on behind the ticks of a row. -/
  keepTicks : List Char → List Char
    | '\x60' :: rest => '\x60' :: keepTicks rest
    | c :: rest => c :: roundQuotes rest
    | [] => []

/-- The packages that every program has; a link to one of them is shown without its brackets. -/
def knownPackages : List String :=
  ["bufio", "bytes", "cmp", "context", "crypto", "embed", "encoding", "errors", "expvar", "flag",
    "fmt", "hash", "html", "image", "io", "iter", "log", "maps", "math", "mime", "net", "os",
    "path", "plugin", "reflect", "regexp", "runtime", "slices", "sort", "strconv", "strings",
    "structs", "sync", "syscall", "testing", "time", "unicode", "unique", "unsafe", "weak"]

/-- Whether a text is a name with a capital. -/
def isCapitalName (cs : List Char) : Bool :=
  (cs.head?.any fun c => Unicode.isUpper c.toNat) &&
    cs.all fun c => c = '_' || Unicode.isLetter c.toNat || Unicode.isDigit c.toNat

/-- What precedes a name with a capital at the end of a text, or else the text. -/
def withoutName (cs : List Char) : List Char :=
  let last := (cs.reverse.takeWhile (· ≠ '.')).reverse
  if isCapitalName last then cs.take (cs.length - last.length - 1) else cs

/-- A part of the path of a package. -/
def isPackagePart (cs : List Char) : Bool :=
  !cs.isEmpty && cs.head? ≠ some '.' && cs.getLast? ≠ some '.' &&
    cs.all fun c => c.isAlphanum || c = '-' || c = '.' || c = '~' || c = '_' || c = '+'

/-- Whether a text names a package that is known or given by its path, or something with a capital
in one. -/
def isKnownLink (cs : List Char) : Bool :=
  let cs := if cs.head? = some '*' then cs.drop 1 else cs
  let package := if withoutName cs = cs then cs else withoutName (withoutName cs)
  if package.contains '/' then
    package.head? ≠ some '-' && (Text.splitWhere (· = '/') package).all isPackagePart
  else knownPackages.contains (String.ofList package)

/-- Whether a link may stand beside a character. -/
def besideLink (c : Option Char) : Bool :=
  match c with
  | none => true
  | some c =>
    c = ' ' || c = '\t' || c = '\n' || ["Pc", "Pd", "Ps", "Pe", "Pi", "Pf", "Po"].any fun name =>
      (Unicode.category? name).any fun r => Unicode.Ranges.contains r c.toNat

/-- Drops the brackets of links to known packages; `before` is the character before. -/
def plainLinks (before : Option Char) (fuel : Nat) (cs : List Char) : List Char :=
  match fuel, cs with
  | 0, cs => cs
  | _, [] => []
  | fuel + 1, '[' :: rest =>
    let inner := rest.takeWhile fun c => c ≠ ']' && c ≠ '['
    match rest.drop inner.length with
    | ']' :: after =>
      if isKnownLink inner && besideLink before && besideLink after.head? then
        inner ++ plainLinks (some ']') fuel after
      else '[' :: inner ++ plainLinks (inner.getLast?.or (some '[')) fuel (']' :: after)
    | others => '[' :: inner ++ plainLinks (inner.getLast?.or (some '[')) fuel others
  | fuel + 1, c :: rest => c :: plainLinks (some c) fuel rest

/-- The first sentence of a comment as the description of a record. -/
def synopsis (text : String) : String :=
  let first := firstSentence text
  let lower := Unicode.lowerText first
  if noticeFronts.any fun f => f.toList.isPrefixOf lower.toList then ""
  else
    match firstParagraph? (withoutMargin (Text.splitWhere (· = '\n') first.toList)) with
    | none => ""
    | some lines =>
      let cs := ['\n'].intercalate lines
      " ".intercalate (Text.words (String.ofList (roundQuotes (plainLinks none cs.length cs))))

end RuleScan.Schema.Source

/-!
## Notes on types and fields

What the comments of a source file say about the types and fields it defines.  A type is noted by
the first sentence of the comment above it or, once, of the comment above the group it stands in; a
field by the whole comment above it, or else the one behind it.  Only names with a capital count.
The fields of a type inside another one are noted for the outer type.
-/

/-!
### A source file

A file names its package, imports others and then defines things.  If nothing is wrong with it,
reading gives the comments in it; otherwise a message about the first fault.
-/

namespace RuleScan.Schema.Source

/-- The grammar of the language, for what is nested at most `depth` times. -/
def Grammar.upTo : Nat → Grammar
  | 0 => Grammar.empty
  | depth + 1 =>
    { fuel := depth
      type? := fun r => Read.typeForm? (Grammar.upTo depth) r
      unary := fun r => Read.unaryForm (Grammar.upTo depth) r
      binary := fun front least r => Read.binaryForm (Grammar.upTo depth) front least r
      elements := fun r => Read.elementList (Grammar.upTo depth) r
      block := fun r => Read.blockForm (Grammar.upTo depth) r
      condition := fun r => Read.conditionForm (Grammar.upTo depth) r
      statement := fun r => Read.statementForm (Grammar.upTo depth) r }

/-- The definitions of a file.  Imports come first; `started` says that something else has been
defined. -/
def definitions (g : Grammar) : Read Unit :=
  Read.repeated (fun (started : Bool) => do
    let t ← Read.here
    if t.shape = .ended then return .ok ()
    if t.is "import" && started then
      Read.complain t.place "imports must appear before other declarations"
    Read.anyDefinition g Read.startsDefinition
    return .error (!t.is "import")) g.fuel false

/-- A whole file.  If something is wrong up to the name of the package, the rest is not read. -/
def wholeFile (g : Grammar) : Read Unit := do
  let faulty : Read Bool := do return !(← get).complaints.isEmpty
  if ← faulty then return
  discard (Read.expect "package")
  discard Read.name
  discard Read.expectEnd
  if ← faulty then return
  definitions g

/-- The reader at the front of a file. -/
def Reader.ofBytes (file : String) (bytes : Text.Bytes) : Reader :=
  let script := Script.ofBytes bytes
  let tokens := tokens (Path.split file).1 script
  let origins := originsOf file script.size tokens
  let pieces := attach 0 [] tokens
  let mistakes := (pieces.head?.map Led.mistakes).getD []
  { pieces, origins
    complaints := (mistakes.map fun m => ⟨origins.spot m.place, m.text⟩).reverse }

/-- How often things can be nested, and how many steps a list can take, in a file of so many
pieces. -/
def deepEnough (pieces : Nat) : Nat := 16 * (pieces + 16)

/-- The comments of a file in the order of what they are about, or a message about what is wrong
with the file. -/
def remarksOf (file : String) (bytes : Text.Bytes) : Except String (List Remark) :=
  let start := Reader.ofBytes file bytes
  let (_, done) := (wholeFile (Grammar.upTo (deepEnough start.pieces.length))).run.run start
  if done.complaints.isEmpty then .ok done.remarks.reverse
  else .error (Complaint.message done.complaints)

end RuleScan.Schema.Source

namespace RuleScan.Schema.Source

/-- What is said about a type or, as `Type.Field`, about a field. -/
abbrev Notes := List (String × String)

/-- Whether a name has a capital. -/
def isExported (name : String) : Bool := name.toList.head?.any fun c => Unicode.isUpper c.toNat

/-- The notes so far, the last one first. -/
structure Noted where
  /-- The type that fields are noted for; empty for none. -/
  type : String := ""
  /-- What is said about the group, until a type takes it. -/
  group : String := ""
  notes : Notes := []
  deriving Repr, Inhabited

/-- Takes in what a comment is about. -/
def Noted.take (n : Noted) : Remark → Noted
  | .definitions lead => { n with group := groupText lead }
  | .type name lead =>
    if !isExported name then { n with type := "" }
    else
      let own := groupText lead
      let text := if own = "" then n.group else own
      { type := name
        group := if own = "" then "" else n.group
        notes := (name, Text.trim (synopsis text)) :: n.notes }
  | .member names lead trail =>
    let above := groupText lead
    let text := if above = "" then groupText trail else above
    if n.type = "" || text = "" then n
    else
      let new := (names.filter isExported).map fun name => (n.type ++ "." ++ name, Text.trim text)
      { n with notes := new.reverse ++ n.notes }

/-- The notes of a source file, or a message about what is wrong with it. -/
def notesOf (file : String) (bytes : Text.Bytes) : Except String Notes :=
  (remarksOf file bytes).map fun remarks => (remarks.foldl Noted.take {}).notes.reverse

end RuleScan.Schema.Source
